import ForwardProxy.ConnectUdp.Association
import ForwardProxy.ConnectUdp.Pump
import ForwardProxy.Core.Transition

/-!
# The life of an association (`connectUDPAssociation.run`)

`run` starts the two pumps, each in a goroutine of its own, and waits in a `select` for the first of
five things: the result of a pump, activity, the idle timer, the end of the context of the request,
and the end of the context of the stream.  Anything but activity ends the loop.  Then it cancels the
context of the pumps and both directions of the stream, closes the socket, waits for the results of
the pumps that it has not received yet, and closes the stream.

The three goroutines share two buffered channels, the context and the timer.  A label of the model
is one action of one of them, so that a run is an interleaving.  A call of a pump that can block is
two actions, one for the call and one for its return; what a call answers is a choice of the
environment, and before the socket is closed and the context cancelled there may never be an answer.

The turns of the pumps are those of `Pump`.
-/

namespace ForwardProxy
namespace ConnectUdp
namespace Lifecycle

open ForwardProxy.Core Pump

/-- The errors that go through `run`. -/
inductive Err where
  /-- An error of the socket or of the stream, or a cause that someone else gave. -/
  | io (err : IOErr)
  /-- `errConnectUDPClosed`. -/
  | closed
  /-- `context.DeadlineExceeded`. -/
  | deadlineExceeded
  /-- `context.Canceled`. -/
  | canceled
  deriving DecidableEq, Repr

/-- The two pumps. -/
inductive Direction where
  /-- `pumpH3ToUDP`. -/
  | h3ToUDP
  /-- `pumpUDPToH3`. -/
  | udpToH3
  deriving DecidableEq, Repr

/-- Where a pump stands. -/
inductive PumpPc where
  /-- In `ReceiveDatagram`, or in `udp.Read`. -/
  | waiting
  /-- About to call `udp.Write`, or `SendDatagram`. -/
  | calling (data : List UInt8)
  /-- In that call. -/
  | called (data : List UInt8)
  /-- About to call `notifyConnectUDPActivity`. -/
  | notifying
  /-- About to look at the context, at the end of a turn of `pumpUDPToH3`. -/
  | checking
  /-- The pump has returned; its goroutine is about to send the result. -/
  | returned (err : Err)
  /-- The goroutine has ended. -/
  | gone
  deriving DecidableEq, Repr

/-- A pump: what it has done, its buffer and where it stands. -/
structure Process where
  st : Pump.State := {}
  buffer : Buffer := newBuffer
  pc : PumpPc := .waiting

/-- Where `run` stands. -/
inductive RunPc where
  /-- The pumps run; about to make the timer. -/
  | entered
  | select
  /-- The loop is left; about to call `cancel`. -/
  | left
  /-- About to call `CancelRead`. -/
  | cancelled
  /-- About to call `CancelWrite`. -/
  | readCancelled
  /-- About to call `udp.Close`. -/
  | writeCancelled
  /-- In the loop that waits for the pumps. -/
  | draining
  /-- About to call `stream.Close`. -/
  | drained
  /-- About to return. -/
  | streamClosed
  | returned (result : Option Err)
  deriving DecidableEq, Repr

/-- The state of an association. -/
structure State where
  now : ℕ := 0
  /-- When the timer is armed, the time it will fire. -/
  timer : Option ℕ := none
  /-- A tick lies in the channel of the timer. -/
  tick : Bool := false
  /-- `context.Cause(parent)`. -/
  parent : Option Err := none
  /-- `context.Cause(ctx)`. -/
  ctx : Option Err := none
  /-- `context.Cause(a.stream.Context())`. -/
  streamCtx : Option Err := none
  /-- The channel `activity`. -/
  activity : Bool := false
  /-- The channel `results`. -/
  results : List (Option Err) := []
  completed : ℕ := 0
  result : Option Err := none
  readCancelled : Bool := false
  writeCancelled : Bool := false
  udpClosed : Bool := false
  streamClosed : Bool := false
  pc : RunPc := .entered
  pump : Direction → Process := fun _ => {}

/-- The state in which both pumps are about to begin. -/
def init (now : ℕ) : State := { now := now }

/-- The capacity of `results`. -/
def resultsCap : ℕ := 2

/-- One action of one party. -/
inductive Event where
  /-- Time passes. -/
  | elapse (d : ℕ)
  /-- The timer fires. -/
  | fire
  /-- The context of the request ends. -/
  | parentEnds (cause : Err)
  /-- The end of the context of the request reaches the context of the pumps. -/
  | propagate
  /-- The context of the stream ends. -/
  | streamEnds (cause : Err)
  | newTimer
  | selectResult
  | selectActivity
  | selectTimer
  | selectParent
  | selectStream
  | cancel
  | cancelRead
  | cancelWrite
  | closeUDP
  /-- A result is received after the loop. -/
  | drain
  /-- Both results have been received. -/
  | endDrain
  | closeStream
  | ret
  /-- `ReceiveDatagram` or `udp.Read` returns. -/
  | input (d : Direction) (answer : Except IOErr (List UInt8))
  /-- `udp.Write` or `SendDatagram` is called. -/
  | call (d : Direction)
  /-- `udp.Write` returns. -/
  | wrote (n : ℕ) (err : Option IOErr)
  /-- `SendDatagram` returns. -/
  | sent (err : Option SendError)
  | notify (d : Direction)
  /-- `pumpUDPToH3` looks at its context. -/
  | check
  /-- A goroutine sends the result of its pump. -/
  | deliver (d : Direction)
  deriving DecidableEq

/-! ## The pumps -/

namespace Process

/-- A pump after `ReceiveDatagram` or `udp.Read` has returned. -/
def input (a : Association) (d : Direction) (p : Process) (answer : Except IOErr (List UInt8)) :
    Process :=
  match d with
  | .h3ToUDP =>
    match receive a p.st answer with
    | .done (st, err) => { p with st := st, pc := .returned (.io err) }
    | .next (st, none) => { p with st := st, pc := .waiting }
    | .next (st, some payload) => { p with st := st, pc := .calling payload }
  | .udpToH3 =>
    match read a p.st p.buffer answer with
    | .done (st, err) => { p with st := st, pc := .returned (.io err) }
    | .next (buffer, datagram) => { p with buffer := buffer, pc := .calling datagram }

/-- A pump that calls `udp.Write` or `SendDatagram`. -/
def call (p : Process) (data : List UInt8) : Process :=
  { p with st := { p.st with sent := p.st.sent ++ [data] }, pc := .called data }

/-- `pumpH3ToUDP` after `udp.Write` has returned. -/
def wrote (a : Association) (p : Process) (payload : List UInt8) (answer : ℕ × Option IOErr) :
    Process :=
  match afterWrite a p.st payload answer with
  | .done (st, err) => { p with st := st, pc := .returned (.io err) }
  | .next st => { p with st := st, pc := .notifying }

/-- `pumpUDPToH3` after `SendDatagram` has returned.  It looks at its context only after it has
notified. -/
def sent (a : Association) (p : Process) (datagram : List UInt8) (answer : Option SendError) :
    Process :=
  match afterSend a p.st datagram none answer with
  | .done (st, err) => { p with st := st, pc := .returned (.io err) }
  | .next st => { p with st := st, pc := if answer = none then .notifying else .waiting }

/-- A pump after it has notified. -/
def notified (d : Direction) (p : Process) : Process :=
  match d with
  | .h3ToUDP => { p with pc := .waiting }
  | .udpToH3 => { p with pc := .checking }

/-- `pumpUDPToH3` after it has looked at its context. -/
def check (p : Process) (ctx : Option Err) : Process :=
  match ctx with
  | some cause => { p with pc := .returned cause }
  | none => { p with pc := .waiting }

end Process

/-! ## The steps -/

namespace State

/-- Put a pump in place. -/
def setPump (s : State) (d : Direction) (p : Process) : State :=
  { s with pump := Function.update s.pump d p }

/-- The end of a turn of the loop: `result` is assigned, and the loop ends unless it is nil. -/
def conclude (s : State) (result : Option Err) : State :=
  { s with result := result, pc := if result = none then .select else .left }

/-- The branch for activity: the timer is stopped, its channel drained, and the timer set again. -/
def restartTimer (s : State) (idleTimeout : ℕ) : State :=
  { s with
    timer := some (s.now + idleTimeout)
    tick := if s.timer = none then false else s.tick }

end State

/-- One step.  `none` means that the action is not enabled. -/
def step (a : Association) (idleTimeout : ℕ) (s : State) : Event → Option State
  | .elapse d => some { s with now := s.now + d }
  | .fire =>
    match s.timer with
    | some t => if t ≤ s.now then some { s with timer := none, tick := true } else none
    | none => none
  | .parentEnds cause => if s.parent = none then some { s with parent := some cause } else none
  | .propagate => if s.parent ≠ none ∧ s.ctx = none then some { s with ctx := s.parent } else none
  | .streamEnds cause =>
    if s.streamCtx = none then some { s with streamCtx := some cause } else none
  | .newTimer =>
    if s.pc = .entered then
      some { s with timer := some (s.now + idleTimeout), pc := .select }
    else none
  | .selectResult =>
    match s.results with
    | [] => none
    | err :: results =>
      if s.pc = .select then
        some ({ s with results := results, completed := s.completed + 1 }.conclude
          (some (err.getD .closed)))
      else none
  | .selectActivity =>
    if s.pc = .select ∧ s.activity = true then
      some ({ s with activity := false }.restartTimer idleTimeout)
    else none
  | .selectTimer =>
    if s.pc = .select ∧ s.tick = true then
      some ({ s with tick := false }.conclude (some .deadlineExceeded))
    else none
  | .selectParent => if s.pc = .select ∧ s.parent ≠ none then some (s.conclude s.parent) else none
  | .selectStream =>
    if s.pc = .select ∧ s.streamCtx ≠ none then some (s.conclude s.streamCtx) else none
  | .cancel =>
    if s.pc = .left then
      some { s with ctx := s.ctx.or (some .canceled), pc := .cancelled }
    else none
  | .cancelRead =>
    if s.pc = .cancelled then some { s with readCancelled := true, pc := .readCancelled } else none
  | .cancelWrite =>
    if s.pc = .readCancelled then some { s with writeCancelled := true, pc := .writeCancelled }
    else none
  | .closeUDP =>
    if s.pc = .writeCancelled then some { s with udpClosed := true, pc := .draining } else none
  | .drain =>
    match s.results with
    | [] => none
    | _ :: results =>
      if s.pc = .draining ∧ s.completed < 2 then
        some { s with results := results, completed := s.completed + 1 }
      else none
  | .endDrain =>
    if s.pc = .draining ∧ ¬ s.completed < 2 then some { s with pc := .drained } else none
  | .closeStream =>
    if s.pc = .drained then some { s with streamClosed := true, pc := .streamClosed } else none
  | .ret =>
    -- with the deferred `timer.Stop`
    if s.pc = .streamClosed then some { s with timer := none, pc := .returned s.result } else none
  | .input d answer =>
    match (s.pump d).pc with
    | .waiting => some (s.setPump d ((s.pump d).input a d answer))
    | _ => none
  | .call d =>
    match (s.pump d).pc with
    | .calling data => some (s.setPump d ((s.pump d).call data))
    | _ => none
  | .wrote n err =>
    match (s.pump .h3ToUDP).pc with
    | .called payload => some (s.setPump .h3ToUDP ((s.pump .h3ToUDP).wrote a payload (n, err)))
    | _ => none
  | .sent err =>
    match (s.pump .udpToH3).pc with
    | .called datagram => some (s.setPump .udpToH3 ((s.pump .udpToH3).sent a datagram err))
    | _ => none
  | .notify d =>
    match (s.pump d).pc with
    | .notifying => some ({ s with activity := true }.setPump d ((s.pump d).notified d))
    | _ => none
  | .check =>
    match (s.pump .udpToH3).pc with
    | .checking => some (s.setPump .udpToH3 ((s.pump .udpToH3).check s.ctx))
    | _ => none
  | .deliver d =>
    match (s.pump d).pc with
    | .returned err =>
      if s.results.length < resultsCap then
        some ({ s with results := s.results ++ [some err] }.setPump d
          { s.pump d with pc := .gone })
      else none
    | _ => none

end Lifecycle
end ConnectUdp
end ForwardProxy
