import ForwardProxy.Dial.Interleave

/-!
# `dialTCPAddresses` as a transition system (`connect_dial.go`)

`dialTCPAddresses` races over addresses that are known from the start.  It has the attempts of the
incremental dialer, word for word, and a simpler scheduler: the order of the addresses is computed
at the beginning, a counter says which one is next, and a timer alone says when.

The state and the labels are those of `Dial.Race` without the feed and the lookups, and they are
read in the same way.  Resetting a timer discards a tick that was not received, as it does since Go
1.23.
-/

namespace ForwardProxy
namespace Dial

open ForwardProxy.Core Acl

namespace Static

/-- Where the scheduler stands. -/
inductive Pc where
  /-- The order is computed; about to look at the first address. -/
  | entered
  /-- About to read `ctx.Err()` before an address is dialled. -/
  | popped (addr : GoString)
  | starting (addr : GoString)
  /-- The attempt runs; about to note the time and to set the timer. -/
  | stamping
  | select
  /-- A connection was received; about to read `ctx.Err()`. -/
  | received (conn : ℕ)
  | returned (conn : Option ℕ) (err : Option RaceError)
  deriving DecidableEq, Repr

/-- The state of the race. -/
structure State where
  now : ℕ := 0
  timer : Option ℕ := none
  tick : Bool := false
  ctxErr : Option NetError := none
  attempts : List Attempt := []
  produced : ℕ := 0
  closes : List ℕ := []
  pc : Pc := .entered
  next : ℕ := 0
  pending : ℕ := 0
  lastStart : ℕ := 0
  lastErr : Option RaceError := none
  /-- The addresses that were handed to an attempt, with the time. -/
  starts : List (GoString × ℕ) := []

/-- The state in which `dialTCPAddresses` is entered. -/
def init (now : ℕ) : State := { now := now }

/-- One atomic action of one party. -/
inductive Event where
  | elapse (d : ℕ)
  | fire
  | cancel (err : NetError)
  | dialDone (i : ℕ) (conn : Bool) (err : Option NetError)
  | settle (i : ℕ) (attemptErr : Option NetError)
  | giveUp (i : ℕ)
  | enter
  | checkCtx
  | start
  | stamp
  | selectCtx
  | selectResult (i : ℕ)
  | selectTick
  | checkWinner

namespace State

/-- `return conn, err`, with the deferred `cancel`. -/
def ret (s : State) (conn : Option ℕ) (err : Option RaceError) : State :=
  { s with pc := .returned conn err, ctxErr := s.ctxErr.or (some .canceled) }

/-- `timer.Reset`. -/
def resetTimer (s : State) (at' : ℕ) : State := { s with timer := some at', tick := false }

def setAttempt (s : State) (i : ℕ) (a : Attempt) : State :=
  { s with attempts := s.attempts.set i a }

/-- `conn.Close()`, if there is a connection. -/
def close (s : State) (conn : Option ℕ) : State :=
  { s with closes := s.closes ++ conn.toList }

/-- The branch of `select` for a failed result. -/
def failed (s : State) (count : ℕ) (err : Option RaceError) : State :=
  let s := { s with pending := s.pending - 1, lastErr := err }
  if s.next = count ∧ s.pending = 0 then s.ret none err
  else if s.next < count then s.resetTimer (max s.now (s.lastStart + tcpMinimumDelay))
  else s

end State

/-- One step, for the addresses in their order.  `none` means that the label is not enabled. -/
def step (ordered : List GoString) (s : State) : Event → Option State
  | .elapse d => some { s with now := s.now + d }
  | .fire =>
    match s.timer with
    | some t => if t ≤ s.now then some { s with timer := none, tick := true } else none
    | none => none
  | .cancel err =>
    if s.ctxErr = none ∧ (err = .canceled ∨ err = .deadlineExceeded) then
      some { s with ctxErr := some err }
    else none
  | .dialDone i conn err =>
    match s.attempts[i]? with
    | some a =>
      if a.pc = .dialing then
        some { s with
          produced := s.produced + conn.toNat
          attempts := s.attempts.set i { a with
            pc := .dialed (if conn then some s.produced else none) (err.map .net) } }
      else none
    | none => none
  | .settle i attemptErr =>
    match s.attempts[i]? with
    | some a =>
      match a.pc with
      | .dialed conn err =>
        if attemptErrOk s.now s.ctxErr a attemptErr then
          some ((s.close (discarded conn err attemptErr)).setAttempt i { a with
            pc := .offering (offer conn err attemptErr).1 (offer conn err attemptErr).2 })
        else none
      | _ => none
    | none => none
  | .giveUp i =>
    match s.attempts[i]? with
    | some a =>
      match a.pc with
      | .offering conn _ =>
        if s.ctxErr ≠ none then some ((s.close conn).setAttempt i { a with pc := .finished })
        else none
      | _ => none
    | none => none
  | .enter =>
    if s.pc = .entered then
      match ordered with
      | [] => some { s with pc := .returned none (some .dialFailed) }
      | addr :: _ => some { s with pc := .popped addr }
    else none
  | .checkCtx =>
    match s.pc with
    | .popped addr =>
      match s.ctxErr with
      | some err => some (s.ret none (some (.net err)))
      | none => some { s with pc := .starting addr }
    | _ => none
  | .start =>
    match s.pc with
    | .starting addr =>
      some { s with
        attempts := s.attempts ++ [{ addr := addr, startedAt := s.now, pc := .dialing }]
        starts := s.starts ++ [(addr, s.now)]
        pc := .stamping }
    | _ => none
  | .stamp =>
    match s.pc with
    | .stamping =>
      some ({ s with
        lastStart := s.now
        next := s.next + 1
        pending := s.pending + 1
        pc := .select }.resetTimer (s.now + tcpFallbackDelay))
    | _ => none
  | .selectCtx =>
    if s.pc = .select then
      match s.ctxErr with
      | some err => some (s.ret none (some (.net err)))
      | none => none
    else none
  | .selectResult i =>
    if s.pc = .select then
      match s.attempts[i]? with
      | some a =>
        match a.pc with
        | .offering (some conn) _ =>
          some ({ s with pending := s.pending - 1, pc := .received conn }.setAttempt i
            { a with pc := .finished })
        | .offering none err =>
          some ((s.setAttempt i { a with pc := .finished }).failed ordered.length err)
        | _ => none
      | none => none
    else none
  | .selectTick =>
    if s.pc = .select ∧ s.tick = true then
      match ordered[s.next]? with
      | some addr => some { s with tick := false, pc := .popped addr }
      | none => some { s with tick := false }
    else none
  | .checkWinner =>
    match s.pc with
    | .received conn =>
      match s.ctxErr with
      | some err => some ((s.close (some conn)).ret none (some (.net err)))
      | none => some (s.ret (some conn) none)
    | _ => none

end Static

/-! ## What the outside does -/

/-- What happens around the two dialers and is not theirs to decide: the time that passes, the end
of the caller's context, and the outcomes of the dials. -/
inductive Env where
  | elapse (d : ℕ)
  | cancel (err : NetError)
  | dialDone (i : ℕ) (conn : Bool) (err : Option NetError)
  deriving DecidableEq, Repr

/-- The part of the outside in a run of `dialTCPIncremental`. -/
def Event.env : Event → Option Env
  | .elapse d => some (.elapse d)
  | .cancel err => some (.cancel err)
  | .dialDone i conn err => some (.dialDone i conn err)
  | _ => none

/-- The part of the outside in a run of `dialTCPAddresses`. -/
def Static.Event.env : Static.Event → Option Env
  | .elapse d => some (.elapse d)
  | .cancel err => some (.cancel err)
  | .dialDone i conn err => some (.dialDone i conn err)
  | _ => none

/-- The addresses that a run of `dialTCPIncremental` started to dial, with the time. -/
def State.starts (s : State) : List (GoString × ℕ) :=
  s.trace.filterMap fun o => match o with
    | .start addr time => some (addr, time)
    | .failure _ => none

end Dial
end ForwardProxy
