import ForwardProxy.Core.Transition
import ForwardProxy.Dial.Feed

/-!
# The dial race: `dialTCPIncremental` as a transition system

`dialTCPIncremental` runs as several goroutines: the two family lookups, the closer that
waits for both, one goroutine for every dial attempt, and the scheduler, which is the
function itself.  They share the feed (under its mutex), the one-slot channel `wake`, the
unbuffered channel `results`, a timer and a context.  The state here has one field for each
of these, and a program counter for each goroutine.

A label (`Event`) is one atomic action of one party: a critical section of the feed, a
channel operation, a read of the context, a stretch of code that touches only the
goroutine's own variables, or something the environment does.  Whatever the environment
decides is an argument of the label: what a lookup answers, what a dial returns, what the
attempt's own context says, when the clock moves, whether resetting the timer leaves an
earlier tick in its channel.  So every interleaving is a run, and a property of every
reachable state is a property of every order of completions.

Three readings of the source are worth saying aloud.

* A lookup is *in flight* from the moment `dialTCPIncremental` is entered, and an attempt is
  *dialing* from the moment `start` hands it its address: what the runtime takes to schedule
  a new goroutine is part of the time the lookup or the dial takes.
* Reading the clock and setting the timer happen at one instant within a stretch of the
  scheduler's own code, as in `timer.Reset(max(0, time.Until(nextReadyAt)))`.
* The context of an attempt ends with `ctx` or, `tcpAttemptTimeout` after the attempt was
  started, by itself; it may also be read just before the end of `ctx` has reached it.

`Move` lists what each label does, guards included, and `move_of_step` is the inversion of
the step function.  All invariants of the race are proved from `Move`.
-/

namespace ForwardProxy
namespace Dial

open ForwardProxy.Core Acl

/-! ## Constants -/

/-- `tcpFallbackDelay`, in nanoseconds. -/
def tcpFallbackDelay : ℕ := 250000000

/-- `tcpMinimumDelay`, in nanoseconds. -/
def tcpMinimumDelay : ℕ := 100000000

/-- `tcpAttemptTimeout`, in nanoseconds. -/
def tcpAttemptTimeout : ℕ := 5000000000

/-! ## State -/

/-- Where a family lookup stands: inside `lookup`, between its return and the critical
section, between the critical section and the pulse (with `added`), or past `wg.Done`. -/
inductive ResolverPc where
  | looking
  | answered
  | admitted (added : Bool)
  | done
  deriving DecidableEq, Repr

/-- A family lookup, and what it has answered. -/
structure Resolver where
  pc : ResolverPc := .looking
  answer : Option Answer := none

/-- Where the closer stands: at `wg.Wait`, between setting `closed` and the pulse, or at its
end. -/
inductive CloserPc where
  | waiting
  | closed
  | done
  deriving DecidableEq, Repr

/-- Where an attempt stands: inside `h.dialContext`, past its return, at the handoff with what
it will offer, or at its end.  Connections are numbered in the order `h.dialContext` produces
them. -/
inductive AttemptPc where
  | dialing
  | dialed (conn : Option ℕ) (err : Option RaceError)
  | offering (conn : Option ℕ) (err : Option RaceError)
  | finished
  deriving DecidableEq, Repr

/-- The goroutine of one attempt. -/
structure Attempt where
  addr : GoString
  startedAt : ℕ
  pc : AttemptPc
  deriving DecidableEq, Repr

/-- Where the scheduler stands. -/
inductive SchedPc where
  /-- At the head of the loop. -/
  | top
  /-- `due` is computed; about to call `feed.advance`. -/
  | advancing (due : Bool)
  /-- A candidate is taken; about to read `ctx.Err()`. -/
  | popped (addr : GoString)
  /-- The context was not done; about to call `start`. -/
  | starting (addr : GoString)
  /-- The attempt runs; about to note the time and set the window. -/
  | stamping (addr : GoString)
  /-- Blocked in `select`. -/
  | select
  /-- A connection was received; about to read `ctx.Err()`. -/
  | received (conn : ℕ)
  | returned (conn : Option ℕ) (err : Option RaceError)
  deriving DecidableEq, Repr

/-- What the scheduler has done that others can see, with the time: it handed an address to
an attempt, or it received a failed result. -/
inductive Obs where
  | start (addr : GoString) (time : ℕ)
  | failure (time : ℕ)
  deriving DecidableEq, Repr

/-- The state of the race. -/
structure State where
  now : ℕ := 0
  /-- When the timer is armed, the time it will fire. -/
  timer : Option ℕ := none
  /-- A tick lies in the channel of the timer. -/
  tick : Bool := false
  /-- `ctx.Err()`. -/
  ctxErr : Option NetError := none
  feed : Feed := {}
  /-- The two lookups, by `isV6`. -/
  resolver : Bool → Resolver := fun _ => {}
  closer : CloserPc := .waiting
  attempts : List Attempt := []
  /-- How many connections `h.dialContext` has produced. -/
  produced : ℕ := 0
  /-- The connections that were closed, once for every call of `Close`. -/
  closes : List ℕ := []
  sched : SchedPc := .top
  started : ℕ := 0
  pending : ℕ := 0
  lastStart : ℕ := 0
  lastFamily : UInt8 := 0
  lastErr : Option RaceError := none
  /-- `none` is the zero time. -/
  nextReadyAt : Option ℕ := none
  trace : List Obs := []

/-- The state in which `dialTCPIncremental` enters its loop. -/
def init (now : ℕ) : State := { now := now }

/-! ## Labels and steps -/

/-- One atomic action of one party. -/
inductive Event where
  /-- Time passes. -/
  | elapse (d : ℕ)
  /-- The timer fires. -/
  | fire
  /-- The caller's context ends: cancellation or the total deadline. -/
  | cancel (err : NetError)
  | lookupDone (isV6 : Bool) (answer : Answer)
  | resolve (isV6 : Bool)
  /-- A lookup pulses if it added something, and is done. -/
  | pulse (isV6 : Bool)
  | closeFeed
  | closePulse
  | dialDone (i : ℕ) (conn : Bool) (err : Option NetError)
  /-- An attempt reads its context and settles what it will offer. -/
  | settle (i : ℕ) (attemptErr : Option NetError)
  /-- An attempt takes the `ctx.Done()` branch of its `select`. -/
  | giveUp (i : ℕ)
  | computeDue
  | advance
  | checkCtx
  | start
  | stamp (keepTick : Bool)
  | selectCtx
  | selectResult (i : ℕ) (keepTick : Bool)
  | selectWake
  | selectTick
  | checkWinner

/-- `familyByte`. -/
def familyByte (address : GoString) : UInt8 :=
  match splitHostPort address with
  | .error _ => 0
  | .ok (ipHost, _) =>
    match parseIP ipHost with
    | some ip => if ip.to4.isSome then 4 else 6
    | none => 6

namespace State

/-- `due`. -/
def due (s : State) : Bool :=
  match s.nextReadyAt with
  | none => true
  | some t => !(s.now < t)

/-- `return conn, err`, with the deferred `cancel`. -/
def ret (s : State) (conn : Option ℕ) (err : Option RaceError) : State :=
  { s with sched := .returned conn err, ctxErr := s.ctxErr.or (some .canceled) }

/-- `timer.Reset`. -/
def resetTimer (s : State) (at' : ℕ) (keepTick : Bool) : State :=
  { s with timer := some at', tick := s.tick && keepTick }

def setResolver (s : State) (isV6 : Bool) (r : Resolver) : State :=
  { s with resolver := Function.update s.resolver isV6 r }

def setAttempt (s : State) (i : ℕ) (a : Attempt) : State :=
  { s with attempts := s.attempts.set i a }

/-- `conn.Close()`, if there is a connection. -/
def close (s : State) (conn : Option ℕ) : State :=
  { s with closes := s.closes ++ conn.toList }

end State

/-- What `attemptCtx.Err()` may say. -/
def attemptErrOk (now : ℕ) (ctxErr : Option NetError) (a : Attempt) : Option NetError → Prop
  | none => True
  | some e => ctxErr = some e ∨ (e = .deadlineExceeded ∧ a.startedAt + tcpAttemptTimeout ≤ now)

instance (now : ℕ) (ctxErr : Option NetError) (a : Attempt) :
    ∀ e, Decidable (attemptErrOk now ctxErr a e)
  | none => isTrue trivial
  | some _ => inferInstanceAs (Decidable (_ ∨ _))

/-- What an attempt offers, from what its dial returned and what its context says: a
connection, or an error. -/
def offer (conn : Option ℕ) (err : Option RaceError) (attemptErr : Option NetError) :
    Option ℕ × Option RaceError :=
  let err := match attemptErr with
    | some e => some (.net e)
    | none => err
  match conn, err with
  | some _, some e => (none, some e)
  | none, none => (none, some .dialFailed)
  | conn, err => (conn, err)

/-- The connection that an attempt closes because its context has ended or its dial failed. -/
def discarded (conn : Option ℕ) (err : Option RaceError) (attemptErr : Option NetError) :
    Option ℕ :=
  if (attemptErr.isSome || err.isSome) then conn else none

/-- The failure branch of the scheduler's `select`: the window shrinks to the minimum
spacing, and the timer follows it. -/
def shrinkWindow (s : State) (keepTick : Bool) : State :=
  let ready := s.lastStart + tcpMinimumDelay
  match s.nextReadyAt with
  | none => s
  | some t =>
    if ready < t then
      ({ s with nextReadyAt := some ready } : State).resetTimer (max s.now ready) keepTick
    else s

/-- Shrinking the window touches the window and the timer only. -/
theorem shrinkWindow_eq (s : State) (keepTick : Bool) :
    ∃ window timer tick, shrinkWindow s keepTick =
      { s with nextReadyAt := window, timer := timer, tick := tick } := by
  simp only [shrinkWindow]
  split
  · exact ⟨s.nextReadyAt, s.timer, s.tick, rfl⟩
  · split_ifs
    · exact ⟨_, _, _, rfl⟩
    · exact ⟨s.nextReadyAt, s.timer, s.tick, rfl⟩

section ShrinkWindow

variable (s : State) (keepTick : Bool)

@[simp] theorem shrinkWindow_now : (shrinkWindow s keepTick).now = s.now := by
  obtain ⟨_, _, _, h⟩ := shrinkWindow_eq s keepTick
  rw [h]

@[simp] theorem shrinkWindow_ctxErr : (shrinkWindow s keepTick).ctxErr = s.ctxErr := by
  obtain ⟨_, _, _, h⟩ := shrinkWindow_eq s keepTick
  rw [h]

@[simp] theorem shrinkWindow_feed : (shrinkWindow s keepTick).feed = s.feed := by
  obtain ⟨_, _, _, h⟩ := shrinkWindow_eq s keepTick
  rw [h]

@[simp] theorem shrinkWindow_resolver : (shrinkWindow s keepTick).resolver = s.resolver := by
  obtain ⟨_, _, _, h⟩ := shrinkWindow_eq s keepTick
  rw [h]

@[simp] theorem shrinkWindow_closer : (shrinkWindow s keepTick).closer = s.closer := by
  obtain ⟨_, _, _, h⟩ := shrinkWindow_eq s keepTick
  rw [h]

@[simp] theorem shrinkWindow_attempts : (shrinkWindow s keepTick).attempts = s.attempts := by
  obtain ⟨_, _, _, h⟩ := shrinkWindow_eq s keepTick
  rw [h]

@[simp] theorem shrinkWindow_produced : (shrinkWindow s keepTick).produced = s.produced := by
  obtain ⟨_, _, _, h⟩ := shrinkWindow_eq s keepTick
  rw [h]

@[simp] theorem shrinkWindow_closes : (shrinkWindow s keepTick).closes = s.closes := by
  obtain ⟨_, _, _, h⟩ := shrinkWindow_eq s keepTick
  rw [h]

@[simp] theorem shrinkWindow_sched : (shrinkWindow s keepTick).sched = s.sched := by
  obtain ⟨_, _, _, h⟩ := shrinkWindow_eq s keepTick
  rw [h]

@[simp] theorem shrinkWindow_pending : (shrinkWindow s keepTick).pending = s.pending := by
  obtain ⟨_, _, _, h⟩ := shrinkWindow_eq s keepTick
  rw [h]

@[simp] theorem shrinkWindow_trace : (shrinkWindow s keepTick).trace = s.trace := by
  obtain ⟨_, _, _, h⟩ := shrinkWindow_eq s keepTick
  rw [h]

end ShrinkWindow

/-- One step.  `none` means that the label is not enabled. -/
def step (c : Config) (s : State) : Event → Option State
  | .elapse d => some { s with now := s.now + d }
  | .fire =>
    match s.timer with
    | some t => if t ≤ s.now then some { s with timer := none, tick := true } else none
    | none => none
  | .cancel err =>
    if s.ctxErr = none ∧ (err = .canceled ∨ err = .deadlineExceeded) then
      some { s with ctxErr := some err }
    else none
  | .lookupDone isV6 answer =>
    if (s.resolver isV6).pc = .looking then
      some (s.setResolver isV6 { pc := .answered, answer := some answer })
    else none
  | .resolve isV6 =>
    match s.resolver isV6 with
    | { pc := .answered, answer := some answer } =>
      let (feed, added) := s.feed.resolve c isV6 answer
      some ({ s with feed := feed }.setResolver isV6
        { pc := .admitted added, answer := some answer })
    | _ => none
  | .pulse isV6 =>
    match s.resolver isV6 with
    | { pc := .admitted added, answer := answer } =>
      some ({ s with feed := if added then s.feed.pulse else s.feed }.setResolver isV6
        { pc := .done, answer := answer })
    | _ => none
  | .closeFeed =>
    if s.closer = .waiting ∧ (s.resolver false).pc = .done ∧ (s.resolver true).pc = .done then
      some { s with feed := { s.feed with closed := true }, closer := .closed }
    else none
  | .closePulse =>
    if s.closer = .closed then some { s with feed := s.feed.pulse, closer := .done } else none
  | .dialDone i conn err =>
    match s.attempts[i]? with
    | some a =>
      if a.pc = .dialing then
        some { s with
          produced := s.produced + conn.toNat
          attempts := s.attempts.set i { a with
            pc := .dialed (if conn then some s.produced else none) (err.map .net) } }
      else none
    | none => none
  | .settle i attemptErr =>
    match s.attempts[i]? with
    | some a =>
      match a.pc with
      | .dialed conn err =>
        if attemptErrOk s.now s.ctxErr a attemptErr then
          some ((s.close (discarded conn err attemptErr)).setAttempt i { a with
            pc := .offering (offer conn err attemptErr).1 (offer conn err attemptErr).2 })
        else none
      | _ => none
    | none => none
  | .giveUp i =>
    match s.attempts[i]? with
    | some a =>
      match a.pc with
      | .offering conn _ =>
        if s.ctxErr ≠ none then some ((s.close conn).setAttempt i { a with pc := .finished })
        else none
      | _ => none
    | none => none
  | .computeDue => if s.sched = .top then some { s with sched := .advancing s.due } else none
  | .advance =>
    match s.sched with
    | .advancing due =>
      match s.feed.advance due s.lastFamily with
      | ((addr, closed, empty), feed) =>
        if addr ≠ [] then some { s with feed := feed, sched := .popped addr }
        else if closed && empty && s.pending == 0 then
          some ({ s with feed := feed }.ret none (some (feed.finalError s.started s.lastErr)))
        else some { s with feed := feed, sched := .select }
    | _ => none
  | .checkCtx =>
    match s.sched with
    | .popped addr =>
      match s.ctxErr with
      | some err => some (s.ret none (some (.net err)))
      | none => some { s with sched := .starting addr }
    | _ => none
  | .start =>
    match s.sched with
    | .starting addr =>
      some { s with
        attempts := s.attempts ++ [{ addr := addr, startedAt := s.now, pc := .dialing }]
        trace := s.trace ++ [.start addr s.now]
        started := s.started + 1
        pending := s.pending + 1
        sched := .stamping addr }
    | _ => none
  | .stamp keepTick =>
    match s.sched with
    | .stamping addr =>
      some ({ s with
        lastStart := s.now
        lastFamily := familyByte addr
        nextReadyAt := some (s.now + tcpFallbackDelay)
        sched := .top }.resetTimer (s.now + tcpFallbackDelay) keepTick)
    | _ => none
  | .selectCtx =>
    if s.sched = .select then
      match s.ctxErr with
      | some err => some (s.ret none (some (.net err)))
      | none => none
    else none
  | .selectResult i keepTick =>
    if s.sched = .select then
      match s.attempts[i]? with
      | some a =>
        match a.pc with
        | .offering (some conn) _ =>
          some ({ s with pending := s.pending - 1, sched := .received conn }.setAttempt i
            { a with pc := .finished })
        | .offering none err =>
          some (shrinkWindow ({ s with
            pending := s.pending - 1
            lastErr := err
            trace := s.trace ++ [Obs.failure s.now]
            sched := .top }.setAttempt i { a with pc := .finished }) keepTick)
        | _ => none
      | none => none
    else none
  | .selectWake =>
    if s.sched = .select ∧ s.feed.wake = true then
      some { s with feed := { s.feed with wake := false }, sched := .top }
    else none
  | .selectTick =>
    if s.sched = .select ∧ s.tick = true then some { s with tick := false, sched := .top } else none
  | .checkWinner =>
    match s.sched with
    | .received conn =>
      match s.ctxErr with
      | some err => some ((s.close (some conn)).ret none (some (.net err)))
      | none => some (s.ret (some conn) none)
    | _ => none

/-! ## What each step does -/

/-- The moves of the race: every label with its guard and its effect. -/
inductive Move (c : Config) (s : State) : Event → State → Prop where
  | elapse (d : ℕ) : Move c s (.elapse d) { s with now := s.now + d }
  | fire (t : ℕ) (ht : s.timer = some t) (hle : t ≤ s.now) :
      Move c s .fire { s with timer := none, tick := true }
  | cancel (err : NetError) (hctx : s.ctxErr = none)
      (herr : err = .canceled ∨ err = .deadlineExceeded) :
      Move c s (.cancel err) { s with ctxErr := some err }
  | lookupDone (isV6 : Bool) (answer : Answer) (hpc : (s.resolver isV6).pc = .looking) :
      Move c s (.lookupDone isV6 answer)
        (s.setResolver isV6 { pc := .answered, answer := some answer })
  | resolve (isV6 : Bool) (answer : Answer)
      (hpc : s.resolver isV6 = { pc := .answered, answer := some answer }) :
      Move c s (.resolve isV6)
        ({ s with feed := (s.feed.resolve c isV6 answer).1 }.setResolver isV6
          { pc := .admitted (s.feed.resolve c isV6 answer).2, answer := some answer })
  | pulse (isV6 added : Bool) (answer : Option Answer)
      (hpc : s.resolver isV6 = { pc := .admitted added, answer := answer }) :
      Move c s (.pulse isV6)
        ({ s with feed := if added then s.feed.pulse else s.feed }.setResolver isV6
          { pc := .done, answer := answer })
  | closeFeed (hcloser : s.closer = .waiting) (h4 : (s.resolver false).pc = .done)
      (h6 : (s.resolver true).pc = .done) :
      Move c s .closeFeed { s with feed := { s.feed with closed := true }, closer := .closed }
  | closePulse (hcloser : s.closer = .closed) :
      Move c s .closePulse { s with feed := s.feed.pulse, closer := .done }
  | dialDone (i : ℕ) (a : Attempt) (conn : Bool) (err : Option NetError)
      (ha : s.attempts[i]? = some a) (hpc : a.pc = .dialing) :
      Move c s (.dialDone i conn err) { s with
        produced := s.produced + conn.toNat
        attempts := s.attempts.set i { a with
          pc := .dialed (if conn then some s.produced else none) (err.map .net) } }
  | settle (i : ℕ) (a : Attempt) (conn : Option ℕ) (err : Option RaceError)
      (attemptErr : Option NetError) (ha : s.attempts[i]? = some a) (hpc : a.pc = .dialed conn err)
      (hok : attemptErrOk s.now s.ctxErr a attemptErr) :
      Move c s (.settle i attemptErr)
        ((s.close (discarded conn err attemptErr)).setAttempt i { a with
          pc := .offering (offer conn err attemptErr).1 (offer conn err attemptErr).2 })
  | giveUp (i : ℕ) (a : Attempt) (conn : Option ℕ) (err : Option RaceError)
      (ha : s.attempts[i]? = some a) (hpc : a.pc = .offering conn err) (hctx : s.ctxErr ≠ none) :
      Move c s (.giveUp i) ((s.close conn).setAttempt i { a with pc := .finished })
  | computeDue (hsched : s.sched = .top) :
      Move c s .computeDue { s with sched := .advancing s.due }
  | advancePop (isV6 : Bool) (addr : GoString) (rest : List GoString)
      (hsched : s.sched = .advancing true) (hq : s.feed.queue isV6 = addr :: rest)
      (haddr : addr ≠ []) :
      Move c s .advance { s with feed := s.feed.setQueue isV6 rest, sched := .popped addr }
  | advanceBlank (isV6 : Bool) (rest : List GoString) (hsched : s.sched = .advancing true)
      (hq : s.feed.queue isV6 = [] :: rest) :
      Move c s .advance { s with feed := s.feed.setQueue isV6 rest, sched := .select }
  | advanceEnd (due : Bool) (hsched : s.sched = .advancing due) (hclosed : s.feed.closed = true)
      (hempty : s.feed.isEmpty = true) (hpending : s.pending = 0) :
      Move c s .advance (s.ret none (some (s.feed.finalError s.started s.lastErr)))
  | advanceBlock (due : Bool) (hsched : s.sched = .advancing due)
      (hdue : due = false ∨ s.feed.isEmpty = true)
      (hgo : ¬ (s.feed.closed = true ∧ s.feed.isEmpty = true ∧ s.pending = 0)) :
      Move c s .advance { s with sched := .select }
  | checkCtxDone (addr : GoString) (err : NetError) (hsched : s.sched = .popped addr)
      (hctx : s.ctxErr = some err) : Move c s .checkCtx (s.ret none (some (.net err)))
  | checkCtx (addr : GoString) (hsched : s.sched = .popped addr) (hctx : s.ctxErr = none) :
      Move c s .checkCtx { s with sched := .starting addr }
  | start (addr : GoString) (hsched : s.sched = .starting addr) :
      Move c s .start { s with
        attempts := s.attempts ++ [{ addr := addr, startedAt := s.now, pc := .dialing }]
        trace := s.trace ++ [.start addr s.now]
        started := s.started + 1
        pending := s.pending + 1
        sched := .stamping addr }
  | stamp (addr : GoString) (keepTick : Bool) (hsched : s.sched = .stamping addr) :
      Move c s (.stamp keepTick) ({ s with
        lastStart := s.now
        lastFamily := familyByte addr
        nextReadyAt := some (s.now + tcpFallbackDelay)
        sched := .top }.resetTimer (s.now + tcpFallbackDelay) keepTick)
  | selectCtx (err : NetError) (hsched : s.sched = .select) (hctx : s.ctxErr = some err) :
      Move c s .selectCtx (s.ret none (some (.net err)))
  | selectConn (i : ℕ) (a : Attempt) (conn : ℕ) (err : Option RaceError) (keepTick : Bool)
      (hsched : s.sched = .select) (ha : s.attempts[i]? = some a)
      (hpc : a.pc = .offering (some conn) err) :
      Move c s (.selectResult i keepTick)
        ({ s with pending := s.pending - 1, sched := .received conn }.setAttempt i
          { a with pc := .finished })
  | selectFailure (i : ℕ) (a : Attempt) (err : Option RaceError) (keepTick : Bool)
      (hsched : s.sched = .select) (ha : s.attempts[i]? = some a)
      (hpc : a.pc = .offering none err) :
      Move c s (.selectResult i keepTick)
        (shrinkWindow ({ s with
          pending := s.pending - 1
          lastErr := err
          trace := s.trace ++ [Obs.failure s.now]
          sched := .top }.setAttempt i { a with pc := .finished }) keepTick)
  | selectWake (hsched : s.sched = .select) (hwake : s.feed.wake = true) :
      Move c s .selectWake { s with feed := { s.feed with wake := false }, sched := .top }
  | selectTick (hsched : s.sched = .select) (htick : s.tick = true) :
      Move c s .selectTick { s with tick := false, sched := .top }
  | discardWinner (conn : ℕ) (err : NetError) (hsched : s.sched = .received conn)
      (hctx : s.ctxErr = some err) :
      Move c s .checkWinner ((s.close (some conn)).ret none (some (.net err)))
  | returnWinner (conn : ℕ) (hsched : s.sched = .received conn) (hctx : s.ctxErr = none) :
      Move c s .checkWinner (s.ret (some conn) none)

/-- The step of `feed.advance`. -/
theorem move_of_advance {c : Config} {s s' : State} (h : step c s .advance = some s') :
    Move c s .advance s' := by
  simp only [step] at h
  split at h
  · rename_i due hsched
    rcases s.feed.advance_cases due s.lastFamily with
      ⟨isV6, addr, rest, rfl, hq, heq⟩ | ⟨hdue, heq⟩
    · rw [heq] at h
      simp only [Bool.and_false, Bool.false_and, Bool.false_eq_true, if_false] at h
      split_ifs at h with haddr
      · rw [← Option.some_inj.mp h]
        exact .advancePop isV6 addr rest hsched hq haddr
      · rw [← Option.some_inj.mp h]
        rw [not_not] at haddr
        exact .advanceBlank isV6 rest hsched (haddr ▸ hq)
    · rw [heq] at h
      simp only [ne_eq, not_true_eq_false, if_false, Bool.and_eq_true, beq_iff_eq] at h
      split_ifs at h with hend
      · rw [← Option.some_inj.mp h]
        exact .advanceEnd due hsched hend.1.1 hend.1.2 hend.2
      · rw [← Option.some_inj.mp h]
        exact .advanceBlock due hsched hdue fun hall => hend ⟨⟨hall.1, hall.2.1⟩, hall.2.2⟩
  · exact absurd h (by simp)

/-- **The inversion of the step function.** -/
theorem move_of_step {c : Config} {s s' : State} {e : Event} (h : step c s e = some s') :
    Move c s e s' := by
  cases e with
  | elapse d =>
    rw [← Option.some_inj.mp h]
    exact .elapse d
  | fire =>
    simp only [step] at h
    split at h
    · rename_i t ht
      split_ifs at h with hle
      rw [← Option.some_inj.mp h]
      exact .fire t ht hle
    · exact absurd h (by simp)
  | cancel err =>
    obtain ⟨hg, ⟨⟩⟩ := Option.ite_none_right_eq_some.mp h
    exact .cancel err hg.1 hg.2
  | lookupDone isV6 answer =>
    obtain ⟨hg, ⟨⟩⟩ := Option.ite_none_right_eq_some.mp h
    exact .lookupDone isV6 answer hg
  | resolve isV6 =>
    simp only [step] at h
    split at h
    · rename_i answer hpc
      rw [← Option.some_inj.mp h]
      exact .resolve isV6 answer hpc
    · exact absurd h (by simp)
  | pulse isV6 =>
    simp only [step] at h
    split at h
    · rename_i added answer hpc
      rw [← Option.some_inj.mp h]
      exact .pulse isV6 added answer hpc
    · exact absurd h (by simp)
  | closeFeed =>
    obtain ⟨hg, ⟨⟩⟩ := Option.ite_none_right_eq_some.mp h
    exact .closeFeed hg.1 hg.2.1 hg.2.2
  | closePulse =>
    obtain ⟨hg, ⟨⟩⟩ := Option.ite_none_right_eq_some.mp h
    exact .closePulse hg
  | dialDone i conn err =>
    simp only [step] at h
    split at h
    · rename_i a ha
      by_cases hpc : a.pc = .dialing
      · rw [if_pos hpc] at h
        rw [← Option.some_inj.mp h]
        exact .dialDone i a conn err ha hpc
      · rw [if_neg hpc] at h
        exact absurd h (by simp)
    · exact absurd h (by simp)
  | settle i attemptErr =>
    simp only [step] at h
    split at h
    · rename_i a ha
      split at h
      · rename_i conn err hpc
        split_ifs at h with hok
        rw [← Option.some_inj.mp h]
        exact .settle i a conn err attemptErr ha hpc hok
      · exact absurd h (by simp)
    · exact absurd h (by simp)
  | giveUp i =>
    simp only [step] at h
    split at h
    · rename_i a ha
      split at h
      · rename_i conn err hpc
        split_ifs at h with hctx
        rw [← Option.some_inj.mp h]
        exact .giveUp i a conn err ha hpc hctx
      · exact absurd h (by simp)
    · exact absurd h (by simp)
  | computeDue =>
    obtain ⟨hg, ⟨⟩⟩ := Option.ite_none_right_eq_some.mp h
    exact .computeDue hg
  | advance => exact move_of_advance h
  | checkCtx =>
    simp only [step] at h
    split at h
    · rename_i addr hsched
      split at h
      · rename_i err hctx
        rw [← Option.some_inj.mp h]
        exact .checkCtxDone addr err hsched hctx
      · rename_i hctx
        rw [← Option.some_inj.mp h]
        exact .checkCtx addr hsched hctx
    · exact absurd h (by simp)
  | start =>
    simp only [step] at h
    split at h
    · rename_i addr hsched
      rw [← Option.some_inj.mp h]
      exact .start addr hsched
    · exact absurd h (by simp)
  | stamp keepTick =>
    simp only [step] at h
    split at h
    · rename_i addr hsched
      rw [← Option.some_inj.mp h]
      exact .stamp addr keepTick hsched
    · exact absurd h (by simp)
  | selectCtx =>
    simp only [step] at h
    split_ifs at h with hsched
    split at h
    · rename_i err hctx
      rw [← Option.some_inj.mp h]
      exact .selectCtx err hsched hctx
    · exact absurd h (by simp)
  | selectResult i keepTick =>
    simp only [step] at h
    split_ifs at h with hsched
    split at h
    · rename_i a ha
      split at h
      · rename_i conn err hpc
        rw [← Option.some_inj.mp h]
        exact .selectConn i a conn err keepTick hsched ha hpc
      · rename_i err hpc
        rw [← Option.some_inj.mp h]
        exact .selectFailure i a err keepTick hsched ha hpc
      · exact absurd h (by simp)
    · exact absurd h (by simp)
  | selectWake =>
    obtain ⟨hg, ⟨⟩⟩ := Option.ite_none_right_eq_some.mp h
    exact .selectWake hg.1 hg.2
  | selectTick =>
    obtain ⟨hg, ⟨⟩⟩ := Option.ite_none_right_eq_some.mp h
    exact .selectTick hg.1 hg.2
  | checkWinner =>
    simp only [step] at h
    split at h
    · rename_i conn hsched
      split at h
      · rename_i err hctx
        rw [← Option.some_inj.mp h]
        exact .discardWinner conn err hsched hctx
      · rename_i hctx
        rw [← Option.some_inj.mp h]
        exact .returnWinner conn hsched hctx
    · exact absurd h (by simp)

/-- The states some run of the race reaches, from any starting time. -/
def Reaches (c : Config) (s : State) : Prop := ∃ now, Reachable (step c) (init now) s

/-- **The invariant rule of the race.**  What holds at the start and is kept by every move
holds in every state a run reaches. -/
theorem Reaches.induction_on_move {c : Config} {P : State → Prop} {s : State} (h : Reaches c s)
    (hinit : ∀ now, P (init now)) (hmove : ∀ s e s', P s → Move c s e s' → P s') : P s := by
  obtain ⟨now, hr⟩ := h
  exact hr.induction_on_step (hinit now) fun s e s' hp hs => hmove s e s' hp (move_of_step hs)

/-- The rule relative to an invariant that is already known. -/
theorem Reaches.invariant_of_invariant {c : Config} {P Q : State → Prop} {s : State}
    (h : Reaches c s) (hQ : ∀ s, Reaches c s → Q s) (hinit : ∀ now, P (init now))
    (hmove : ∀ s e s', Q s → P s → Move c s e s' → P s') : P s := by
  obtain ⟨now, hr⟩ := h
  exact hr.invariant_of_invariant (fun s hs => hQ s ⟨now, hs⟩) (hinit now)
    fun s e s' hq hp hs => hmove s e s' hq hp (move_of_step hs)

/-- Returning is final: whatever the other goroutines do, the result stays. -/
theorem sched_eq_of_returned {c : Config} {s s' : State} {e : Event} {conn : Option ℕ}
    {err : Option RaceError} (hret : s.sched = .returned conn err) (hm : Move c s e s') :
    s'.sched = .returned conn err := by
  cases hm with
  | elapse | fire | cancel | lookupDone | resolve | pulse | closeFeed | closePulse | dialDone
  | settle | giveUp => exact hret
  | _ => simp_all

/-- **The rule for the lookups.**  What holds of a lookup that has begun and of one whose answer has
just come in, and is kept as the lookup goes on with its answer and as the run goes on, holds of
every lookup. -/
theorem forall_lookups {c : Config} {now : ℕ} {es : List Event} {s : State}
    {Q : List Event → Bool → Resolver → Prop} (hrun : runFrom (step c) (init now) es = some s)
    (hinit : ∀ isV6, Q [] isV6 {})
    (hmono : ∀ es e isV6 r, Q es isV6 r → Q (es ++ [e]) isV6 r)
    (hanswer : ∀ es isV6 answer, Q (es ++ [.lookupDone isV6 answer]) isV6 ⟨.answered, some answer⟩)
    (hnext : ∀ es isV6 pc pc' answer, pc ≠ .looking → Q es isV6 ⟨pc, answer⟩ →
      Q es isV6 ⟨pc', answer⟩) : ∀ isV6, Q es isV6 (s.resolver isV6) := by
  refine runFrom_history (P := fun es s => ∀ isV6, Q es isV6 (s.resolver isV6)) hinit ?_ hrun
  intro es s e s' _ ih hstep
  have hold (isV6 : Bool) : Q (es ++ [e]) isV6 (s.resolver isV6) := hmono es e isV6 _ (ih isV6)
  -- replacing one lookup
  have update (b : Bool) (r : Resolver) (hr : Q (es ++ [e]) b r) (isV6 : Bool) :
      Q (es ++ [e]) isV6 (Function.update s.resolver b r isV6) := by
    by_cases hb : isV6 = b
    · rw [hb, Function.update_self]
      exact hr
    · rw [Function.update_of_ne hb]
      exact hold isV6
  cases move_of_step hstep with
  | lookupDone b answer hpc => exact update b _ (hanswer es b answer)
  | resolve b answer hpc =>
    exact update b _ (hnext _ b _ _ _ ResolverPc.noConfusion (hpc ▸ hold b))
  | pulse b added answer hpc =>
    exact update b _ (hnext _ b _ _ _ ResolverPc.noConfusion (hpc ▸ hold b))
  | selectFailure =>
    rw [shrinkWindow_resolver]
    exact hold
  | _ => exact hold

/-- **The three ways to return.**  The scheduler finds nothing left and returns what the feed makes
of that, it finds its context done and returns the error of the context, or it returns a
connection. -/
theorem return_cases {c : Config} {s s' : State} {e : Event} {conn : Option ℕ}
    {err : Option RaceError} (hnot : ∀ conn err, s.sched ≠ .returned conn err)
    (hm : Move c s e s') (hret : s'.sched = .returned conn err) :
    (e = .advance ∧ conn = none ∧ err = some (s.feed.finalError s.started s.lastErr) ∧
      s.feed.closed = true ∧ s.feed.isEmpty = true ∧ s.pending = 0 ∧
      ∃ due, s.sched = .advancing due) ∨
    (e ≠ .advance ∧ conn = none ∧ ∃ x, s.ctxErr = some x ∧ err = some (.net x)) ∨
    (∃ k, s.sched = .received k ∧ conn = some k ∧ err = none) := by
  cases hm with
  | elapse | fire | cancel | lookupDone | resolve | pulse | closeFeed | closePulse | dialDone
  | settle | giveUp => exact absurd hret (hnot conn err)
  | advanceEnd due hsched hclosed hempty hpending =>
    obtain ⟨rfl, rfl⟩ := SchedPc.returned.inj hret
    exact Or.inl ⟨rfl, rfl, rfl, hclosed, hempty, hpending, due, hsched⟩
  | checkCtxDone _ x _ hdone | selectCtx x _ hdone | discardWinner _ x _ hdone =>
    obtain ⟨rfl, rfl⟩ := SchedPc.returned.inj hret
    exact Or.inr (Or.inl ⟨nofun, rfl, x, hdone, rfl⟩)
  | returnWinner k hsched =>
    obtain ⟨rfl, rfl⟩ := SchedPc.returned.inj hret
    exact Or.inr (Or.inr ⟨k, hsched, rfl, rfl⟩)
  | selectFailure => exact absurd hret (by simp [State.setAttempt])
  | _ => exact absurd hret (by simp [State.resetTimer, State.setAttempt])

/-! ## A run

Both families answer.  The IPv6 candidate is dialled first, the IPv4 candidate when the
window has passed; the second attempt wins, and the first one succeeds too late. -/

/-- A handler that allows every address, asked for port 443 of some host. -/
def twoFamilies : Config :=
  { handler := { aclRules := [.all true] }, network := .tcp, host := ascii "target.example",
    port := ascii "443" }

/-- `2001:db8::1`. -/
def exampleV6 : IP := [0x20, 0x01, 0x0d, 0xb8, 0, 0, 0, 0, 0, 0, 0, 0, 0, 0, 0, 1]

/-- `192.0.2.1`. -/
def exampleV4 : IP := [192, 0, 2, 1]

/-- Both lookups answer, the feed is closed, and the IPv6 candidate is dialled. -/
def firstDial : List Event :=
  [.lookupDone false (.ok [some exampleV4]), .resolve false, .pulse false,
    .lookupDone true (.ok [some exampleV6]), .resolve true, .pulse true, .closeFeed, .closePulse,
    .computeDue, .advance, .checkCtx, .start, .stamp false, .computeDue, .advance]

/-- The window passes, and the IPv4 candidate is dialled. -/
def secondDial : List Event :=
  firstDial ++ [.selectWake, .computeDue, .advance, .elapse tcpFallbackDelay, .fire, .selectTick,
    .computeDue, .advance, .checkCtx, .start, .stamp false]

/-- Both dials succeed; the second one is received and returned, the first one is closed. -/
def lateLoser : List Event :=
  secondDial ++ [.dialDone 0 true none, .settle 0 none, .dialDone 1 true none, .settle 1 none,
    .computeDue, .advance, .selectResult 1 false, .checkWinner, .giveUp 0]

/-- The state a list of labels leads to. -/
def stateAfter (c : Config) (es : List Event) : State :=
  (runFrom (step c) (init 0) es).getD (init 0)

theorem runFrom_stateAfter {c : Config} {es : List Event}
    (h : (runFrom (step c) (init 0) es).isSome = true) :
    runFrom (step c) (init 0) es = some (stateAfter c es) := by
  obtain ⟨s, hs⟩ := Option.isSome_iff_exists.mp h
  rw [stateAfter, hs, Option.getD_some]

theorem reaches_stateAfter {c : Config} {es : List Event}
    (h : (runFrom (step c) (init 0) es).isSome = true) : Reaches c (stateAfter c es) :=
  ⟨0, es, runFrom_stateAfter h⟩

end Dial
end ForwardProxy
