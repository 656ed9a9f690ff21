import ForwardProxy.Dial.Race

/-!
# How far apart the dials of the race start

Three variables of the scheduler decide when a dial may start: `lastStart`, `nextReadyAt` and
the timer.  Only the first two matter for how close two starts can be; a tick that comes early
or twice makes the scheduler look again and nothing more.  The invariant (`Windowed`) compares
the window with the trace: as long as nothing was dialled there is no window, and afterwards
the window ends at least `tcpMinimumDelay` after the last start, and at least
`tcpFallbackDelay` after it unless a failed result was received since.

The trace is read through `sinceLast`, which tells for a list of observations when the last
start was and whether a failure came after it.

## Main results

* `start_spacing`: in every run, two consecutive starts are at least `tcpMinimumDelay` apart,
  and less than `tcpFallbackDelay` only with a failed result between them; the first dial
  waits for no window; and no step but a start or a failed result moves the window.
-/

namespace ForwardProxy
namespace Dial

open ForwardProxy.Core Acl

/-! ## Reading a trace -/

/-- Whether an observation is the start of a dial. -/
def Obs.isStart : Obs → Bool
  | .start _ _ => true
  | .failure _ => false

/-- One observation, for `sinceLast`. -/
def Obs.note (last : Option (ℕ × Bool)) : Obs → Option (ℕ × Bool)
  | .start _ time => some (time, false)
  | .failure _ => last.map fun p => (p.1, true)

/-- The time of the last start in a trace, and whether a failure was observed after it. -/
def sinceLast (trace : List Obs) : Option (ℕ × Bool) := trace.foldl Obs.note none

@[simp] theorem sinceLast_append_start (trace : List Obs) (addr : GoString) (time : ℕ) :
    sinceLast (trace ++ [.start addr time]) = some (time, false) := by
  rw [sinceLast, List.foldl_append]
  rfl

@[simp] theorem sinceLast_append_failure (trace : List Obs) (time : ℕ) :
    sinceLast (trace ++ [Obs.failure time]) = (sinceLast trace).map fun p => (p.1, true) := by
  rw [sinceLast, List.foldl_append]
  rfl

/-- Observations without a start only raise the flag. -/
theorem foldl_note_of_no_start {mid : List Obs} (h : ∀ o ∈ mid, o.isStart = false) (t : ℕ)
    (b : Bool) : mid.foldl Obs.note (some (t, b)) = some (t, b || !mid.isEmpty) := by
  induction mid generalizing b with
  | nil => simp
  | cons o mid ih =>
    cases o with
    | start addr time => exact absurd (h _ (List.mem_cons_self ..)) (by simp [Obs.isStart])
    | failure time =>
      rw [List.foldl_cons, Obs.note, Option.map_some,
        ih fun o ho => h o (List.mem_cons_of_mem _ ho)]
      simp

/-- The last start of a trace that ends with a start and observations of other kinds. -/
theorem sinceLast_of_no_start (pre : List Obs) (addr : GoString) (t : ℕ) {mid : List Obs}
    (h : ∀ o ∈ mid, o.isStart = false) :
    sinceLast (pre ++ .start addr t :: mid) = some (t, !mid.isEmpty) := by
  rw [sinceLast, List.foldl_append, List.foldl_cons, Obs.note, foldl_note_of_no_start h,
    Bool.false_or]

/-- A trace without a start has no last one. -/
theorem sinceLast_eq_none {trace : List Obs} (h : ∀ o ∈ trace, o.isStart = false) :
    sinceLast trace = none := by
  induction trace using List.reverseRecOn with
  | nil => rfl
  | append_singleton trace o ih =>
    have htrace := ih fun o ho => h o (List.mem_append_left _ ho)
    cases o with
    | start addr time =>
      have hstart := h (.start addr time) (List.mem_append_right _ (List.mem_singleton_self _))
      exact absurd hstart (by simp [Obs.isStart])
    | failure time => rw [sinceLast_append_failure, htrace, Option.map_none]

/-- Consecutive starts of a trace keep their distance: `tcpMinimumDelay` always, and
`tcpFallbackDelay` if no failed result was received between them. -/
def Spaced (trace : List Obs) : Prop :=
  ∀ pre mid post addr t addr' t',
    trace = pre ++ .start addr t :: (mid ++ .start addr' t' :: post) →
    (∀ o ∈ mid, o.isStart = false) →
    t + tcpMinimumDelay ≤ t' ∧ (t' < t + tcpFallbackDelay → ∃ time, Obs.failure time ∈ mid)

/-- Observations without a start are failures. -/
theorem exists_failure_mem {mid : List Obs} (h : ∀ o ∈ mid, o.isStart = false)
    (hne : mid.isEmpty = false) : ∃ time, Obs.failure time ∈ mid := by
  cases mid with
  | nil => exact absurd hne (by simp)
  | cons o mid =>
    cases o with
    | start addr time => exact absurd (h _ (List.mem_cons_self ..)) (by simp [Obs.isStart])
    | failure time => exact ⟨time, List.mem_cons_self ..⟩

/-- One more observation; if it is a start, it is far enough from the last one. -/
theorem Spaced.append_singleton {trace : List Obs} (h : Spaced trace) {o : Obs}
    (hlast : ∀ addr time, o = .start addr time → ∀ t failed, sinceLast trace = some (t, failed) →
      t + tcpMinimumDelay ≤ time ∧ (time < t + tcpFallbackDelay → failed = true)) :
    Spaced (trace ++ [o]) := by
  intro pre mid post a t a' t' heq hmid
  rcases List.eq_nil_or_concat' post with rfl | ⟨post, o', rfl⟩
  · -- the new observation is the second start
    rw [show pre ++ .start a t :: (mid ++ [.start a' t']) =
      (pre ++ .start a t :: mid) ++ [.start a' t'] by simp] at heq
    obtain ⟨htrace, hstart⟩ := List.append_inj' heq rfl
    obtain ⟨hmin, hfallback⟩ := hlast a' t' (List.singleton_inj.mp hstart) t _
      (htrace ▸ sinceLast_of_no_start pre a t hmid)
    refine ⟨hmin, fun hlt => exists_failure_mem hmid ?_⟩
    simpa using hfallback hlt
  · rw [show pre ++ .start a t :: (mid ++ .start a' t' :: (post ++ [o'])) =
      (pre ++ .start a t :: (mid ++ .start a' t' :: post)) ++ [o'] by simp] at heq
    exact h pre mid post a t a' t' (List.append_inj' heq rfl).1 hmid

/-! ## The invariant -/

/-- The scheduler has found the window open, and has not started a dial since. -/
def SchedPc.isDue : SchedPc → Bool
  | .advancing due => due
  | .popped _ => true
  | .starting _ => true
  | _ => false

/-- A dial is started, but its time not yet noted. -/
def SchedPc.isStamping : SchedPc → Bool
  | .stamping _ => true
  | _ => false

/-- What the end of the window says about the last start, which `lastStart` was noted for. -/
structure WindowOf (lastStart t : ℕ) (failed : Bool) (ready : ℕ) : Prop where
  start_le : t ≤ lastStart
  lastStart_add_le : lastStart + tcpMinimumDelay ≤ ready
  failed_of_lt : ready < lastStart + tcpFallbackDelay → failed = true

/-- The window agrees with the trace. -/
structure Windowed (s : State) : Prop where
  spaced : Spaced s.trace
  /-- Before the first start there is no window. -/
  first : sinceLast s.trace = none → s.nextReadyAt = none
  /-- After it there is one, once the start is noted. -/
  window : ∀ t failed, sinceLast s.trace = some (t, failed) → t ≤ s.now ∧
    (s.sched.isStamping = false →
      ∃ ready, s.nextReadyAt = some ready ∧ WindowOf s.lastStart t failed ready)
  /-- A start is noted only after one was made. -/
  stamping : s.sched.isStamping = true → sinceLast s.trace ≠ none
  /-- An open window stays open. -/
  isDue : s.sched.isDue = true → ∀ ready, s.nextReadyAt = some ready → ready ≤ s.now

/-! ## Every move keeps it -/

/-- The invariant depends on the trace, the window and the clock, and on where the scheduler
stands only through the two flags. -/
theorem Windowed.of_same {s s' : State} (h : Windowed s) (htrace : s'.trace = s.trace)
    (hready : s'.nextReadyAt = s.nextReadyAt) (hlast : s'.lastStart = s.lastStart)
    (hnow : s.now ≤ s'.now) (hstamping : s'.sched.isStamping = s.sched.isStamping)
    (hdue : s'.sched.isDue = true → ∀ ready, s.nextReadyAt = some ready → ready ≤ s.now) :
    Windowed s' := by
  refine ⟨htrace ▸ h.spaced, ?_, ?_, ?_, ?_⟩
  · rw [htrace, hready]
    exact h.first
  · rw [htrace, hready, hlast, hstamping]
    exact fun t failed ht => ⟨(h.window t failed ht).1.trans hnow, (h.window t failed ht).2⟩
  · rw [hstamping, htrace]
    exact h.stamping
  · rw [hready]
    exact fun hd ready hr => (hdue hd ready hr).trans hnow

/-- A window that was found open is in the past. -/
theorem State.le_now_of_due {s : State} (h : s.due = true) {ready : ℕ}
    (hr : s.nextReadyAt = some ready) : ready ≤ s.now := by
  rw [State.due, hr] at h
  simpa using h

/-- A dial that starts keeps its distance from the last one. -/
theorem Windowed.spaced_start {s : State} (h : Windowed s) {addr : GoString}
    (hsched : s.sched = .starting addr) : Spaced (s.trace ++ [.start addr s.now]) := by
  refine h.spaced.append_singleton ?_
  intro addr' time heq t failed ht
  obtain ⟨rfl, rfl⟩ : addr = addr' ∧ s.now = time := by simpa using heq
  obtain ⟨ready, hr, hwin⟩ := (h.window t failed ht).2 (by rw [hsched]; rfl)
  have hready : ready ≤ s.now := h.isDue (by rw [hsched]; rfl) ready hr
  have hstart := hwin.start_le
  have hmin := hwin.lastStart_add_le
  exact ⟨by omega, fun hlt => hwin.failed_of_lt (by omega)⟩

/-- After a failure the window may shrink to the minimum. -/
theorem Windowed.shrinkWindow {s : State} (h : Windowed s) (hsched : s.sched = .top)
    (hfailed : ∀ t failed, sinceLast s.trace = some (t, failed) → failed = true)
    (keepTick : Bool) : Windowed (shrinkWindow s keepTick) := by
  simp only [Dial.shrinkWindow]
  split
  · exact h
  · rename_i ready hready
    split_ifs with hlt
    · refine ⟨h.spaced, ?_, ?_, h.stamping, ?_⟩
      · intro hnone
        exact absurd (hready.symm.trans (h.first hnone)) (by simp)
      · intro t failed ht
        refine ⟨(h.window t failed ht).1, fun hst => ⟨_, rfl, ?_, le_rfl, ?_⟩⟩
        · obtain ⟨_, -, hwin⟩ := (h.window t failed ht).2 hst
          exact hwin.start_le
        · exact fun _ => hfailed t failed ht
      · intro hd
        exact absurd (hd.symm.trans (congrArg SchedPc.isDue hsched)) (by simp [SchedPc.isDue])
    · exact h

/-- Receiving a failed result, before the window is looked at. -/
theorem Windowed.append_failure {s s' : State} (h : Windowed s) (hsched : s.sched = .select)
    (htrace : s'.trace = s.trace ++ [Obs.failure s.now]) (hready : s'.nextReadyAt = s.nextReadyAt)
    (hlast : s'.lastStart = s.lastStart) (hnow : s'.now = s.now) (hsched' : s'.sched = .top) :
    Windowed s' := by
  have hst : s.sched.isStamping = false := by
    rw [hsched]
    rfl
  refine ⟨?_, ?_, ?_, ?_, ?_⟩
  · rw [htrace]
    exact h.spaced.append_singleton fun addr time heq => absurd heq (by simp)
  · rw [htrace, sinceLast_append_failure, Option.map_eq_none_iff, hready]
    exact h.first
  · rw [htrace, sinceLast_append_failure, hready, hlast, hnow]
    intro t failed ht
    obtain ⟨⟨t', failed'⟩, hlast, heq⟩ := Option.map_eq_some_iff.mp ht
    obtain ⟨rfl, rfl⟩ : t' = t ∧ true = failed := by simpa using heq
    refine ⟨(h.window t' failed' hlast).1, fun _ => ?_⟩
    obtain ⟨ready, hr, hwin⟩ := (h.window t' failed' hlast).2 hst
    exact ⟨ready, hr, hwin.start_le, hwin.lastStart_add_le, fun _ => rfl⟩
  · rw [hsched']
    exact fun hs => absurd hs Bool.false_ne_true
  · rw [hsched']
    exact fun hd => absurd hd Bool.false_ne_true

theorem windowed_of_move {c : Config} {s s' : State} {e : Event} (h : Windowed s)
    (hm : Move c s e s') : Windowed s' := by
  cases hm with
  | elapse d => exact h.of_same rfl rfl rfl (Nat.le_add_right ..) rfl h.isDue
  | fire | cancel | lookupDone | resolve | pulse | closeFeed | closePulse | dialDone | settle
  | giveUp => exact h.of_same rfl rfl rfl le_rfl rfl h.isDue
  | computeDue hsched =>
    refine h.of_same rfl rfl rfl le_rfl (by rw [hsched]; rfl) ?_
    exact fun hd ready hr => State.le_now_of_due hd hr
  | advancePop _ _ _ hsched | checkCtx _ hsched =>
    exact h.of_same rfl rfl rfl le_rfl (by rw [hsched]; rfl) fun _ => h.isDue (by rw [hsched]; rfl)
  | advanceBlank _ _ hsched | advanceEnd _ hsched | advanceBlock _ hsched | checkCtxDone _ _ hsched
  | selectCtx _ hsched | selectConn _ _ _ _ _ hsched | selectWake hsched | selectTick hsched
  | discardWinner _ _ hsched | returnWinner _ hsched =>
    exact h.of_same rfl rfl rfl le_rfl (by rw [hsched]; rfl) fun hd => absurd hd Bool.false_ne_true
  | start addr hsched =>
    refine ⟨h.spaced_start hsched, ?_, ?_, ?_, fun hd => absurd hd Bool.false_ne_true⟩
    · intro hnone
      exact absurd hnone (by simp)
    · intro t failed ht
      rw [sinceLast_append_start] at ht
      obtain ⟨rfl, rfl⟩ : s.now = t ∧ false = failed := by simpa using ht
      exact ⟨le_rfl, fun hst => absurd hst.symm Bool.false_ne_true⟩
    · intro _ hnone
      exact absurd hnone (by simp)
  | stamp addr keepTick hsched =>
    have hne := h.stamping (by rw [hsched]; rfl)
    refine ⟨h.spaced, fun hnone => absurd hnone hne, ?_, fun hst => absurd hst Bool.false_ne_true,
      fun hd => absurd hd Bool.false_ne_true⟩
    intro t failed ht
    have hle := (h.window t failed ht).1
    refine ⟨hle, fun _ => ⟨s.now + tcpFallbackDelay, rfl, hle, ?_, ?_⟩⟩
    · exact Nat.add_le_add_left (by decide) _
    · exact fun hlt => absurd hlt (lt_irrefl _)
  | selectFailure i a err keepTick hsched =>
    refine Windowed.shrinkWindow ?_ rfl ?_ keepTick
    · exact h.append_failure hsched rfl rfl rfl rfl rfl
    · intro t failed ht
      obtain ⟨_, -, heq⟩ := Option.map_eq_some_iff.mp ((sinceLast_append_failure ..).symm.trans ht)
      exact (Prod.mk.inj heq).2.symm

theorem windowed {c : Config} {s : State} (h : Reaches c s) : Windowed s := by
  refine h.induction_on_move ?_ fun s e s' hw hm => windowed_of_move hw hm
  intro now
  refine ⟨?_, fun _ => rfl, ?_, fun hst => absurd hst Bool.false_ne_true,
    fun hd => absurd hd Bool.false_ne_true⟩
  · intro pre mid post addr t addr' t' heq
    exact absurd heq (by simp [init])
  · intro t failed ht
    exact absurd ht (by simp [init, sinceLast])

/-- The scheduler finds itself not due only because of a window. -/
theorem nextReadyAt_ne_none_of_not_due {c : Config} {s : State} (h : Reaches c s) :
    s.sched = .advancing false → s.nextReadyAt ≠ none := by
  refine h.induction_on_move (P := fun s => s.sched = .advancing false → s.nextReadyAt ≠ none) ?_ ?_
  · intro now hsched
    exact absurd hsched (by simp [init])
  · intro s e s' hs hm
    cases hm with
    | elapse | fire | cancel | lookupDone | resolve | pulse | closeFeed | closePulse | dialDone
    | settle | giveUp => exact hs
    | computeDue hsched =>
      intro hdue hnone
      have hd : s.due = false := SchedPc.advancing.inj hdue
      rw [State.due, show s.nextReadyAt = none from hnone] at hd
      exact absurd hd (by simp)
    | selectFailure i a err keepTick hsched =>
      rw [shrinkWindow_sched]
      exact fun hsched' => absurd hsched' (by simp [State.setAttempt])
    | _ => exact fun hsched' => absurd hsched' (by simp [State.ret, State.resetTimer,
        State.setAttempt])

/-! ## The main result -/

/-- Only noting a start and receiving a failed result move the window. -/
theorem eq_stamp_or_failure_of_nextReadyAt_ne {c : Config} {s s' : State} {e : Event}
    (hm : Move c s e s') (hne : s'.nextReadyAt ≠ s.nextReadyAt) :
    (∃ keepTick, e = .stamp keepTick) ∨
      (∃ i keepTick, e = .selectResult i keepTick ∧ s'.trace = s.trace ++ [Obs.failure s.now]) := by
  cases hm with
  | stamp addr keepTick => exact Or.inl ⟨keepTick, rfl⟩
  | selectFailure i a err keepTick hsched =>
    exact Or.inr ⟨i, keepTick, rfl, shrinkWindow_trace ..⟩
  | _ => exact absurd rfl hne

/-- **The spacing of the dials.**  In every state of every run:

* two consecutive starts are at least `tcpMinimumDelay` apart, and less than
  `tcpFallbackDelay` only if a failed result was received between them;
* as long as nothing was dialled there is no window, and the scheduler finds itself due
  whenever it looks;
* a step that moves the window notes a start or receives a failed result, so nothing that
  comes from a lookup moves it. -/
theorem start_spacing {c : Config} {s : State} (h : Reaches c s) :
    Spaced s.trace ∧
    ((∀ o ∈ s.trace, o.isStart = false) → s.nextReadyAt = none ∧ s.due = true ∧
      ∀ due, s.sched = .advancing due → due = true) ∧
    (∀ e s', step c s e = some s' → s'.nextReadyAt ≠ s.nextReadyAt →
      (∃ keepTick, e = .stamp keepTick) ∨
        ∃ i keepTick, e = .selectResult i keepTick ∧
          s'.trace = s.trace ++ [Obs.failure s.now]) := by
  have hw := windowed h
  refine ⟨hw.spaced, ?_, ?_⟩
  · intro hno
    have hnone := hw.first (sinceLast_eq_none hno)
    refine ⟨hnone, by rw [State.due, hnone], ?_⟩
    intro due hsched
    cases due with
    | true => rfl
    | false => exact absurd hnone (nextReadyAt_ne_none_of_not_due h hsched)
  · intro e s' hs hne
    exact eq_stamp_or_failure_of_nextReadyAt_ne (move_of_step hs) hne

/-- In the run with two dials, the second one waits for the window of the first. -/
theorem start_spacing_secondDial :
    (stateAfter twoFamilies secondDial).trace =
        [.start (ascii "[2001:db8::1]:443") 0, .start (ascii "192.0.2.1:443") tcpFallbackDelay] ∧
      Spaced (stateAfter twoFamilies secondDial).trace :=
  ⟨by decide +kernel, (start_spacing (c := twoFamilies) (reaches_stateAfter (by decide))).1⟩

end Dial
end ForwardProxy
