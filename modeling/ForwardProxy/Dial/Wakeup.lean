import ForwardProxy.Dial.Safety
import Mathlib.Data.List.Count

/-!
# The scheduler of the race is never left asleep

The scheduler blocks in a `select` over the context, the results, the wake slot and the timer.
It would be lost there if none of the four could ever come: no attempt left, no one left to
pulse, no token in the slot, no timer.  Three things make this less than obvious.  `pulse`
drops its token when the slot is full; a lookup that admitted nothing does not pulse; and a
tick may be consumed without anything being started.

Two invariants say what the scheduler may rely on when it is blocked.

* `wait_of_select`: if a candidate is queued, then the timer is armed for the end of the
  window or its tick is waiting, or a token or the pulse of the lookup is on its way.  A
  scheduler that finds the window closed finds the timer armed (`armed_of_not_due`), and one
  that finds the queues empty will be woken by whoever fills them.
* `live_of_select`: if the feed is exhausted and every attempt has been received, then the
  closer has not pulsed yet or its token is there.

## Main results

* `no_lost_wakeup`: no state is stuck, whatever is left in a state where the scheduler is
  blocked can still wake it, and a queued candidate has the timer behind it.
-/

namespace ForwardProxy
namespace Dial

open ForwardProxy.Core Acl

/-! ## Counting attempts -/

/-- The attempt has not finished. -/
def Attempt.running (a : Attempt) : Bool := a.pc != .finished

/-- An attempt that moves on without finishing leaves the count alone. -/
theorem countP_running_set {l : List Attempt} {i : ℕ} {a a' : Attempt} (ha : l[i]? = some a)
    (hrun : a.running = true) (hrun' : a'.running = true) :
    (l.set i a').countP Attempt.running = l.countP Attempt.running := by
  obtain ⟨hi, hget⟩ := List.getElem?_eq_some_iff.mp ha
  have hpos : 0 < l.countP Attempt.running :=
    List.countP_pos_iff.mpr ⟨a, List.mem_of_getElem? ha, hrun⟩
  rw [List.countP_set hi, hget, if_pos hrun, if_pos hrun']
  omega

/-- An attempt that finishes lowers the count. -/
theorem countP_running_set_finished {l : List Attempt} {i : ℕ} {a : Attempt}
    (ha : l[i]? = some a) (hrun : a.running = true) :
    (l.set i { a with pc := .finished }).countP Attempt.running =
      l.countP Attempt.running - 1 := by
  obtain ⟨hi, hget⟩ := List.getElem?_eq_some_iff.mp ha
  rw [List.countP_set hi, hget, if_pos hrun]
  rfl

/-- As long as the context is not done, the pending results are those of the running
attempts. -/
theorem pending_eq_countP {c : Config} {s : State} (h : Reaches c s) :
    s.ctxErr = none → s.pending = s.attempts.countP Attempt.running := by
  refine h.induction_on_move (P := fun s => s.ctxErr = none →
    s.pending = s.attempts.countP Attempt.running) (fun _ _ => rfl) ?_
  intro s e s' ih hm
  cases hm with
  | cancel err => exact fun hctx => absurd hctx (by simp)
  | dialDone i a conn err ha hpc =>
    intro hctx
    refine (ih hctx).trans (countP_running_set ha ?_ rfl).symm
    rw [Attempt.running, hpc]
    rfl
  | settle i a conn err attemptErr ha hpc hok =>
    intro hctx
    refine (ih hctx).trans (countP_running_set ha ?_ rfl).symm
    rw [Attempt.running, hpc]
    rfl
  | giveUp i a conn err ha hpc hctx' => exact fun hctx => absurd hctx hctx'
  | start addr hsched =>
    intro hctx
    rw [List.countP_append, ← ih hctx]
    rfl
  | selectConn i a conn err keepTick hsched ha hpc =>
    intro hctx
    refine Eq.trans (congrArg (· - 1) (ih hctx)) (countP_running_set_finished ha ?_).symm
    rw [Attempt.running, hpc]
    rfl
  | selectFailure i a err keepTick hsched ha hpc =>
    intro hctx
    rw [shrinkWindow_ctxErr] at hctx
    rw [shrinkWindow_pending, shrinkWindow_attempts]
    refine Eq.trans (congrArg (· - 1) (ih hctx)) (countP_running_set_finished ha ?_).symm
    rw [Attempt.running, hpc]
    rfl
  | advanceEnd | checkCtxDone | selectCtx | discardWinner | returnWinner =>
    exact fun hctx => absurd hctx (by simp [State.ret])
  | _ => exact ih

/-! ## The timer -/

/-- Shrinking the window takes the timer along. -/
theorem shrinkWindow_timer {s : State} {keepTick : Bool} {ready : ℕ}
    (h : ∀ r, s.nextReadyAt = some r → s.timer = some r ∨ r ≤ s.now)
    (hr : (shrinkWindow s keepTick).nextReadyAt = some ready) :
    (shrinkWindow s keepTick).timer = some ready ∨ ready ≤ s.now := by
  simp only [shrinkWindow] at hr ⊢
  split at hr
  · exact h ready hr
  · split_ifs at hr ⊢ with hlt
    · have hready : s.lastStart + tcpMinimumDelay = ready := Option.some_inj.mp hr
      rcases Nat.le_total ready s.now with hle | hle
      · exact Or.inr hle
      · refine Or.inl ?_
        show some (max s.now (s.lastStart + tcpMinimumDelay)) = some ready
        rw [hready, max_eq_right hle]
    · exact h ready hr

/-- The window ends when the timer fires, or has ended. -/
theorem timer_eq_or_le {c : Config} {s : State} (h : Reaches c s) :
    ∀ ready, s.nextReadyAt = some ready → s.timer = some ready ∨ ready ≤ s.now := by
  refine h.induction_on_move (P := fun s => ∀ ready, s.nextReadyAt = some ready →
    s.timer = some ready ∨ ready ≤ s.now) (fun _ _ hr => absurd hr (by simp [init])) ?_
  intro s e s' ih hm ready hr
  cases hm with
  | elapse d => exact (ih ready hr).imp_right (Nat.le_add_right_of_le)
  | fire t ht hle =>
    refine Or.inr ?_
    rcases ih ready hr with htimer | hpast
    · rw [ht] at htimer
      exact Option.some_inj.mp htimer ▸ hle
    · exact hpast
  | stamp addr keepTick hsched => exact Or.inl hr
  | selectFailure i a err keepTick hsched ha hpc =>
    rw [shrinkWindow_now]
    exact shrinkWindow_timer ih hr
  | _ => exact ih ready hr

/-- The timer is armed for the end of the window, or it has fired at it and the tick is
there. -/
def Armed (s : State) : Prop :=
  ∃ ready, s.nextReadyAt = some ready ∧
    (s.timer = some ready ∨ (s.tick = true ∧ ready ≤ s.now))

/-- Time passing and the timer firing keep it so. -/
theorem Armed.of_same {s s' : State} (h : Armed s) (hready : s'.nextReadyAt = s.nextReadyAt)
    (hnow : s.now ≤ s'.now)
    (htimer : (s'.timer = s.timer ∧ s'.tick = s.tick) ∨
      (s'.tick = true ∧ ∀ t, s.timer = some t → t ≤ s.now)) : Armed s' := by
  obtain ⟨ready, hr, harmed⟩ := h
  refine ⟨ready, hready.trans hr, ?_⟩
  rcases htimer with ⟨htimer, htick⟩ | ⟨htick, hfired⟩
  · rw [htimer, htick]
    exact harmed.imp_right fun hpast => ⟨hpast.1, hpast.2.trans hnow⟩
  · refine Or.inr ⟨htick, ?_⟩
    rcases harmed with harmed | hpast
    · exact (hfired ready harmed).trans hnow
    · exact hpast.2.trans hnow

/-- A scheduler that finds the window closed finds the timer armed. -/
theorem armed_of_not_due {c : Config} {s : State} (h : Reaches c s) :
    s.sched = .advancing false → Armed s := by
  refine h.invariant_of_invariant (P := fun s => s.sched = .advancing false → Armed s)
    (fun s hs => timer_eq_or_le hs) (fun _ hs => absurd hs (by simp [init])) ?_
  intro s e s' htimer ih hm
  cases hm with
  | elapse d =>
    exact fun hs => (ih hs).of_same rfl (Nat.le_add_right ..) (Or.inl ⟨rfl, rfl⟩)
  | fire t ht hle =>
    refine fun hs => (ih hs).of_same rfl le_rfl (Or.inr ⟨rfl, ?_⟩)
    exact fun t' ht' => Option.some_inj.mp (ht.symm.trans ht') ▸ hle
  | cancel | lookupDone | resolve | pulse | closeFeed | closePulse | dialDone | settle | giveUp =>
    exact fun hs => (ih hs).of_same rfl le_rfl (Or.inl ⟨rfl, rfl⟩)
  | computeDue hsched =>
    intro hs
    have hdue : s.due = false := SchedPc.advancing.inj hs
    rw [State.due] at hdue
    split at hdue
    · exact absurd hdue (by simp)
    · rename_i ready hready
      have hlt : s.now < ready := by simpa using hdue
      exact ⟨ready, hready, Or.inl ((htimer ready hready).resolve_right (by omega))⟩
  | selectFailure => exact fun hs => absurd hs (by simp [State.setAttempt])
  | _ => exact fun hs => absurd hs (by simp [State.ret, State.resetTimer, State.setAttempt])

/-! ## Tokens and pulses -/

/-- A lookup has added candidates and is about to pulse. -/
def PulseDue (s : State) : Prop := ∃ isV6, (s.resolver isV6).pc = .admitted true

/-- A lookup that was not about to pulse may move on. -/
theorem PulseDue.setResolver {s : State} (h : PulseDue s) {isV6 : Bool}
    (hne : (s.resolver isV6).pc ≠ .admitted true) (r : Resolver) :
    ∃ b, (Function.update s.resolver isV6 r b).pc = .admitted true := by
  obtain ⟨b, hb⟩ := h
  have hbv : b ≠ isV6 := by
    rintro rfl
    exact hne hb
  exact ⟨b, by rw [Function.update_of_ne hbv, hb]⟩

/-- **A blocked scheduler with a queued candidate has something to wait for.** -/
theorem wait_of_select {c : Config} {s : State} (h : Reaches c s) :
    s.sched = .select →
      s.feed.isEmpty = true ∨ s.feed.wake = true ∨ PulseDue s ∨ Armed s := by
  refine h.invariant_of_invariant (P := fun s => s.sched = .select →
      s.feed.isEmpty = true ∨ s.feed.wake = true ∨ PulseDue s ∨ Armed s)
    (Q := fun s => (s.sched = .advancing false → Armed s) ∧
      ∀ isV6 rest, s.feed.queue isV6 ≠ [] :: rest)
    (fun s hs => ⟨armed_of_not_due hs, queue_ne_blank hs⟩)
    (fun _ hs => absurd hs (by simp [init])) ?_
  intro s e s' hknown ih hm hs
  cases hm with
  | elapse d =>
    refine (ih hs).imp_right (Or.imp_right (Or.imp_right fun harmed => ?_))
    exact harmed.of_same rfl (Nat.le_add_right ..) (Or.inl ⟨rfl, rfl⟩)
  | fire t ht hle =>
    refine (ih hs).imp_right (Or.imp_right (Or.imp_right fun harmed => ?_))
    refine harmed.of_same rfl le_rfl (Or.inr ⟨rfl, ?_⟩)
    exact fun t' ht' => Option.some_inj.mp (ht.symm.trans ht') ▸ hle
  | cancel | closeFeed | dialDone | settle | giveUp => exact ih hs
  | closePulse hcloser => exact Or.inr (Or.inl rfl)
  | lookupDone isV6 answer hpc =>
    refine (ih hs).imp_right (Or.imp_right (Or.imp_left fun hpulse => hpulse.setResolver ?_ _))
    rw [hpc]
    exact ResolverPc.noConfusion
  | resolve isV6 answer hpc =>
    rcases ih hs with hempty | hwake | hpulse | harmed
    · -- what fills an empty feed is announced by the lookup that filled it
      cases hadded : (s.feed.resolve c isV6 answer).2 with
      | false => exact Or.inl (Feed.isEmpty_resolve hempty hadded)
      | true =>
        refine Or.inr (Or.inr (Or.inl ⟨isV6, ?_⟩))
        show (Function.update s.resolver isV6 _ isV6).pc = _
        rw [Function.update_self]
    · exact Or.inr (Or.inl ((s.feed.sameBut_resolve c isV6 answer).wake.trans hwake))
    · refine Or.inr (Or.inr (Or.inl (hpulse.setResolver ?_ _)))
      rw [hpc]
      exact ResolverPc.noConfusion
    · exact Or.inr (Or.inr (Or.inr harmed))
  | pulse isV6 added answer hpc =>
    cases added with
    | true => exact Or.inr (Or.inl rfl)
    | false =>
      refine (ih hs).imp_right (Or.imp_right (Or.imp_left fun hpulse => hpulse.setResolver ?_ _))
      rw [hpc]
      exact fun heq => absurd (ResolverPc.admitted.inj heq) Bool.false_ne_true
  | advanceBlank isV6 rest hsched hq => exact absurd hq (hknown.2 isV6 rest)
  | advanceBlock due hsched hdue hgo =>
    rcases hdue with rfl | hempty
    · exact Or.inr (Or.inr (Or.inr (hknown.1 hsched)))
    · exact Or.inl hempty
  | selectFailure => exact absurd hs (by simp [State.setAttempt])
  | _ => exact absurd hs (by simp [State.ret, State.resetTimer, State.setAttempt])

/-- The closer pulses only after it has closed the feed. -/
theorem closed_of_closer {c : Config} {s : State} (h : Reaches c s) :
    s.closer ≠ .waiting → s.feed.closed = true := by
  refine h.induction_on_move (P := fun s => s.closer ≠ .waiting → s.feed.closed = true)
    (fun _ hne => absurd rfl hne) ?_
  intro s e s' ih hm
  cases hm with
  | resolve isV6 answer hpc =>
    exact fun hne => (s.feed.sameBut_resolve c isV6 answer).closed.trans (ih hne)
  | pulse isV6 added answer hpc =>
    cases added with
    | true => exact ih
    | false => exact ih
  | closeFeed => exact fun _ => rfl
  | closePulse hcloser => exact fun _ => ih (by rw [hcloser]; exact CloserPc.noConfusion)
  | advancePop isV6 addr rest hsched hq =>
    exact fun hne => (Feed.closed_setQueue ..).trans (ih hne)
  | advanceBlank isV6 rest hsched hq => exact fun hne => (Feed.closed_setQueue ..).trans (ih hne)
  | selectFailure =>
    rw [shrinkWindow_closer, shrinkWindow_feed]
    exact ih
  | _ => exact ih

/-- **A blocked scheduler is told that the feed is exhausted.** -/
theorem live_of_select {c : Config} {s : State} (h : Reaches c s) :
    s.sched = .select → s.feed.wake = true ∨ s.closer ≠ .done ∨ s.feed.isEmpty = false ∨
      s.pending ≠ 0 := by
  refine h.invariant_of_invariant (P := fun s => s.sched = .select →
      s.feed.wake = true ∨ s.closer ≠ .done ∨ s.feed.isEmpty = false ∨ s.pending ≠ 0)
    (Q := fun s => (s.closer ≠ .waiting → s.feed.closed = true) ∧
      ∀ isV6 rest, s.feed.queue isV6 ≠ [] :: rest)
    (fun s hs => ⟨closed_of_closer hs, queue_ne_blank hs⟩)
    (fun _ hs => absurd hs (by simp [init])) ?_
  intro s e s' hknown ih hm hs
  cases hm with
  | elapse | fire | cancel | lookupDone | dialDone | settle | giveUp => exact ih hs
  | resolve isV6 answer hpc =>
    rcases ih hs with hwake | hcloser | hempty | hpending
    · exact Or.inl ((s.feed.sameBut_resolve c isV6 answer).wake.trans hwake)
    · exact Or.inr (Or.inl hcloser)
    · refine Or.inr (Or.inr (Or.inl ?_))
      rw [Bool.eq_false_iff] at hempty ⊢
      exact fun htrue => hempty (Feed.isEmpty_of_isEmpty_resolve htrue)
    · exact Or.inr (Or.inr (Or.inr hpending))
  | pulse isV6 added answer hpc =>
    cases added with
    | true => exact Or.inl rfl
    | false => exact ih hs
  | closeFeed => exact Or.inr (Or.inl CloserPc.noConfusion)
  | closePulse hcloser => exact Or.inl rfl
  | advanceBlank isV6 rest hsched hq => exact absurd hq (hknown.2 isV6 rest)
  | advanceBlock due hsched hdue hgo =>
    -- the feed was open, or not empty, or a result is pending
    by_cases hdone : s.closer = .done
    · have hclosed := hknown.1 (by rw [hdone]; exact CloserPc.noConfusion)
      by_cases hempty : s.feed.isEmpty = true
      · exact Or.inr (Or.inr (Or.inr fun hpending => hgo ⟨hclosed, hempty, hpending⟩))
      · exact Or.inr (Or.inr (Or.inl (Bool.eq_false_iff.mpr hempty)))
    · exact Or.inr (Or.inl hdone)
  | selectFailure => exact absurd hs (by simp [State.setAttempt])
  | _ => exact absurd hs (by simp [State.ret, State.resetTimer, State.setAttempt])

/-! ## Progress -/

/-- A label that is more than time passing or the caller giving up. -/
def Event.isProgress : Event → Bool
  | .elapse _ => false
  | .cancel _ => false
  | _ => true

/-- Some party can take a step, now or when enough time has passed. -/
def CanProgress (c : Config) (s : State) : Prop :=
  ∃ d e, e.isProgress = true ∧ (runFrom (step c) s [.elapse d, e]).isSome = true

theorem canProgress_of_step {c : Config} {s : State} {e : Event} (he : e.isProgress = true)
    (h : (step c s e).isSome = true) : CanProgress c s := by
  obtain ⟨s', hs'⟩ := Option.isSome_iff_exists.mp h
  refine ⟨0, e, he, ?_⟩
  show (runFrom (step c) s [e]).isSome = true
  simp [runFrom, hs']

/-- What is left in a state where the scheduler is blocked, that can still wake it. -/
inductive Wakes (s : State) : Prop
  | ctx (h : s.ctxErr ≠ none)
  | attempt (a : Attempt) (hmem : a ∈ s.attempts) (h : a.pc ≠ .finished)
  | lookup (isV6 : Bool) (h : (s.resolver isV6).pc = .looking)
  /-- A lookup that has answered may still pulse. -/
  | pulse (isV6 : Bool) (h : (s.resolver isV6).pc = .answered ∨
      (s.resolver isV6).pc = .admitted true)
  /-- The closer pulses last. -/
  | closer (h : s.closer ≠ .done)
  | token (h : s.feed.wake = true)
  | timer (h : s.timer ≠ none)
  | tick (h : s.tick = true)

/-- A blocked scheduler can still be woken. -/
theorem wakes_of_select {c : Config} {s : State} (h : Reaches c s) (hs : s.sched = .select) :
    Wakes s := by
  by_cases hctx : s.ctxErr = none
  · rcases live_of_select h hs with hwake | hcloser | hempty | hpending
    · exact .token hwake
    · exact .closer hcloser
    · rcases wait_of_select h hs with hempty' | hwake | ⟨isV6, hpulse⟩ | ⟨ready, -, harmed⟩
      · exact absurd (hempty'.symm.trans hempty) (by simp)
      · exact .token hwake
      · exact .pulse isV6 (Or.inr hpulse)
      · rcases harmed with htimer | htick
        · exact .timer (by rw [htimer]; exact Option.some_ne_none _)
        · exact .tick htick.1
    · rw [pending_eq_countP h hctx, ← Nat.pos_iff_ne_zero, List.countP_pos_iff] at hpending
      obtain ⟨a, hmem, hrun⟩ := hpending
      exact .attempt a hmem (by simpa [Attempt.running] using hrun)
  · exact .ctx hctx

/-- A lookup past its return has an answer. -/
theorem answer_ne_none {c : Config} {s : State} (h : Reaches c s) :
    ∀ isV6, (s.resolver isV6).pc ≠ .looking → (s.resolver isV6).answer ≠ none := by
  obtain ⟨now, es, hrun⟩ := h
  refine forall_lookups (Q := fun _ _ r => r.pc ≠ .looking → r.answer ≠ none) hrun
    (fun _ hpc => absurd rfl hpc) (fun _ _ _ _ hr => hr) (fun _ _ _ _ => Option.some_ne_none _) ?_
  intro _ _ pc pc' answer hpc hr _
  exact hr hpc

/-- A lookup that is not done can move on. -/
theorem canProgress_of_resolver {c : Config} {s : State} (h : Reaches c s) {isV6 : Bool}
    (hpc : (s.resolver isV6).pc ≠ .done) : CanProgress c s := by
  have hans := answer_ne_none h isV6
  rcases hres : s.resolver isV6 with ⟨pc, answer⟩
  rw [hres] at hpc hans
  cases pc with
  | looking =>
    refine canProgress_of_step (e := .lookupDone isV6 (.ok [])) rfl ?_
    simp [step, hres]
  | answered =>
    obtain ⟨a, rfl⟩ := Option.ne_none_iff_exists'.mp (hans ResolverPc.noConfusion)
    refine canProgress_of_step (e := .resolve isV6) rfl ?_
    simp [step, hres]
  | admitted added =>
    refine canProgress_of_step (e := .pulse isV6) rfl ?_
    simp [step, hres]
  | done => exact absurd rfl hpc

/-- An attempt that has not finished can move on, or hand over its result. -/
theorem canProgress_of_attempt {c : Config} {s : State} (hs : s.sched = .select) {a : Attempt}
    (hmem : a ∈ s.attempts) (hpc : a.pc ≠ .finished) : CanProgress c s := by
  obtain ⟨i, hi⟩ := List.getElem?_of_mem hmem
  cases hpc' : a.pc with
  | dialing =>
    refine canProgress_of_step (e := .dialDone i false none) rfl ?_
    simp [step, hi, hpc']
  | dialed conn err =>
    refine canProgress_of_step (e := .settle i none) rfl ?_
    simp [step, hi, hpc', attemptErrOk]
  | offering conn err =>
    refine canProgress_of_step (e := .selectResult i false) rfl ?_
    cases conn <;> simp [step, hi, hpc', hs]
  | finished => exact absurd hpc' hpc

/-- Whatever can wake a blocked scheduler can take a step. -/
theorem canProgress_of_wakes {c : Config} {s : State} (h : Reaches c s) (hs : s.sched = .select)
    (hw : Wakes s) : CanProgress c s := by
  cases hw with
  | ctx hctx =>
    obtain ⟨err, herr⟩ := Option.ne_none_iff_exists'.mp hctx
    refine canProgress_of_step (e := .selectCtx) rfl ?_
    simp [step, hs, herr]
  | attempt a hmem hpc => exact canProgress_of_attempt hs hmem hpc
  | lookup isV6 hpc =>
    exact canProgress_of_resolver h (by rw [hpc]; exact ResolverPc.noConfusion)
  | pulse isV6 hpc =>
    have hne : (s.resolver isV6).pc ≠ .done := by
      rcases hpc with hpc | hpc
      · rw [hpc]
        exact ResolverPc.noConfusion
      · rw [hpc]
        exact ResolverPc.noConfusion
    exact canProgress_of_resolver h hne
  | closer hcloser =>
    by_cases h4 : (s.resolver false).pc = .done
    · by_cases h6 : (s.resolver true).pc = .done
      · cases hc : s.closer with
        | waiting =>
          refine canProgress_of_step (e := .closeFeed) rfl ?_
          simp [step, hc, h4, h6]
        | closed =>
          refine canProgress_of_step (e := .closePulse) rfl ?_
          simp [step, hc]
        | done => exact absurd hc hcloser
      · exact canProgress_of_resolver h h6
    · exact canProgress_of_resolver h h4
  | token hwake =>
    refine canProgress_of_step (e := .selectWake) rfl ?_
    simp [step, hs, hwake]
  | timer htimer =>
    obtain ⟨t, ht⟩ := Option.ne_none_iff_exists'.mp htimer
    refine ⟨t, .fire, rfl, ?_⟩
    simp [runFrom, step, ht]
  | tick htick =>
    refine canProgress_of_step (e := .selectTick) rfl ?_
    simp [step, hs, htick]

/-- Outside its `select`, the scheduler takes its next step by itself. -/
theorem canProgress_of_not_select {c : Config} {s : State} (hs : s.sched ≠ .select)
    (hret : ∀ conn err, s.sched ≠ .returned conn err) : CanProgress c s := by
  cases hsched : s.sched with
  | top =>
    refine canProgress_of_step (e := .computeDue) rfl ?_
    simp [step, hsched]
  | advancing due =>
    refine canProgress_of_step (e := .advance) rfl ?_
    simp only [step, hsched]
    split_ifs <;> rfl
  | popped addr =>
    refine canProgress_of_step (e := .checkCtx) rfl ?_
    cases hctx : s.ctxErr <;> simp [step, hsched, hctx]
  | starting addr =>
    refine canProgress_of_step (e := .start) rfl ?_
    simp [step, hsched]
  | stamping addr =>
    refine canProgress_of_step (e := .stamp false) rfl ?_
    simp [step, hsched]
  | select => exact absurd hsched hs
  | received conn =>
    refine canProgress_of_step (e := .checkWinner) rfl ?_
    cases hctx : s.ctxErr <;> simp [step, hsched, hctx]
  | returned conn err => exact absurd hsched (hret conn err)

/-! ## The main result -/

/-- **No wakeup is lost.**  As long as the scheduler has not returned:

* some party can take a step, now or after enough time, so no state is stuck;
* when the scheduler is blocked in its `select`, the context is done, an attempt or a lookup
  is in flight, a lookup or the closer has yet to pulse, a token is in the slot, or the timer
  is armed or has a tick waiting;
* when it is blocked, a candidate is queued, and there is neither a token nor a lookup about
  to pulse, the timer is armed for the end of the window or has fired at it. -/
theorem no_lost_wakeup {c : Config} {s : State} (h : Reaches c s)
    (hret : ∀ conn err, s.sched ≠ .returned conn err) :
    CanProgress c s ∧ (s.sched = .select → Wakes s) ∧
      (s.sched = .select → s.feed.isEmpty = false → s.feed.wake = false →
        (∀ isV6, (s.resolver isV6).pc ≠ .admitted true) → Armed s) := by
  refine ⟨?_, wakes_of_select h, ?_⟩
  · by_cases hs : s.sched = .select
    · exact canProgress_of_wakes h hs (wakes_of_select h hs)
    · exact canProgress_of_not_select hs hret
  · intro hs hempty hwake hpulse
    rcases wait_of_select h hs with hempty' | hwake' | ⟨isV6, hpc⟩ | harmed
    · exact absurd (hempty'.symm.trans hempty) (by simp)
    · exact absurd (hwake'.symm.trans hwake) (by simp)
    · exact absurd hpc (hpulse isV6)
    · exact harmed

/-- After the first dial the scheduler is blocked with the IPv4 candidate queued; it consumes
the token of the closer, looks again, and is blocked on the timer. -/
def blockedOnTimer : List Event := firstDial ++ [.selectWake, .computeDue, .advance]

theorem no_lost_wakeup_blockedOnTimer :
    (stateAfter twoFamilies blockedOnTimer).sched = .select ∧
      (stateAfter twoFamilies blockedOnTimer).feed.isEmpty = false ∧
      Armed (stateAfter twoFamilies blockedOnTimer) :=
  ⟨by decide, by decide,
    (no_lost_wakeup (c := twoFamilies) (s := stateAfter twoFamilies blockedOnTimer)
      (reaches_stateAfter (by decide)) (fun conn err hsched => absurd (hsched.symm.trans
        (show (stateAfter twoFamilies blockedOnTimer).sched = .select by decide)) (by simp))).2.2
      (by decide) (by decide) (by decide) (by decide)⟩

end Dial
end ForwardProxy
