import ForwardProxy.Dial.Admitted

/-!
# How a race ends

What a race returns is decided in one step of the scheduler, but by what happened before it: which
lookups failed, how many addresses passed the access rules, which failure was received last.  The
code keeps this in variables.  Here it is read off the run, and the variables are shown to agree:

* `endOf` finds the step in which the scheduler returns, and the state before it;
* `lastFailure` is the error that was received last (`lastErr_eq_lastFailure`);
* `feed.errV4` and `feed.errV6` are the errors of the lookups (`err_eq_some_iff`).

`exists_returned`: whatever has happened so far, the end of the context brings the race to its end.
-/

namespace ForwardProxy
namespace Dial

open ForwardProxy.Core Acl

/-! ## The step that returns -/

/-- The state before the step in which the scheduler returns, and that step. -/
def endOf (c : Config) : State → List Event → Option (State × Event)
  | _, [] => none
  | s, e :: es =>
    match step c s e with
    | none => none
    | some s' =>
      match s'.sched with
      | .returned _ _ => some (s, e)
      | _ => endOf c s' es

/-- A race that has returned did so in one step, and has not changed its mind since. -/
theorem exists_endOf {c : Config} {s s' : State} {es : List Event} {conn : Option ℕ}
    {err : Option RaceError} (hnot : ∀ conn err, s.sched ≠ .returned conn err)
    (hrun : runFrom (step c) s es = some s') (hret : s'.sched = .returned conn err) :
    ∃ es₁ u e u' es₂, es = es₁ ++ e :: es₂ ∧ endOf c s es = some (u, e) ∧
      runFrom (step c) s es₁ = some u ∧ (∀ conn err, u.sched ≠ .returned conn err) ∧
      step c u e = some u' ∧ u'.sched = .returned conn err ∧ runFrom (step c) u' es₂ = some s' := by
  induction es generalizing s with
  | nil =>
    rw [runFrom_nil, Option.some_inj] at hrun
    exact absurd (hrun ▸ hret) (hnot conn err)
  | cons e es ih =>
    rw [runFrom_cons, Option.bind_eq_some_iff] at hrun
    obtain ⟨t, ht, hrun⟩ := hrun
    by_cases hnot' : ∀ conn err, t.sched ≠ .returned conn err
    · obtain ⟨es₁, u, f, u', es₂, rfl, hend, hrun₁, hrest⟩ := ih hnot' hrun
      refine ⟨e :: es₁, u, f, u', es₂, rfl, ?_, by rw [runFrom_cons, ht, Option.bind_some, hrun₁],
        hrest⟩
      rw [endOf, ht]
      dsimp only
      split
      · rename_i conn' err' hsched
        exact absurd hsched (hnot' conn' err')
      · exact hend
    · push Not at hnot'
      obtain ⟨conn', err', hsched⟩ := hnot'
      -- what was returned is returned at the end
      have hsame : s'.sched = .returned conn' err' :=
        runFrom_invariant (P := fun s => s.sched = .returned conn' err')
          (fun _ _ _ hp hs => sched_eq_of_returned hp (move_of_step hs)) hsched hrun
      have heq : SchedPc.returned conn err = .returned conn' err' := hret.symm.trans hsame
      exact ⟨[], s, e, t, es, rfl, by rw [endOf, ht]; simp only [hsched], rfl, hnot, ht,
        heq ▸ hsched, hrun⟩

/-! ## The failure that was received last -/

/-- The error that the scheduler receives in a step, if it receives a failure. -/
def failureOf (s : State) : Event → Option RaceError
  | .selectResult i _ =>
    match s.attempts[i]? with
    | some { pc := .offering none err, .. } => err
    | _ => none
  | _ => none

/-- The error that was received last in a run. -/
def lastFailure (c : Config) : State → List Event → Option RaceError
  | _, [] => none
  | s, e :: es =>
    match step c s e with
    | none => none
    | some s' => (lastFailure c s' es).or (failureOf s e)

theorem lastFailure_append {c : Config} {s u s' : State} {es : List Event} {e : Event}
    (hrun : runFrom (step c) s es = some u) (hstep : step c u e = some s') :
    lastFailure c s (es ++ [e]) = (failureOf u e).or (lastFailure c s es) := by
  induction es generalizing s with
  | nil =>
    rw [runFrom_nil, Option.some_inj] at hrun
    subst hrun
    simp [lastFailure, hstep]
  | cons f es ih =>
    rw [runFrom_cons, Option.bind_eq_some_iff] at hrun
    obtain ⟨v, hv, hrun⟩ := hrun
    rw [List.cons_append, lastFailure, lastFailure, hv]
    dsimp only
    rw [ih hrun, Option.or_assoc]

/-- An attempt that offers no connection offers an error. -/
theorem exists_err_of_offering {c : Config} {s : State} (h : Reaches c s) :
    ∀ a ∈ s.attempts, ∀ err, a.pc = .offering none err → ∃ e, err = some e := by
  refine forall_attempts (P := fun pc => ∀ err, pc = .offering none err → ∃ e, err = some e) h
    (by simp) (by simp) (by simp) ?_
  intro conn err attemptErr _ err' heq
  obtain ⟨hconn, rfl⟩ := AttemptPc.offering.inj heq
  cases conn <;> cases err <;> cases attemptErr <;> simp_all [offer]

/-- What a step does to the variable. -/
theorem lastErr_of_move {c : Config} {s s' : State} {e : Event} (h : Reaches c s)
    (hm : Move c s e s') : s'.lastErr = (failureOf s e).or s.lastErr := by
  cases hm with
  | selectFailure i a err keepTick hsched ha hpc =>
    obtain ⟨window, timer, tick, heq⟩ := shrinkWindow_eq ({ s with
      pending := s.pending - 1
      lastErr := err
      trace := s.trace ++ [Obs.failure s.now]
      sched := .top }.setAttempt i { a with pc := .finished }) keepTick
    obtain ⟨e', rfl⟩ := exists_err_of_offering h a (List.mem_of_getElem? ha) err hpc
    obtain ⟨addr, startedAt, pc⟩ := a
    subst hpc
    rw [heq]
    simp [failureOf, ha, State.setAttempt]
  | selectConn i a conn err keepTick hsched ha hpc =>
    obtain ⟨addr, startedAt, pc⟩ := a
    subst hpc
    simp [failureOf, ha, State.setAttempt]
  | _ => rfl

/-- **The variable is the last failure of the run.** -/
theorem lastErr_eq_lastFailure {c : Config} {now : ℕ} {es : List Event} {s : State}
    (hrun : runFrom (step c) (init now) es = some s) :
    s.lastErr = lastFailure c (init now) es := by
  refine runFrom_history (P := fun es s => s.lastErr = lastFailure c (init now) es) rfl ?_ hrun
  intro es s e s' hrun ih hs
  rw [lastFailure_append hrun hs, lastErr_of_move ⟨now, es, hrun⟩ (move_of_step hs), ih]

/-- Nothing is received after the return. -/
theorem lastErr_eq_of_returned {c : Config} {s s' : State} {es : List Event} {conn : Option ℕ}
    {err : Option RaceError} (hret : s.sched = .returned conn err)
    (hrun : runFrom (step c) s es = some s') : s'.lastErr = s.lastErr := by
  refine (runFrom_invariant (P := fun t => t.sched = .returned conn err ∧ t.lastErr = s.lastErr) ?_
    ⟨hret, rfl⟩ hrun).2
  rintro t e t' ⟨hsched, hlast⟩ ht
  have hm := move_of_step ht
  refine ⟨sched_eq_of_returned hsched hm, ?_⟩
  cases hm with
  | selectFailure _ _ _ _ hselect => exact absurd (hsched.symm.trans hselect) nofun
  | _ => exact hlast

/-! ## The lookups -/

/-- The errors of the lookups that are in are noted. -/
def Noted (s : State) : Prop :=
  ∀ isV6 e, (s.resolver isV6).isIn = true → (s.resolver isV6).answer = some (.error e) →
    s.feed.err isV6 = some e

/-- One lookup is replaced, and the error of the other stays. -/
theorem Noted.setResolver {s : State} (h : Noted s) {feed : Feed} {b : Bool} {r : Resolver}
    (hother : feed.err (!b) = s.feed.err (!b))
    (hself : ∀ e, r.isIn = true → r.answer = some (.error e) → feed.err b = some e) :
    Noted ({ s with feed := feed }.setResolver b r) := by
  intro isV6 e
  show (Function.update s.resolver b r isV6).isIn = true →
    (Function.update s.resolver b r isV6).answer = some (.error e) → feed.err isV6 = some e
  by_cases hb : isV6 = b
  · rw [hb, Function.update_self]
    exact hself e
  · obtain rfl : isV6 = !b := Bool.eq_not.mpr hb
    rw [Function.update_of_ne hb, hother]
    exact h (!b) e

theorem noted {c : Config} {s : State} (h : Reaches c s) : Noted s := by
  refine h.induction_on_move (fun _ _ _ hin => absurd hin nofun) ?_
  intro s e s' ih hm
  cases hm with
  | lookupDone b answer hpc => exact ih.setResolver rfl fun _ hin => absurd hin nofun
  | resolve b answer hpc =>
    cases answer with
    | error err =>
      refine ih.setResolver ?_ ?_
      · rw [err_resolve_error, if_neg (by simp)]
      · intro e _ he
        rw [err_resolve_error, if_pos rfl, Except.error.inj (Option.some_inj.mp he)]
    | ok addrs =>
      refine ih.setResolver ?_ fun e _ he => absurd (Option.some_inj.mp he) nofun
      rw [(tally_resolve_ok c b s.feed addrs).2]
  | pulse b added answer hpc =>
    have hfeed : ∀ isV6, (if added then s.feed.pulse else s.feed).err isV6 = s.feed.err isV6 := by
      cases added <;> exact fun _ => rfl
    refine ih.setResolver (hfeed _) fun e _ he => ?_
    rw [hfeed]
    exact ih b e (by rw [hpc]; rfl) (by rw [hpc]; exact he)
  | advancePop b | advanceBlank b => cases b <;> exact ih
  | selectFailure =>
    unfold Noted
    rw [shrinkWindow_feed, shrinkWindow_resolver]
    exact ih
  | _ => exact ih

/-- **The noted errors are the errors of the lookups** once both are done. -/
theorem err_eq_some_iff {c : Config} {s : State} (h : Reaches c s) (hclosed : s.feed.closed = true)
    (isV6 : Bool) (e : NetError) :
    s.feed.err isV6 = some e ↔ (s.resolver isV6).answer = some (.error e) := by
  refine ⟨fun he => ((tallied h).err isV6 e he).2, noted h isV6 e ?_⟩
  rw [Resolver.isIn, done_of_closed h hclosed isV6]

/-! ## The end of the context ends the race -/

/-- How far the scheduler is from returning once its context is done. -/
def SchedPc.rank : SchedPc → ℕ
  | .starting _ => 5
  | .stamping _ => 4
  | .top => 3
  | .advancing _ => 2
  | .popped _ => 1
  | .select => 1
  | .received _ => 1
  | .returned _ _ => 0

/-- Once the context is done, the scheduler can always go on towards its return. -/
theorem exists_step_of_ctxErr {c : Config} {s : State} (hctx : s.ctxErr ≠ none)
    (hnot : ¬ ∃ conn err, s.sched = .returned conn err) :
    ∃ e s', step c s e = some s' ∧ s'.ctxErr ≠ none ∧ s'.sched.rank < s.sched.rank := by
  obtain ⟨x, hx⟩ := Option.ne_none_iff_exists'.mp hctx
  cases hsched : s.sched with
  | top =>
    have hs : step c s .computeDue = some { s with sched := .advancing s.due } := by
      simp only [step, hsched, if_true]
    exact ⟨_, _, hs, hctx, Nat.lt_succ_self 2⟩
  | advancing due =>
    have hsome : (step c s .advance).isSome = true := by
      simp only [step, hsched]
      split_ifs <;> rfl
    obtain ⟨s', hs⟩ := Option.isSome_iff_exists.mp hsome
    refine ⟨_, s', hs, ?_⟩
    cases move_of_step hs with
    | advancePop => exact ⟨hctx, Nat.lt_succ_self 1⟩
    | advanceBlank => exact ⟨hctx, Nat.lt_succ_self 1⟩
    | advanceEnd => exact ⟨by simp [State.ret], Nat.zero_lt_succ 1⟩
    | advanceBlock => exact ⟨hctx, Nat.lt_succ_self 1⟩
  | popped addr =>
    have hs : step c s .checkCtx = some (s.ret none (some (.net x))) := by
      simp only [step, hsched, hx]
    exact ⟨_, _, hs, by simp [State.ret], Nat.zero_lt_one⟩
  | starting addr =>
    obtain ⟨s', hs⟩ : ∃ s', step c s .start = some s' := by
      simp only [step, hsched, Option.some_inj, exists_eq']
    cases move_of_step hs with
    | start => exact ⟨_, _, hs, hctx, Nat.lt_succ_self 4⟩
  | stamping addr =>
    obtain ⟨s', hs⟩ : ∃ s', step c s (.stamp false) = some s' := by simp only [step, hsched,
      Option.some_inj, exists_eq']
    cases move_of_step hs with
    | stamp => exact ⟨_, _, hs, hctx, Nat.lt_succ_self 3⟩
  | select =>
    have hs : step c s .selectCtx = some (s.ret none (some (.net x))) := by
      simp only [step, hsched, hx, if_true]
    exact ⟨_, _, hs, by simp [State.ret], Nat.zero_lt_one⟩
  | received k =>
    have hs : step c s .checkWinner = some ((s.close (some k)).ret none (some (.net x))) := by
      simp only [step, hsched, hx]
    exact ⟨_, _, hs, by simp [State.ret], Nat.zero_lt_one⟩
  | returned conn err => exact absurd ⟨conn, err, hsched⟩ hnot

/-- Whatever has happened so far, the race comes to its end when its context does. -/
theorem exists_returned (c : Config) (s : State) :
    ∃ es s', runFrom (step c) s es = some s' ∧ ∃ conn err, s'.sched = .returned conn err := by
  have hdone : ∀ {s : State}, s.ctxErr ≠ none → ∃ es s', runFrom (step c) s es = some s' ∧
      ∃ conn err, s'.sched = .returned conn err := by
    intro s hctx
    have hrank : ∀ s : State, s.ctxErr ≠ none → ¬ (∃ conn err, s.sched = .returned conn err) →
        ∃ e s', True ∧ step c s e = some s' ∧ s'.ctxErr ≠ none ∧ s'.sched.rank < s.sched.rank := by
      intro s hctx hnot
      obtain ⟨e, s', hs⟩ := exists_step_of_ctxErr hctx hnot
      exact ⟨e, s', trivial, hs⟩
    obtain ⟨es, s', -, hrun, -, hret⟩ := exists_runFrom_of_rank
      (P := fun s : State => s.ctxErr ≠ none) (A := fun _ => True)
        (fun s => s.sched.rank) hrank hctx
    exact ⟨es, s', hrun, hret⟩
  by_cases hctx : s.ctxErr = none
  · have hs : step c s (.cancel .deadlineExceeded) =
        some { s with ctxErr := some .deadlineExceeded } := by
      simp only [step, hctx, true_and, or_true, if_true]
    obtain ⟨es, s', hrun, hret⟩ :=
      hdone (s := { s with ctxErr := some .deadlineExceeded }) (Option.some_ne_none _)
    exact ⟨.cancel .deadlineExceeded :: es, s', by rw [runFrom_cons, hs, Option.bind_some, hrun],
      hret⟩
  · exact hdone hctx

end Dial
end ForwardProxy
