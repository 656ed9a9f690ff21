import ForwardProxy.Dial.Wakeup

/-!
# The race gives up only when nothing is left

`dialTCPIncremental` reports a failure of its own when `feed.advance` answers `closed` and
`empty` and no result is pending.  The two answers are a snapshot taken under the lock of the
feed, `pending` is private to the scheduler, and the lookups and the attempts run on while the
three are combined.  The snapshot is still good when it is used, because each of its parts can
only change in one direction:

* `done_of_closed`: a closed feed has both lookups behind it, so nothing is queued any more;
* `Popped` then says that what was admitted is what was dialled;
* `pending_eq_countP`: as long as the context is not done, the pending results are those of
  the running attempts, so none is running.

An attempt ends by handing over its result or, once the context is done, by giving up.  While
the context is not done every attempt that has ended was therefore received, and a scheduler
that goes on after receiving has received a failure (`failureReceived_of_finished`).

## Main results

* `no_early_give_up`: a run that ends in an error while its context is not done has both
  lookups behind it, has started every admitted address exactly once, and has received a
  failure from every attempt.
-/

namespace ForwardProxy
namespace Dial

open ForwardProxy.Core Acl

/-! ## The lookups -/

/-- A lookup that is done stays as it is. -/
theorem resolver_eq_of_done {c : Config} {s s' : State} {e : Event} (hm : Move c s e s')
    {isV6 : Bool} (hdone : (s.resolver isV6).pc = .done) :
    s'.resolver isV6 = s.resolver isV6 := by
  have hne : ∀ b, (s.resolver b).pc ≠ .done → isV6 ≠ b := by
    rintro b hb rfl
    exact hb hdone
  cases hm with
  | lookupDone b answer hpc =>
    exact Function.update_of_ne (hne b (by rw [hpc]; exact ResolverPc.noConfusion)) ..
  | resolve b answer hpc =>
    exact Function.update_of_ne (hne b (by rw [hpc]; exact ResolverPc.noConfusion)) ..
  | pulse b added answer hpc =>
    exact Function.update_of_ne (hne b (by rw [hpc]; exact ResolverPc.noConfusion)) ..
  | selectFailure => rw [shrinkWindow_resolver]; rfl
  | _ => rfl

/-- The feed is closed by the closer only, after both lookups. -/
theorem done_of_closed {c : Config} {s : State} (h : Reaches c s) :
    s.feed.closed = true → ∀ isV6, (s.resolver isV6).pc = .done := by
  refine h.induction_on_move (P := fun s => s.feed.closed = true →
    ∀ isV6, (s.resolver isV6).pc = .done) (fun _ hc => absurd hc (by simp [init])) ?_
  intro s e s' ih hm hclosed isV6
  have keep : s.feed.closed = true → (s'.resolver isV6).pc = .done := by
    intro hc
    rw [resolver_eq_of_done hm (ih hc isV6)]
    exact ih hc isV6
  cases hm with
  | closeFeed hcloser h4 h6 =>
    cases isV6 with
    | false => exact h4
    | true => exact h6
  | resolve b answer hpc =>
    exact keep ((s.feed.sameBut_resolve c b answer).closed.symm.trans hclosed)
  | pulse b added answer hpc =>
    cases added with
    | true => exact keep hclosed
    | false => exact keep hclosed
  | advancePop b addr rest hsched hq =>
    exact keep ((Feed.closed_setQueue ..).symm.trans hclosed)
  | advanceBlank b rest hsched hq => exact keep ((Feed.closed_setQueue ..).symm.trans hclosed)
  | selectFailure =>
    rw [shrinkWindow_feed] at hclosed
    exact keep hclosed
  | _ => exact keep hclosed

/-- A lookup that is not looking any more has an answer. -/
theorem exists_answer {c : Config} {s : State} (h : Reaches c s) (isV6 : Bool)
    (hpc : (s.resolver isV6).pc ≠ .looking) : ∃ answer, (s.resolver isV6).answer = some answer :=
  Option.ne_none_iff_exists'.mp (answer_ne_none h isV6 hpc)

/-- What a lookup has answered came in. -/
theorem lookupDone_mem {c : Config} {now : ℕ} {es : List Event} {s : State}
    (hrun : runFrom (step c) (init now) es = some s) :
    ∀ isV6 answer, (s.resolver isV6).answer = some answer → Event.lookupDone isV6 answer ∈ es := by
  refine forall_lookups (Q := fun es isV6 r => ∀ answer, r.answer = some answer →
    Event.lookupDone isV6 answer ∈ es) hrun (fun _ _ hr => absurd hr (by simp)) ?_ ?_ ?_
  · intro es e isV6 r hr answer hanswer
    exact List.mem_append_left [e] (hr answer hanswer)
  · intro es isV6 answer answer' heq
    rw [← Option.some_inj.mp heq]
    exact List.mem_append_right es List.mem_cons_self
  · intro es isV6 pc pc' answer _ hr
    exact hr

/-! ## The attempts -/

/-- **The rule for the attempts.**  What holds of an attempt that dials and of one that is finished,
and is kept when the dial is done and when the attempt settles, holds of every attempt. -/
theorem forall_attempts {c : Config} {s : State} {P : AttemptPc → Prop} (h : Reaches c s)
    (hdialing : P .dialing) (hfinished : P .finished)
    (hdialed : ∀ conn (err : Option NetError), P (.dialed conn (err.map .net)))
    (hsettle : ∀ conn err attemptErr, P (.dialed conn err) →
      P (.offering (offer conn err attemptErr).1 (offer conn err attemptErr).2)) :
    ∀ a ∈ s.attempts, P a.pc := by
  refine h.induction_on_move (P := fun s => ∀ a ∈ s.attempts, P a.pc) (fun _ => nofun) ?_
  intro s e s' ih hm
  have set : ∀ (i : ℕ) (a' : Attempt), P a'.pc → ∀ a ∈ s.attempts.set i a', P a.pc := by
    intro i a' ha' a ha
    rcases List.mem_or_eq_of_mem_set ha with ha | rfl
    · exact ih a ha
    · exact ha'
  cases hm with
  | dialDone i a conn err ha hpc => exact set i _ (hdialed _ err)
  | settle i a conn err attemptErr ha hpc hok =>
    exact set i _ (hsettle conn err attemptErr (hpc ▸ ih a (List.mem_of_getElem? ha)))
  | giveUp i a conn err ha hpc hctx => exact set i _ hfinished
  | start addr hsched =>
    intro a ha
    rcases List.mem_append.mp ha with ha | ha
    · exact ih a ha
    · rw [List.mem_singleton.mp ha]
      exact hdialing
  | selectConn i a conn err keepTick hsched ha hpc => exact set i _ hfinished
  | selectFailure i a err keepTick hsched ha hpc =>
    rw [shrinkWindow_attempts]
    exact set i _ hfinished
  | _ => exact ih

/-- The attempts are the dials, in order. -/
theorem map_addr_attempts {c : Config} {s : State} (h : Reaches c s) :
    s.attempts.map Attempt.addr = s.dials := by
  refine h.induction_on_move (P := fun s => s.attempts.map Attempt.addr = s.dials)
    (fun _ => rfl) ?_
  intro s e s' ih hm
  -- an attempt that moves on keeps its address
  have set : ∀ {i : ℕ} {a : Attempt} (pc : AttemptPc), s.attempts[i]? = some a →
      (s.attempts.set i { a with pc := pc }).map Attempt.addr = s.dials := by
    intro i a pc ha
    obtain ⟨hi, rfl⟩ := List.getElem?_eq_some_iff.mp ha
    rw [← ih, List.map_set, ← List.getElem_map Attempt.addr, List.set_getElem_self]
    simpa using hi
  cases hm with
  | dialDone i a conn err ha hpc => exact set _ ha
  | settle i a conn err attemptErr ha hpc hok => exact set _ ha
  | giveUp i a conn err ha hpc hctx => exact set _ ha
  | start addr hsched =>
    rw [List.map_append, ih]
    exact (filterMap_append_start s.trace addr s.now s).symm
  | selectConn i a conn err keepTick hsched ha hpc => exact set _ ha
  | selectFailure i a err keepTick hsched ha hpc =>
    rw [shrinkWindow_attempts]
    refine (set _ ha).trans ?_
    simp [State.dials, State.setAttempt]
  | _ => exact ih

theorem started_eq_length {c : Config} {s : State} (h : Reaches c s) :
    s.started = s.attempts.length := by
  refine h.induction_on_move (P := fun s => s.started = s.attempts.length) (fun _ => rfl) ?_
  intro s e s' ih hm
  cases hm with
  | dialDone i a conn err ha hpc => exact ih.trans List.length_set.symm
  | settle i a conn err attemptErr ha hpc hok => exact ih.trans List.length_set.symm
  | giveUp i a conn err ha hpc hctx => exact ih.trans List.length_set.symm
  | start addr hsched =>
    rw [List.length_append]
    exact congrArg (· + 1) ih
  | selectConn i a conn err keepTick hsched ha hpc => exact ih.trans List.length_set.symm
  | selectFailure i a err keepTick hsched ha hpc =>
    obtain ⟨window, timer, tick, heq⟩ := shrinkWindow_eq ({ s with
      pending := s.pending - 1
      lastErr := err
      trace := s.trace ++ [Obs.failure s.now]
      sched := .top }.setAttempt i { a with pc := .finished }) keepTick
    rw [heq]
    exact ih.trans List.length_set.symm
  | _ => exact ih

/-- What holds as long as there is no attempt. -/
structure Untouched (s : State) : Prop where
  produced : s.produced = 0
  closes : s.closes = []
  pending : s.pending = 0
  lastFamily : s.lastFamily = 0
  window : s.nextReadyAt = none
  sched : ∀ addr conn, s.sched ≠ .stamping addr ∧ s.sched ≠ .received conn

theorem untouched_of_attempts_eq_nil {c : Config} {s : State} (h : Reaches c s) :
    s.attempts = [] → Untouched s := by
  refine h.induction_on_move (P := fun s => s.attempts = [] → Untouched s)
    (fun _ _ => ⟨rfl, rfl, rfl, rfl, rfl, fun _ _ => ⟨nofun, nofun⟩⟩) ?_
  intro s e s' ih hm hnil
  have set : ∀ {i : ℕ} {a a' : Attempt}, s.attempts[i]? = some a → s.attempts.set i a' ≠ [] := by
    intro i a a' ha hset
    rw [(List.set_eq_nil_iff i a').mp hset] at ha
    exact absurd ha (by simp)
  cases hm with
  | dialDone i a conn err ha hpc => exact absurd hnil (set ha)
  | settle i a conn err attemptErr ha hpc hok => exact absurd hnil (set ha)
  | giveUp i a conn err ha hpc hctx => exact absurd hnil (set ha)
  | selectConn i a conn err keepTick hsched ha hpc => exact absurd hnil (set ha)
  | selectFailure i a err keepTick hsched ha hpc =>
    rw [shrinkWindow_attempts] at hnil
    exact absurd hnil (set ha)
  | start addr hsched => exact absurd hnil (by simp)
  | stamp addr keepTick hsched => exact absurd hsched ((ih hnil).sched addr 0).1
  | discardWinner conn err hsched hctx => exact absurd hsched ((ih hnil).sched [] conn).2
  | returnWinner conn hsched hctx => exact absurd hsched ((ih hnil).sched [] conn).2
  | computeDue | advancePop | advanceBlank | advanceEnd | advanceBlock | checkCtxDone | checkCtx
  | selectCtx | selectWake | selectTick =>
    obtain ⟨hproduced, hcloses, hpending, hlast, hwindow, -⟩ := ih hnil
    exact ⟨hproduced, hcloses, hpending, hlast, hwindow, fun _ _ => ⟨nofun, nofun⟩⟩
  | _ =>
    obtain ⟨hproduced, hcloses, hpending, hlast, hwindow, hsched⟩ := ih hnil
    exact ⟨hproduced, hcloses, hpending, hlast, hwindow, hsched⟩

/-- In the run `es` the scheduler received a failure from attempt `i`: it took the result of
`i` when that carried no connection. -/
def FailureReceived (c : Config) (now : ℕ) (es : List Event) (i : ℕ) : Prop :=
  ∃ before keepTick after s a err, es = before ++ .selectResult i keepTick :: after ∧
    runFrom (step c) (init now) before = some s ∧ s.sched = .select ∧
    s.attempts[i]? = some a ∧ a.pc = .offering none err

/-- What was received stays received. -/
theorem FailureReceived.append {c : Config} {now : ℕ} {es : List Event} {i : ℕ}
    (h : FailureReceived c now es i) (e : Event) : FailureReceived c now (es ++ [e]) i := by
  obtain ⟨before, keepTick, after, s, a, err, rfl, hrest⟩ := h
  exact ⟨before, keepTick, after ++ [e], s, a, err, by simp, hrest⟩

/-- The context of a race that has returned is done. -/
theorem ctxErr_ne_none_of_returned {c : Config} {s : State} (h : Reaches c s)
    {conn : Option ℕ} {err : Option RaceError} : s.sched = .returned conn err →
    s.ctxErr ≠ none := by
  refine h.induction_on_move (P := fun s => s.sched = .returned conn err → s.ctxErr ≠ none)
    (fun _ hs => absurd hs (by simp [init])) ?_
  intro s e s' ih hm
  cases hm with
  | elapse | fire | lookupDone | resolve | pulse | closeFeed | closePulse | dialDone | settle
  | giveUp => exact ih
  | cancel err' => exact fun _ => by simp
  | advanceEnd | checkCtxDone | selectCtx | discardWinner | returnWinner =>
    exact fun _ => by simp [State.ret]
  | selectFailure => exact fun hs => absurd hs (by simp [State.setAttempt])
  | _ => exact fun hs => absurd hs (by simp [State.resetTimer, State.setAttempt])

/-- **Who ended was received.**  As long as the context is not done and the scheduler holds no
connection, every attempt that has ended handed over a failure. -/
theorem failureReceived_of_finished {c : Config} {now : ℕ} {es : List Event} {s : State}
    (h : runFrom (step c) (init now) es = some s) :
    s.ctxErr = none → (∀ conn, s.sched ≠ .received conn) →
      ∀ i a, s.attempts[i]? = some a → a.pc = .finished → FailureReceived c now es i := by
  refine runFrom_history (P := fun es s => s.ctxErr = none → (∀ conn, s.sched ≠ .received conn) →
    ∀ i a, s.attempts[i]? = some a → a.pc = .finished → FailureReceived c now es i)
    (fun _ _ i a ha => absurd ha (by simp [init])) ?_ h
  intro es s e s' hrun ih hs hctx hconn i a ha hpc
  -- an attempt that ended before this step
  have old : s.ctxErr = none → (∀ conn, s.sched ≠ .received conn) →
      s.attempts[i]? = some a → FailureReceived c now (es ++ [e]) i :=
    fun h₁ h₂ h₃ => (ih h₁ h₂ i a h₃ hpc).append e
  -- replacing an attempt leaves the ends of the others, and its own unless it finishes
  have set : ∀ {j : ℕ} {a' : Attempt}, (s.attempts.set j a')[i]? = some a →
      a'.pc ≠ .finished → s.attempts[i]? = some a := by
    intro j a' hset hne
    rw [List.getElem?_set] at hset
    split_ifs at hset
    · exact absurd hpc (Option.some_inj.mp hset ▸ hne)
    · exact hset
  cases move_of_step hs with
  | cancel err => exact absurd hctx (by simp)
  | advanceEnd | checkCtxDone | selectCtx | discardWinner | returnWinner =>
    exact absurd hctx (by simp [State.ret])
  | dialDone j b conn err hb hpcb => exact old hctx hconn (set ha AttemptPc.noConfusion)
  | settle j b conn err attemptErr hb hpcb hok =>
    exact old hctx hconn (set ha AttemptPc.noConfusion)
  | giveUp j b conn err hb hpcb hdone => exact absurd hctx hdone
  | start addr hsched =>
    refine old hctx (by simp [hsched]) ?_
    rw [List.getElem?_append] at ha
    split_ifs at ha
    · exact ha
    · rw [List.mem_singleton.mp (List.mem_of_getElem? ha)] at hpc
      exact absurd hpc AttemptPc.noConfusion
  | selectConn j b conn err keepTick hsched hb hpcb => exact absurd rfl (hconn conn)
  | selectFailure j b err keepTick hsched hb hpcb =>
    by_cases hij : j = i
    · subst hij
      exact ⟨es, keepTick, [], s, b, err, rfl, hrun, hsched, hb, hpcb⟩
    · rw [shrinkWindow_ctxErr] at hctx
      rw [shrinkWindow_attempts] at ha
      refine old hctx (by simp [hsched]) ?_
      rwa [State.setAttempt, List.getElem?_set_ne hij] at ha
  | elapse | fire | lookupDone | resolve | pulse | closeFeed | closePulse => exact old hctx hconn ha
  | computeDue hsched | advancePop _ _ _ hsched | advanceBlank _ _ hsched | advanceBlock _ hsched
  | checkCtx _ hsched | stamp _ _ hsched | selectWake hsched | selectTick hsched =>
    exact old hctx (by simp [hsched]) ha

/-! ## The main result -/

/-- While the context is not done, an error comes from `finalError` only. -/
theorem exhausted_of_error {c : Config} {s s' : State} {e : Event} {conn : Option ℕ}
    {err : RaceError} (hnot : ∀ conn err, s.sched ≠ .returned conn err) (hctx : s.ctxErr = none)
    (hm : Move c s e s') (hret : s'.sched = .returned conn (some err)) :
    conn = none ∧ err = s.feed.finalError s.started s.lastErr ∧ s.feed.closed = true ∧
      s.feed.isEmpty = true ∧ s.pending = 0 ∧ ∃ due, s.sched = .advancing due := by
  rcases return_cases hnot hm hret with ⟨-, hconn, herr, hrest⟩ | ⟨-, -, x, hdone, -⟩ |
    ⟨k, -, -, herr⟩
  · exact ⟨hconn, Option.some_inj.mp herr, hrest⟩
  · exact absurd (hctx.symm.trans hdone) nofun
  · exact absurd herr nofun

/-- Once both queues are empty and the scheduler is between two starts, what was seen was
dialled once. -/
theorem count_dials_of_isEmpty {c : Config} {s : State} (h : Reaches c s) {due : Bool}
    (hsched : s.sched = .advancing due) (hempty : s.feed.isEmpty = true) {addr : GoString}
    (hseen : addr ∈ s.feed.seen) : s.dials.count addr = 1 := by
  obtain ⟨pops, hpops⟩ := exists_popped h
  have htaken := hpops.taken
  rw [hsched] at htaken
  have hpops_eq : pops = s.dials := htaken
  obtain ⟨isV6, hadm⟩ := (hpops.seen addr).mp hseen
  rw [hpops.order isV6, (Feed.isEmpty_iff _).mp hempty isV6, List.append_nil, hpops_eq] at hadm
  refine List.count_eq_one_of_mem ?_ (List.mem_filter.mp hadm).1
  exact hpops_eq ▸ hpops.nodup

/-- **No early give-up.**  Let a run of the race end, in its next step, with an error while its
context is not done.  Then

* both lookups are done, and all the candidates of their answers were admitted;
* every admitted address was started exactly once;
* the attempts are the starts, and the scheduler has received a failure from every one. -/
theorem no_early_give_up {c : Config} {now : ℕ} {es : List Event} {s s' : State} {e : Event}
    {conn : Option ℕ} {err : RaceError} (hrun : runFrom (step c) (init now) es = some s)
    (hctx : s.ctxErr = none) (hstep : step c s e = some s')
    (hret : s'.sched = .returned conn (some err)) :
    conn = none ∧
    (∀ isV6, ∃ answer, s.resolver isV6 = { pc := .done, answer := some answer } ∧
      ∀ addr ∈ candidates c isV6 answer, addr ∈ s.feed.seen) ∧
    (∀ addr ∈ s.feed.seen, s.dials.count addr = 1) ∧
    s.attempts.map Attempt.addr = s.dials ∧
    ∀ i < s.attempts.length, FailureReceived c now es i := by
  have hreach : Reaches c s := ⟨now, es, hrun⟩
  obtain ⟨hconn, -, hclosed, hempty, hpending, due, hsched⟩ :=
    exhausted_of_error (fun _ _ hr => ctxErr_ne_none_of_returned hreach hr hctx) hctx
      (move_of_step hstep) hret
  refine ⟨hconn, ?_, fun addr hseen => count_dials_of_isEmpty hreach hsched hempty hseen,
    map_addr_attempts hreach, ?_⟩
  · intro isV6
    have hdone := done_of_closed hreach hclosed isV6
    obtain ⟨answer, hanswer⟩ :=
      exists_answer hreach isV6 (by rw [hdone]; exact ResolverPc.noConfusion)
    have hres : s.resolver isV6 = { pc := .done, answer := some answer } := by
      rw [← hdone, ← hanswer]
    refine ⟨answer, hres, ?_⟩
    intro addr hcand
    obtain ⟨pops, hpops⟩ := exists_popped hreach
    refine (hpops.seen addr).mpr ⟨isV6, ?_⟩
    rw [hres]
    exact hcand
  · intro i hi
    refine failureReceived_of_finished hrun hctx (by simp [hsched]) i s.attempts[i]
      (List.getElem?_eq_getElem hi) ?_
    -- no result is pending, so no attempt is running
    have hzero := (pending_eq_countP hreach hctx).symm.trans hpending
    have := List.countP_eq_zero.mp hzero s.attempts[i] (List.getElem_mem hi)
    simpa [Attempt.running] using this

/-- Both dials fail and both failures are received. -/
def bothFail : List Event :=
  secondDial ++ [.dialDone 0 false (some (.other 1 false)), .settle 0 none,
    .dialDone 1 false (some (.other 1 false)), .settle 1 none, .computeDue,
    .advance, .selectResult 1 false, .computeDue, .advance, .selectResult 0 false, .computeDue]

/-- The race gives up on two admitted addresses after it has received both failures. -/
theorem no_early_give_up_bothFail :
    (stateAfter twoFamilies bothFail).feed.seen.length = 2 ∧
      (∀ addr ∈ (stateAfter twoFamilies bothFail).feed.seen,
        (stateAfter twoFamilies bothFail).dials.count addr = 1) ∧
      (stateAfter twoFamilies bothFail).attempts.map Attempt.addr =
        (stateAfter twoFamilies bothFail).dials ∧
      ∀ i < (stateAfter twoFamilies bothFail).attempts.length,
        FailureReceived twoFamilies 0 bothFail i := by
  refine ⟨by decide, ?_⟩
  have hstep : (step twoFamilies (stateAfter twoFamilies bothFail) .advance).isSome = true := by
    decide
  obtain ⟨s', hs'⟩ := Option.isSome_iff_exists.mp hstep
  have hret : (step twoFamilies (stateAfter twoFamilies bothFail) .advance).map State.sched =
      some (.returned none (some (.net (.other 1 false)))) := by decide
  rw [hs', Option.map_some] at hret
  exact (no_early_give_up (runFrom_stateAfter (by decide)) (by decide) hs'
    (Option.some_inj.mp hret)).2.2

end Dial
end ForwardProxy
