import ForwardProxy.Dial.Exhaustion

/-!
# What a race admits, and when it blames the policy

The feed is filled by two lookups and emptied by the scheduler, so what was ever admitted cannot be
read off a state.  It is read off a run: `admitted` collects what each step appends to the queues.

* Over a whole run these are the candidates of the answers that are in, each of them once
  (`admitted_perm`).
* `passedACL` counts the entries of the answers that the access rules allow, and an error of a
  lookup is noted only where there was one (`tallied`).
* A race ends with a policy failure only through `finalError`, before anything was dialled
  (`exhausted_of_policy`).
-/

namespace ForwardProxy
namespace Dial

open ForwardProxy.Core Acl

/-! ## Admissions of a run -/

/-- What a step appends to the queues. -/
def appended (s s' : State) : List GoString :=
  s'.feed.v6.drop s.feed.v6.length ++ s'.feed.v4.drop s.feed.v4.length

/-- What a run admits to the feed, in order. -/
def admitted (c : Config) : State → List Event → List GoString
  | _, [] => []
  | s, e :: es =>
    match step c s e with
    | some s' => appended s s' ++ admitted c s' es
    | none => []

theorem admitted_append {c : Config} {s u s' : State} {es : List Event} {e : Event}
    (hrun : runFrom (step c) s es = some u) (hstep : step c u e = some s') :
    admitted c s (es ++ [e]) = admitted c s es ++ appended u s' := by
  induction es generalizing s with
  | nil =>
    rw [runFrom_nil, Option.some_inj] at hrun
    subst hrun
    simp [admitted, hstep]
  | cons f es ih =>
    rw [runFrom_cons, Option.bind_eq_some_iff] at hrun
    obtain ⟨v, hv, hrun⟩ := hrun
    rw [List.cons_append, admitted, admitted, hv]
    dsimp only
    rw [ih hrun, List.append_assoc]

/-- A step that lengthens no queue admits nothing. -/
theorem appended_eq_nil {s s' : State}
    (h : ∀ isV6, (s'.feed.queue isV6).length ≤ (s.feed.queue isV6).length) :
    appended s s' = [] := by
  exact List.append_eq_nil_iff.mpr
    ⟨List.drop_of_length_le (h true), List.drop_of_length_le (h false)⟩

/-- What the answers that are in contribute. -/
def State.admittedFrom (c : Config) (s : State) : List GoString :=
  (s.resolver true).admittedFrom c true ++ (s.resolver false).admittedFrom c false

/-- A lookup that admits its answer appends the candidates. -/
theorem appended_resolve {c : Config} {s : State} (h : Reaches c s) {isV6 : Bool} {answer : Answer}
    (hpc : s.resolver isV6 = { pc := .answered, answer := some answer }) :
    (s.admittedFrom c ++ appended s
        ({ s with feed := (s.feed.resolve c isV6 answer).1 }.setResolver isV6
          { pc := .admitted (s.feed.resolve c isV6 answer).2, answer := some answer })).Perm
      (({ s with feed := (s.feed.resolve c isV6 answer).1 }.setResolver isV6
        { pc := .admitted (s.feed.resolve c isV6 answer).2
          answer := some answer }).admittedFrom c) := by
  obtain ⟨pops, hpops⟩ := exists_popped h
  have hpops' := hpops.resolve hpc
  have hnone : (s.resolver isV6).admittedFrom c isV6 = [] :=
    Resolver.admittedFrom_eq_nil (.inr (by rw [hpc]))
  have hold := hpops.order isV6
  rw [hnone, eq_comm, List.append_eq_nil_iff] at hold
  have hnew := hpops'.order isV6
  rw [hold.1, List.nil_append] at hnew
  have hsame := (s.feed.sameBut_resolve c isV6 answer).queue_not
  cases isV6 with
  | false =>
    have happ : (s.feed.resolve c false answer).1.v6.drop s.feed.v6.length = [] :=
      List.drop_of_length_le (congrArg List.length hsame).le
    have hlen : s.feed.v4.length = 0 := congrArg List.length hold.2
    simp only [State.admittedFrom, appended, hnone, List.append_nil, hnew]
    show ((s.resolver true).admittedFrom c true ++
      ((s.feed.resolve c false answer).1.v6.drop s.feed.v6.length ++
        (s.feed.resolve c false answer).1.v4.drop s.feed.v4.length)).Perm
      ((s.resolver true).admittedFrom c true ++ (s.feed.resolve c false answer).1.v4)
    rw [happ, hlen]
    exact .refl _
  | true =>
    have happ : (s.feed.resolve c true answer).1.v4.drop s.feed.v4.length = [] :=
      List.drop_of_length_le (congrArg List.length hsame).le
    have hlen : s.feed.v6.length = 0 := congrArg List.length hold.2
    simp only [State.admittedFrom, appended, hnone, List.nil_append, hnew]
    show ((s.resolver false).admittedFrom c false ++
      ((s.feed.resolve c true answer).1.v6.drop s.feed.v6.length ++
        (s.feed.resolve c true answer).1.v4.drop s.feed.v4.length)).Perm
      ((s.feed.resolve c true answer).1.v6 ++ (s.resolver false).admittedFrom c false)
    rw [happ, hlen, List.append_nil]
    exact List.perm_append_comm

theorem admittedFrom_append_perm {c : Config} {s s' : State} {e : Event} (h : Reaches c s)
    (hm : Move c s e s') : (s.admittedFrom c ++ appended s s').Perm (s'.admittedFrom c) := by
  have keep (hfrom : ∀ b, (s'.resolver b).admittedFrom c b = (s.resolver b).admittedFrom c b)
      (hq : ∀ b, (s'.feed.queue b).length ≤ (s.feed.queue b).length) :
      (s.admittedFrom c ++ appended s s').Perm (s'.admittedFrom c) := by
    rw [appended_eq_nil hq, List.append_nil, State.admittedFrom, State.admittedFrom, hfrom, hfrom]
  have pop {b : Bool} {q : List GoString} (hq : q.length ≤ (s.feed.queue b).length) (b' : Bool) :
      ((s.feed.setQueue b q).queue b').length ≤ (s.feed.queue b').length := by
    by_cases hb : b' = b
    · rw [hb, Feed.queue_setQueue]
      exact hq
    · rw [Feed.queue_setQueue_of_ne _ hb]
  cases hm with
  | resolve isV6 answer hpc => exact appended_resolve h hpc
  | lookupDone isV6 answer hpc =>
    refine keep (admittedFrom_update ?_) fun _ => le_rfl
    rw [Resolver.admittedFrom_eq_nil (.inl hpc)]
    rfl
  | pulse isV6 added answer hpc =>
    refine keep (admittedFrom_update ?_) fun b => ?_
    · rw [hpc]
      cases answer <;> rfl
    · cases added <;> exact le_rfl
  | advancePop isV6 addr rest hsched hq =>
    exact keep (fun _ => rfl) (pop (by rw [hq]; exact Nat.le_succ _))
  | advanceBlank isV6 rest hsched hq =>
    exact keep (fun _ => rfl) (pop (by rw [hq]; exact Nat.le_succ _))
  | selectFailure =>
    refine keep (fun b => by rw [shrinkWindow_resolver]; rfl) fun b => ?_
    rw [shrinkWindow_feed]
    rfl
  | _ => exact keep (fun _ => rfl) fun _ => le_rfl

/-- **A run admits the candidates of the answers that are in**, whatever else happens meanwhile. -/
theorem admitted_perm {c : Config} {now : ℕ} {es : List Event} {s : State}
    (h : runFrom (step c) (init now) es = some s) :
    (admitted c (init now) es).Perm (s.admittedFrom c) := by
  refine runFrom_history (P := fun es s => (admitted c (init now) es).Perm (s.admittedFrom c))
    (List.Perm.refl _) ?_ h
  intro es s e s' hrun ih hstep
  rw [admitted_append hrun hstep]
  exact (ih.append_right _).trans (admittedFrom_append_perm ⟨now, es, hrun⟩ (move_of_step hstep))

theorem State.nodup_admittedFrom (c : Config) (s : State) : (s.admittedFrom c).Nodup := by
  refine (Resolver.nodup_admittedFrom c true _).append (Resolver.nodup_admittedFrom c false _) ?_
  intro addr h6 h4
  obtain ⟨_, -, h6⟩ := Resolver.mem_admittedFrom h6
  obtain ⟨_, -, h4⟩ := Resolver.mem_admittedFrom h4
  have hfam := ofFamily_of_mem_candidates h4
  rw [← Bool.not_true, ofFamily_not, ofFamily_of_mem_candidates h6] at hfam
  exact absurd hfam (by simp)

/-! ## The counters -/

/-- The access rules allow the entry. -/
def passes (c : Config) : Option IP → Bool
  | none => false
  | some ip => hostIsAllowed c.handler c.host ip

/-- The error noted for a family. -/
def Feed.err (f : Feed) (isV6 : Bool) : Option NetError := if isV6 then f.errV6 else f.errV4

theorem tally_resolveOne (c : Config) (isV6 : Bool) (f : Feed) (added : Bool) (a : Option IP) :
    (Feed.resolveOne c isV6 (f, added) a).1.passedACL = f.passedACL + (passes c a).toNat ∧
      (Feed.resolveOne c isV6 (f, added) a).1.err = f.err := by
  cases a with
  | none => exact ⟨rfl, rfl⟩
  | some ip =>
    simp only [Feed.resolveOne, passes]
    cases hostIsAllowed c.handler c.host ip with
    | false => exact ⟨rfl, rfl⟩
    | true =>
      simp only [Bool.not_true, Bool.false_eq_true, if_false]
      split_ifs
      · exact ⟨rfl, rfl⟩
      · exact ⟨rfl, rfl⟩
      · exact ⟨rfl, rfl⟩
      · cases isV6 <;> exact ⟨rfl, rfl⟩

/-- Admitting an answer counts the entries that are allowed. -/
theorem tally_resolve_ok (c : Config) (isV6 : Bool) (f : Feed) (addrs : List (Option IP)) :
    (f.resolve c isV6 (.ok addrs)).1.passedACL = f.passedACL + addrs.countP (passes c) ∧
      (f.resolve c isV6 (.ok addrs)).1.err = f.err := by
  rw [Feed.resolve]
  generalize false = added
  induction addrs generalizing f added with
  | nil => exact ⟨rfl, rfl⟩
  | cons a addrs ih =>
    obtain ⟨hpassed, herr⟩ := tally_resolveOne c isV6 f added a
    obtain ⟨hpassed', herr'⟩ := ih (Feed.resolveOne c isV6 (f, added) a).1
      (Feed.resolveOne c isV6 (f, added) a).2
    rw [List.foldl_cons]
    refine ⟨?_, herr'.trans herr⟩
    rw [hpassed', hpassed, List.countP_cons, Nat.add_assoc, Nat.add_comm (passes c a).toNat]
    cases passes c a <;> rfl

/-- How many entries of an answer that is in are allowed. -/
def Resolver.passed (c : Config) (r : Resolver) : ℕ :=
  match r.answer with
  | some (.ok addrs) => if r.isIn then addrs.countP (passes c) else 0
  | _ => 0

/-- The counters of the feed agree with the answers. -/
structure Tallied (c : Config) (s : State) : Prop where
  passed : s.feed.passedACL = (s.resolver true).passed c + (s.resolver false).passed c
  err : ∀ isV6 e, s.feed.err isV6 = some e →
    (s.resolver isV6).isIn = true ∧ (s.resolver isV6).answer = some (.error e)

theorem Tallied.of_same {c : Config} {s s' : State} (h : Tallied c s)
    (hpassed : s'.feed.passedACL = s.feed.passedACL) (herr : s'.feed.err = s.feed.err)
    (hres : ∀ b, (s'.resolver b).answer = (s.resolver b).answer ∧
      (s'.resolver b).isIn = (s.resolver b).isIn) : Tallied c s' := by
  refine ⟨?_, ?_⟩
  · rw [hpassed, h.passed, Resolver.passed, Resolver.passed, Resolver.passed, Resolver.passed]
    simp only [(hres true).1, (hres true).2, (hres false).1, (hres false).2]
  · intro isV6 e he
    rw [(hres isV6).1, (hres isV6).2]
    exact h.err isV6 e (herr ▸ he)

theorem Resolver.passed_eq_zero {c : Config} {r : Resolver} (h : r.isIn = false) :
    r.passed c = 0 := by
  rw [Resolver.passed]
  split
  · rw [h]
    rfl
  · rfl

/-- A lookup that was not in is replaced. -/
theorem Tallied.setResolver {c : Config} {s : State} (h : Tallied c s) {feed : Feed} {b : Bool}
    {r : Resolver} (hb : (s.resolver b).isIn = false)
    (hpassed : feed.passedACL = s.feed.passedACL + r.passed c)
    (herr : ∀ isV6 e, feed.err isV6 = some e → s.feed.err isV6 = some e ∨
      isV6 = b ∧ r.isIn = true ∧ r.answer = some (.error e)) :
    Tallied c ({ s with feed := feed }.setResolver b r) := by
  refine ⟨?_, ?_⟩
  · show feed.passedACL = (Function.update s.resolver b r true).passed c +
      (Function.update s.resolver b r false).passed c
    rw [hpassed, h.passed]
    cases b with
    | false =>
      rw [Resolver.passed_eq_zero hb, Function.update_self, Function.update_of_ne (by simp)]
      rfl
    | true =>
      rw [Resolver.passed_eq_zero hb, Function.update_self, Function.update_of_ne (by simp)]
      omega
  · intro isV6 e he
    show (Function.update s.resolver b r isV6).isIn = true ∧
      (Function.update s.resolver b r isV6).answer = some (.error e)
    rcases herr isV6 e he with hold | ⟨rfl, hnew⟩
    · have hin := h.err isV6 e hold
      have hne : isV6 ≠ b := by
        rintro rfl
        exact absurd hin.1 (by simp [hb])
      rw [Function.update_of_ne hne]
      exact hin
    · rw [Function.update_self]
      exact hnew

theorem err_resolve_error (c : Config) (b : Bool) (f : Feed) (err : NetError) (isV6 : Bool) :
    (f.resolve c b (.error err)).1.err isV6 = if isV6 = b then some err else f.err isV6 := by
  cases b <;> cases isV6 <;> rfl

theorem Tallied.resolve {c : Config} {s : State} (h : Tallied c s) {b : Bool} {answer : Answer}
    (hpc : s.resolver b = { pc := .answered, answer := some answer }) :
    Tallied c ({ s with feed := (s.feed.resolve c b answer).1 }.setResolver b
      { pc := .admitted (s.feed.resolve c b answer).2, answer := some answer }) := by
  refine h.setResolver (by rw [hpc]; rfl) ?_ ?_
  · cases answer with
    | error err => cases b <;> rfl
    | ok addrs => exact (tally_resolve_ok c b s.feed addrs).1
  · intro isV6 e he
    cases answer with
    | error err =>
      rw [err_resolve_error] at he
      split_ifs at he with hb
      · exact .inr ⟨hb, rfl, by rw [Option.some_inj.mp he]⟩
      · exact .inl he
    | ok addrs =>
      rw [(tally_resolve_ok c b s.feed addrs).2] at he
      exact .inl he

/-- **The counters of the feed agree with the answers** in every state of a race. -/
theorem tallied {c : Config} {s : State} (h : Reaches c s) : Tallied c s := by
  refine h.induction_on_move (fun _ => ⟨rfl, fun isV6 e he => ?_⟩) ?_
  · cases isV6 <;> exact absurd he nofun
  intro s e s' ih hm
  cases hm with
  | resolve b answer hpc => exact ih.resolve hpc
  | lookupDone b answer hpc =>
    refine ih.setResolver (by rw [Resolver.isIn, hpc]) ?_ fun isV6 e he => .inl he
    rw [Resolver.passed_eq_zero rfl]
    rfl
  | pulse b added answer hpc =>
    refine ih.of_same (by cases added <;> rfl) (by cases added <;> rfl) fun b' => ?_
    show (Function.update s.resolver b _ b').answer = _ ∧
      (Function.update s.resolver b _ b').isIn = _
    by_cases hb : b' = b
    · rw [hb, Function.update_self, hpc]
      exact ⟨rfl, rfl⟩
    · rw [Function.update_of_ne hb]
      exact ⟨rfl, rfl⟩
  | advancePop b | advanceBlank b =>
    cases b <;> exact ih.of_same rfl rfl fun _ => ⟨rfl, rfl⟩
  | selectFailure =>
    refine ih.of_same ?_ ?_ fun b => ?_
    · rw [shrinkWindow_feed]
      rfl
    · rw [shrinkWindow_feed]
      rfl
    · rw [shrinkWindow_resolver]
      exact ⟨rfl, rfl⟩
  | _ => exact ih.of_same rfl rfl fun _ => ⟨rfl, rfl⟩

/-! ## Policy failures -/

def RaceError.isPolicy : RaceError → Bool
  | .policy _ => true
  | _ => false

/-- What is offered blames the policy only if the dial did. -/
theorem isPolicy_offer {conn : Option ℕ} {err : Option RaceError} {attemptErr : Option NetError}
    (h : ∀ e, err = some e → e.isPolicy = false) :
    ∀ e, (offer conn err attemptErr).2 = some e → e.isPolicy = false := by
  intro e he
  cases attemptErr with
  | some e' =>
    obtain rfl : RaceError.net e' = e := by cases conn <;> exact Option.some_inj.mp he
    rfl
  | none =>
    cases err with
    | some err =>
      obtain rfl : err = e := by cases conn <;> exact Option.some_inj.mp he
      exact h err rfl
    | none =>
      cases conn with
      | none =>
        rw [← Option.some_inj.mp he]
        rfl
      | some conn => exact absurd he (by simp [offer])

/-- No attempt blames the policy. -/
theorem isPolicy_of_attempt {c : Config} {s : State} (h : Reaches c s) :
    ∀ a ∈ s.attempts, ∀ conn err,
      a.pc = .dialed conn (some err) ∨ a.pc = .offering conn (some err) → err.isPolicy = false := by
  refine forall_attempts (P := fun pc => ∀ conn err,
    pc = .dialed conn (some err) ∨ pc = .offering conn (some err) →
      err.isPolicy = false) h (by simp)
    (by simp) ?_ ?_
  · rintro conn err conn' err' (heq | heq)
    · obtain ⟨e, -, rfl⟩ := Option.map_eq_some_iff.mp (AttemptPc.dialed.inj heq).2
      rfl
    · exact absurd heq (by simp)
  · rintro conn err attemptErr ih conn' err' (heq | heq)
    · exact absurd heq (by simp)
    · refine isPolicy_offer (fun e he => ?_) err' (AttemptPc.offering.inj heq).2
      rw [he] at ih
      exact ih conn e (.inl rfl)

/-- So the last error does not either. -/
theorem isPolicy_of_lastErr {c : Config} {s : State} (h : Reaches c s) :
    ∀ err, s.lastErr = some err → err.isPolicy = false := by
  refine h.invariant_of_invariant (P := fun s => ∀ err, s.lastErr = some err → err.isPolicy = false)
    (fun s hs => isPolicy_of_attempt hs) (fun _ => nofun) ?_
  intro s e s' hattempts ih hm
  cases hm with
  | selectFailure i a err keepTick hsched ha hpc =>
    obtain ⟨window, timer, tick, heq⟩ := shrinkWindow_eq ({ s with
      pending := s.pending - 1
      lastErr := err
      trace := s.trace ++ [Obs.failure s.now]
      sched := .top }.setAttempt i { a with pc := .finished }) keepTick
    rw [heq]
    rintro err' rfl
    exact hattempts a (List.mem_of_getElem? ha) none err' (.inr hpc)
  | _ => exact ih

/-- A step that returns a policy failure. -/
theorem exhausted_of_policy {c : Config} {s s' : State} {e : Event} {conn : Option ℕ}
    {failure : PolicyFailure} (h : Reaches c s) (hnot : ∀ conn err, s.sched ≠ .returned conn err)
    (hm : Move c s e s') (hret : s'.sched = .returned conn (some (.policy failure))) :
    s.feed.closed = true ∧ s.feed.finalError 0 none = .policy failure := by
  rcases return_cases hnot hm hret with ⟨-, -, herr, hclosed, -⟩ | ⟨-, -, x, -, herr⟩ |
    ⟨k, -, -, herr⟩
  · refine ⟨hclosed, ?_⟩
    have hfinal := (Option.some_inj.mp herr).symm
    rcases Nat.eq_zero_or_pos s.started with hzero | hpos
    · rw [hzero] at hfinal
      exact hfinal
    · rw [Feed.finalError, if_pos hpos] at hfinal
      cases hlast : s.lastErr with
      | none => exact absurd (hlast ▸ hfinal) (by simp)
      | some err =>
        rw [hlast, Option.getD_some] at hfinal
        exact absurd (isPolicy_of_lastErr h err hlast) (by simp [hfinal, RaceError.isPolicy])
  · exact absurd (Option.some_inj.mp herr) nofun
  · exact absurd herr nofun

end Dial
end ForwardProxy
