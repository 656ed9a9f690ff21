import ForwardProxy.Dial.Race
import Mathlib.Data.List.Count

/-!
# Who owns a connection

A connection that `h.dialContext` produces passes through several hands: the attempt that
dialled it, the scheduler that received it, the caller it was returned to; or someone calls
`Close` on it.  The whole of the ownership discipline of the race is one equation
(`Accounted`): for every connection, the number of times it was closed, the number of
attempts that hold it and the number of times the scheduler holds or has returned it add up
to one if the connection was ever produced, and to zero otherwise.

No move changes the sum, except that a dial that returns a connection produces one
(`accounted_of_move`).  When the scheduler has returned and every attempt has finished,
nobody holds anything any more, and the equation says that each connection was either
returned or closed exactly once.
-/

namespace ForwardProxy
namespace Dial

open ForwardProxy.Core

/-! ## Counting what is held -/

/-- Replacing one entry of a list replaces what it contributes to a concatenation. -/
theorem count_flatMap_set {α β : Type*} [BEq β] (f : α → List β) (a' : α) (b : β) :
    ∀ {l : List α} {i : ℕ} {a : α}, l[i]? = some a →
      ((l.set i a').flatMap f).count b + (f a).count b =
        (l.flatMap f).count b + (f a').count b
  | [], i, a, h => by simp at h
  | x :: l, 0, a, h => by
    have hx : x = a := by simpa using h
    subst hx
    simp only [List.set_cons_zero, List.flatMap_cons, List.count_append]
    omega
  | x :: l, i + 1, a, h => by
    have ih := count_flatMap_set f a' b (l := l) (i := i) (a := a) (by simpa using h)
    simp only [List.set_cons_succ, List.flatMap_cons, List.count_append]
    omega

/-- The connection an attempt holds. -/
def AttemptPc.held : AttemptPc → List ℕ
  | .dialed conn _ => conn.toList
  | .offering conn _ => conn.toList
  | _ => []

@[simp] theorem AttemptPc.held_dialing : AttemptPc.dialing.held = [] := rfl

@[simp] theorem AttemptPc.held_dialed (conn : Option ℕ) (err : Option RaceError) :
    (AttemptPc.dialed conn err).held = conn.toList := rfl

@[simp] theorem AttemptPc.held_offering (conn : Option ℕ) (err : Option RaceError) :
    (AttemptPc.offering conn err).held = conn.toList := rfl

@[simp] theorem AttemptPc.held_finished : AttemptPc.finished.held = [] := rfl

/-- The connection the scheduler holds or has returned. -/
def SchedPc.held : SchedPc → List ℕ
  | .received conn => [conn]
  | .returned conn _ => conn.toList
  | _ => []

/-- The connections that some attempts hold. -/
def heldBy (attempts : List Attempt) : List ℕ := attempts.flatMap fun a => a.pc.held

/-- **The account of every connection**: closed, held by an attempt, or held or returned by
the scheduler, exactly once in all if it was ever produced. -/
def Accounted (s : State) : Prop :=
  ∀ k, s.closes.count k + (heldBy s.attempts).count k + s.sched.held.count k =
    if k < s.produced then 1 else 0

/-- What the attempts hold after one of them has moved on. -/
theorem count_heldBy_set {l : List Attempt} {i : ℕ} {a : Attempt} (ha : l[i]? = some a)
    (pc : AttemptPc) (k : ℕ) :
    (heldBy (l.set i { a with pc := pc })).count k + a.pc.held.count k =
      (heldBy l).count k + pc.held.count k :=
  count_flatMap_set (fun a : Attempt => a.pc.held) { a with pc := pc } k ha

/-- What an attempt closes and what it offers are, together, what its dial produced. -/
theorem count_offer (conn : Option ℕ) (err : Option RaceError) (attemptErr : Option NetError)
    (k : ℕ) :
    (discarded conn err attemptErr).toList.count k + (offer conn err attemptErr).1.toList.count k =
      conn.toList.count k := by
  cases conn <;> cases err <;> cases attemptErr <;> simp [discarded, offer]

/-! ## Every move keeps the account -/

theorem accounted_init (now : ℕ) : Accounted (init now) := by
  intro k
  simp [init, heldBy, SchedPc.held]

/-- A move that leaves the connections where they are keeps the account. -/
theorem accounted_of_same {s s' : State} (h : Accounted s) (hcloses : s'.closes = s.closes)
    (hheld : heldBy s'.attempts = heldBy s.attempts) (hsched : s'.sched.held = s.sched.held)
    (hproduced : s'.produced = s.produced) : Accounted s' := by
  intro k
  rw [hcloses, hheld, hsched, hproduced]
  exact h k

theorem accounted_of_move {c : Config} {s s' : State} {e : Event} (h : Accounted s)
    (hm : Move c s e s') : Accounted s' := by
  cases hm with
  | elapse | fire | cancel | lookupDone | resolve | pulse | closeFeed | closePulse => exact h
  | dialDone i a conn err ha hpc =>
    intro k
    have hk := h k
    have hset := count_heldBy_set ha
      (.dialed (if conn then some s.produced else none) (err.map .net)) k
    rw [hpc] at hset
    cases conn with
    | false =>
      simp only [AttemptPc.held_dialed, AttemptPc.held_dialing, Bool.false_eq_true, if_false,
        Option.toList_none, List.count_nil, Bool.toNat_false, add_zero] at hset ⊢
      rw [hset]
      exact hk
    | true =>
      simp only [AttemptPc.held_dialed, AttemptPc.held_dialing, if_true, Option.toList_some,
        List.count_singleton, List.count_nil, beq_iff_eq, Bool.toNat_true] at hset ⊢
      split_ifs at hk hset ⊢ <;> omega
  | settle i a conn err attemptErr ha hpc hok =>
    intro k
    have hoffer := count_offer conn err attemptErr k
    have hset := count_heldBy_set ha
      (.offering (offer conn err attemptErr).1 (offer conn err attemptErr).2) k
    rw [hpc, AttemptPc.held_dialed, AttemptPc.held_offering] at hset
    refine Eq.trans ?_ (h k)
    simp only [State.close, State.setAttempt, List.count_append]
    omega
  | giveUp i a conn err ha hpc hctx =>
    intro k
    have hset := count_heldBy_set ha .finished k
    rw [hpc, AttemptPc.held_offering, AttemptPc.held_finished, List.count_nil] at hset
    refine Eq.trans ?_ (h k)
    simp only [State.close, State.setAttempt, List.count_append]
    omega
  | start addr hsched =>
    refine accounted_of_same h rfl ?_ (by rw [hsched]; rfl) rfl
    simp [heldBy]
  | selectConn i a conn err keepTick hsched ha hpc =>
    intro k
    have hset := count_heldBy_set ha .finished k
    rw [hpc, AttemptPc.held_offering, AttemptPc.held_finished, Option.toList_some,
      List.count_nil] at hset
    refine Eq.trans ?_ (h k)
    simp only [hsched, State.setAttempt, SchedPc.held, List.count_nil]
    omega
  | selectFailure i a err keepTick hsched ha hpc =>
    intro k
    have hset := count_heldBy_set ha .finished k
    rw [hpc, AttemptPc.held_offering, AttemptPc.held_finished, Option.toList_none,
      List.count_nil] at hset
    rw [shrinkWindow_closes, shrinkWindow_attempts, shrinkWindow_sched, shrinkWindow_produced]
    refine Eq.trans ?_ (h k)
    simp only [hsched, State.setAttempt, SchedPc.held, List.count_nil]
    omega
  | discardWinner conn err hsched hctx =>
    intro k
    refine Eq.trans ?_ (h k)
    simp only [hsched, State.ret, State.close, SchedPc.held, List.count_append,
      Option.toList_some, Option.toList_none, List.count_nil]
    omega
  -- the rest moves the scheduler from one place where it holds nothing to another
  | computeDue hsched => exact accounted_of_same h rfl rfl (by rw [hsched]; rfl) rfl
  | advancePop _ _ _ hsched => exact accounted_of_same h rfl rfl (by rw [hsched]; rfl) rfl
  | advanceBlank _ _ hsched => exact accounted_of_same h rfl rfl (by rw [hsched]; rfl) rfl
  | advanceEnd _ hsched => exact accounted_of_same h rfl rfl (by rw [hsched]; rfl) rfl
  | advanceBlock _ hsched => exact accounted_of_same h rfl rfl (by rw [hsched]; rfl) rfl
  | checkCtxDone _ _ hsched => exact accounted_of_same h rfl rfl (by rw [hsched]; rfl) rfl
  | checkCtx _ hsched => exact accounted_of_same h rfl rfl (by rw [hsched]; rfl) rfl
  | stamp _ _ hsched => exact accounted_of_same h rfl rfl (by rw [hsched]; rfl) rfl
  | selectCtx _ hsched => exact accounted_of_same h rfl rfl (by rw [hsched]; rfl) rfl
  | selectWake hsched => exact accounted_of_same h rfl rfl (by rw [hsched]; rfl) rfl
  | selectTick hsched => exact accounted_of_same h rfl rfl (by rw [hsched]; rfl) rfl
  | returnWinner _ hsched => exact accounted_of_same h rfl rfl (by rw [hsched]; rfl) rfl

theorem accounted {c : Config} {s : State} (h : Reaches c s) : Accounted s :=
  h.induction_on_move accounted_init fun _ _ _ => accounted_of_move

/-- A connection is returned without an error only. -/
theorem err_eq_none_of_returned {c : Config} {s : State} (h : Reaches c s) :
    ∀ conn err, s.sched = .returned (some conn) err → err = none := by
  refine h.induction_on_move (P := fun s => ∀ conn err, s.sched = .returned (some conn) err →
    err = none) (by simp [init]) ?_
  intro s e s' ih hm conn err hret
  cases hm with
  | elapse | fire | cancel | lookupDone | resolve | pulse | closeFeed | closePulse | dialDone
  | settle | giveUp => exact ih conn err hret
  | selectFailure => exact absurd hret (by simp [State.setAttempt])
  | returnWinner => exact (SchedPc.returned.inj hret).2.symm
  | _ => exact absurd hret (by simp [State.ret, State.resetTimer, State.setAttempt])

theorem heldBy_eq_nil {attempts : List Attempt} (h : ∀ a ∈ attempts, a.pc = .finished) :
    heldBy attempts = [] := by
  rw [heldBy, List.flatMap_eq_nil_iff]
  intro a ha
  rw [h a ha, AttemptPc.held_finished]

/-- **Every connection has exactly one end.**  When the scheduler has returned and every
attempt has finished, each connection that was produced is the returned one and was never
closed, or is not the returned one and was closed exactly once; nothing else was closed or
returned, a connection is returned without an error, and the result does not change any
more. -/
theorem returned_or_closed_once {c : Config} {s : State} (h : Reaches c s) {conn : Option ℕ}
    {err : Option RaceError} (hret : s.sched = .returned conn err)
    (hfin : ∀ a ∈ s.attempts, a.pc = .finished) :
    (∀ k < s.produced, (conn = some k ∧ s.closes.count k = 0) ∨
      (conn ≠ some k ∧ s.closes.count k = 1)) ∧
    (∀ k, k ∈ s.closes ∨ conn = some k → k < s.produced) ∧
    (conn ≠ none → err = none) ∧
    (∀ e s', step c s e = some s' → s'.sched = .returned conn err) := by
  have hacc : ∀ k, s.closes.count k + conn.toList.count k = if k < s.produced then 1 else 0 := by
    intro k
    have hk := accounted h k
    rw [heldBy_eq_nil hfin, hret, List.count_nil, add_zero] at hk
    exact hk
  have hone : ∀ k, conn = some k → conn.toList.count k = 1 := by
    rintro k rfl
    simp
  refine ⟨?_, ?_, ?_, ?_⟩
  · intro k hk
    have hsum := hacc k
    rw [if_pos hk] at hsum
    by_cases hc : conn = some k
    · exact Or.inl ⟨hc, by rw [hone k hc] at hsum; omega⟩
    · have hzero : conn.toList.count k = 0 := by
        rw [List.count_eq_zero]
        simpa using hc
      exact Or.inr ⟨hc, by omega⟩
  · intro k hk
    by_contra hge
    have hsum := hacc k
    rw [if_neg hge] at hsum
    rcases hk with hmem | hc
    · have := List.count_pos_iff.mpr hmem
      omega
    · rw [hone k hc] at hsum
      omega
  · intro hc
    obtain ⟨k, rfl⟩ := Option.ne_none_iff_exists'.mp hc
    exact err_eq_none_of_returned h k err hret
  · intro e s' hs
    exact sched_eq_of_returned hret (move_of_step hs)

/-- The run in which the loser succeeds too late: the winner is returned and open, the
loser is closed. -/
theorem returned_or_closed_once_lateLoser :
    (stateAfter twoFamilies lateLoser).sched = .returned (some 1) none ∧
      ∀ k < 2, (some 1 = some k ∧ (stateAfter twoFamilies lateLoser).closes.count k = 0) ∨
        (some 1 ≠ some k ∧ (stateAfter twoFamilies lateLoser).closes.count k = 1) := by
  have hret : (stateAfter twoFamilies lateLoser).sched = .returned (some 1) none := by decide
  exact ⟨hret, (returned_or_closed_once (c := twoFamilies) (reaches_stateAfter (by decide)) hret
    (by decide)).1⟩

end Dial
end ForwardProxy
