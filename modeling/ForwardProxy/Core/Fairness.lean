import ForwardProxy.Core.Transition
import Mathlib.Data.List.GetD

/-!
# Runs that do not end

`Exec step` is an infinite run of a guarded step function.  Two rules go together.

* `runFrom_work_le`: if every step that is work is paid for by a rank, up to a credit that the state
  shows, then a run has no more work than the rank at its start and the credit at its end allow.
* `Exec.exists_goal`: an execution with bounded work, in which some work follows as long as the goal
  is not reached, reaches the goal.

`Exec.ofRun` makes an execution of a run that ends in a state where nothing has to happen any more.
-/

namespace ForwardProxy
namespace Core

variable {σ ε : Type*} {step : σ → ε → Option σ}

/-- **The rule for work on credit.** -/
theorem runFrom_work_le {P : σ → Prop} (rank credit : σ → ℕ) (work : ε → Bool)
    (hstep : ∀ s e s', P s → step s e = some s' →
      P s' ∧ rank s' + (if work e then 1 else 0) + credit s ≤ rank s + credit s')
    {s s' : σ} {es : List ε} (hs : P s) (h : runFrom step s es = some s') :
    rank s' + es.countP work + credit s ≤ rank s + credit s' := by
  induction es generalizing s with
  | nil =>
    rw [runFrom_nil] at h
    rw [← Option.some_inj.mp h]
    exact Nat.le_refl _
  | cons e es ih =>
    rw [runFrom_cons, Option.bind_eq_some_iff] at h
    obtain ⟨t, ht, hrun⟩ := h
    obtain ⟨hP, hle⟩ := hstep s e t hs ht
    have hrest := ih hP hrun
    rw [List.countP_cons]
    omega

variable (step) in
/-- An infinite run. -/
structure Exec where
  state : ℕ → σ
  label : ℕ → ε
  step_eq : ∀ n, step (state n) (label n) = some (state (n + 1))

namespace Exec

variable (x : Exec step)

/-- The first labels. -/
def take (n : ℕ) : List ε := (List.range n).map x.label

theorem take_succ (n : ℕ) : x.take (n + 1) = x.take n ++ [x.label n] := by
  rw [take, List.range_succ, List.map_append, take]
  rfl

theorem runFrom_take (n : ℕ) : runFrom step (x.state 0) (x.take n) = some (x.state n) := by
  induction n with
  | zero => rfl
  | succ n ih =>
    rw [take_succ, runFrom_append, ih, Option.bind_some, runFrom_cons, x.step_eq]
    rfl

/-- A property kept by every enabled step holds at all times. -/
theorem invariant {P : σ → Prop} (hstep : ∀ s e s', P s → step s e = some s' → P s') {n m : ℕ}
    (hnm : n ≤ m) (hn : P (x.state n)) : P (x.state m) := by
  induction hnm with
  | refl => exact hn
  | step _ ih => exact hstep _ _ _ ih (x.step_eq _)

theorem countP_take_mono (work : ε → Bool) {n m : ℕ} (hnm : n ≤ m) :
    (x.take n).countP work ≤ (x.take m).countP work := by
  induction hnm with
  | refl => exact Nat.le_refl _
  | step _ ih =>
    rw [take_succ, List.countP_append]
    exact Nat.le_trans ih (Nat.le_add_right _ _)

/-- **The rule for reaching a goal.**  If the work of all beginnings is bounded, and work follows
wherever the goal is not reached, the goal is reached. -/
theorem exists_goal {G : σ → Prop} {work : ε → Bool} {bound : ℕ}
    (hbound : ∀ n, (x.take n).countP work ≤ bound)
    (hwork : ∀ n, ¬ G (x.state n) → ∃ m, n ≤ m ∧ work (x.label m) = true) : ∃ n, G (x.state n) := by
  by_contra hnone
  push Not at hnone
  -- every number of work steps is exceeded at some time
  have hmany : ∀ k, ∃ n, k ≤ (x.take n).countP work := by
    intro k
    induction k with
    | zero => exact ⟨0, Nat.zero_le _⟩
    | succ k ih =>
      obtain ⟨n, hn⟩ := ih
      obtain ⟨m, hnm, hm⟩ := hwork n (hnone n)
      refine ⟨m + 1, ?_⟩
      rw [take_succ, List.countP_append, List.countP_singleton, if_pos hm]
      exact Nat.add_le_add_right (Nat.le_trans hn (x.countP_take_mono work hnm)) 1
  obtain ⟨n, hn⟩ := hmany (bound + 1)
  exact absurd (Nat.le_trans hn (hbound n)) (Nat.not_succ_le_self bound)

/-- A run that ends in a state where an idle step is possible, with that step for ever. -/
def ofRun {init s : σ} {es : List ε} (h : runFrom step init es = some s) {idle : ε}
    (hidle : step s idle = some s) : Exec step where
  state n := (runFrom step init (es.take n)).getD s
  label n := es.getD n idle
  step_eq n := by
    by_cases hn : n < es.length
    · -- within the run
      have hsplit := h
      rw [← List.take_append_drop n es, runFrom_append, Option.bind_eq_some_iff] at hsplit
      obtain ⟨t, ht, hrest⟩ := hsplit
      rw [List.drop_eq_getElem_cons hn, runFrom_cons, Option.bind_eq_some_iff] at hrest
      obtain ⟨t', ht', -⟩ := hrest
      have hnext : runFrom step init (es.take (n + 1)) = some t' := by
        rw [List.take_succ_eq_append_getElem hn, runFrom_append, ht, Option.bind_some,
          runFrom_cons, ht']
        rfl
      rw [ht, hnext, List.getD_eq_getElem _ _ hn]
      exact ht'
    · have hlength : es.length ≤ n := Nat.le_of_not_lt hn
      rw [List.take_of_length_le hlength, List.take_of_length_le (Nat.le_succ_of_le hlength), h,
        List.getD_eq_default _ _ hlength]
      exact hidle

theorem ofRun_state_of_le {init s : σ} {es : List ε} (h : runFrom step init es = some s) {idle : ε}
    (hidle : step s idle = some s) {n : ℕ} (hn : es.length ≤ n) : (ofRun h hidle).state n = s := by
  show (runFrom step init (es.take n)).getD s = s
  rw [List.take_of_length_le hn, h, Option.getD_some]

end Exec

end Core
end ForwardProxy
