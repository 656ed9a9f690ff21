import Mathlib.Data.List.Forall2
import Mathlib.Data.List.Induction

/-!
# Computations that may fail

Inversion of `Except` computations that succeeded: a sequence, a `mapM` and a fold.  The fold has a
rule of its own, `foldlM_history`, for properties that speak of the elements consumed so far.
-/

namespace ForwardProxy
namespace Core
namespace Result

variable {ε α β σ : Type}

theorem bind_eq_ok_iff {x : Except ε α} {f : α → Except ε β} {b : β} :
    (x >>= f) = .ok b ↔ ∃ a, x = .ok a ∧ f a = .ok b := by
  cases x with
  | error err =>
    refine iff_of_false ?_ ?_
    · rintro ⟨⟩
    · rintro ⟨a, ⟨⟩, -⟩
  | ok a =>
    refine ⟨fun h => ⟨a, rfl, h⟩, ?_⟩
    rintro ⟨a', h, hb⟩
    rwa [← Except.ok.inj h] at hb

theorem map_eq_ok_iff {x : Except ε α} {f : α → β} {b : β} :
    x.map f = .ok b ↔ ∃ a, x = .ok a ∧ f a = b := by
  cases x <;> simp [Except.map]

/-- What follows from the success of either branch follows from the success of the choice. -/
theorem of_ite_eq_ok {p Q : Prop} [Decidable p] {x y : Except ε α} {a : α} (hx : p → x = .ok a → Q)
    (hy : y = .ok a → Q) (h : (if p then x else y) = .ok a) : Q := by
  by_cases hp : p
  · exact hx hp ((if_pos hp).symm.trans h)
  · exact hy ((if_neg hp).symm.trans h)

/-- A successful `mapM` is a successful call for every element. -/
theorem forall₂_of_mapM_eq_ok {f : α → Except ε β} {l : List α} {v : List β}
    (h : l.mapM f = .ok v) : List.Forall₂ (fun a b => f a = .ok b) l v := by
  induction l generalizing v with
  | nil =>
    rw [List.mapM_nil] at h
    rw [← Except.ok.inj h]
    exact .nil
  | cons a l ih =>
    rw [List.mapM_cons] at h
    obtain ⟨b, hb, h⟩ := bind_eq_ok_iff.mp h
    obtain ⟨w, hw, h⟩ := bind_eq_ok_iff.mp h
    rw [← Except.ok.inj h]
    exact .cons hb (ih hw)

/-- **The rule for folds.**  A property of the elements consumed so far and of the value they lead
to, along a fold that succeeds. -/
theorem foldlM_history {f : σ → α → Except ε σ} {P : List α → σ → Prop} {init s : σ} {l : List α}
    (hinit : P [] init)
    (hstep : ∀ l s a s', P l s → f s a = .ok s' → P (l ++ [a]) s')
    (h : l.foldlM f init = .ok s) : P l s := by
  induction l using List.reverseRecOn generalizing s with
  | nil =>
    rw [List.foldlM_nil] at h
    exact Except.ok.inj h ▸ hinit
  | append_singleton l a ih =>
    rw [List.foldlM_append] at h
    obtain ⟨t, ht, h⟩ := bind_eq_ok_iff.mp h
    rw [List.foldlM_cons] at h
    obtain ⟨s', hs', h⟩ := bind_eq_ok_iff.mp h
    rw [List.foldlM_nil] at h
    exact hstep l t a s (ih ht) (Except.ok.inj h ▸ hs')

/-- A fold whose steps succeed on the elements of the list succeeds. -/
theorem exists_foldlM_eq_ok {f : σ → α → Except ε σ} {l : List α}
    (h : ∀ s, ∀ a ∈ l, ∃ s', f s a = .ok s') (init : σ) : ∃ s, l.foldlM f init = .ok s := by
  induction l generalizing init with
  | nil => exact ⟨init, rfl⟩
  | cons a l ih =>
    obtain ⟨s', hs'⟩ := h init a List.mem_cons_self
    obtain ⟨s, hs⟩ := ih (fun t b hb => h t b (List.mem_cons_of_mem a hb)) s'
    refine ⟨s, ?_⟩
    rw [List.foldlM_cons, hs']
    exact hs

end Result
end Core
end ForwardProxy
