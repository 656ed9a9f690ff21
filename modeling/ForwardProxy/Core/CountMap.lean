import Mathlib.Algebra.BigOperators.Ring.Finset
import Mathlib.Data.List.AList

/-!
# Maps that count

A map from keys to integers that is only ever incremented and decremented, and that drops a key
when its count comes down to zero, counts the occurrences of each key in some list
(`Counts m l`).  A key with no occurrence then has no entry, and the entries add up to the
length of the list.
-/

namespace ForwardProxy
namespace Core

variable {α : Type*} [DecidableEq α]

/-- A map from keys to counters. -/
abbrev CountMap (α : Type*) := AList fun _ : α => ℤ

namespace CountMap

/-- The counter of a key, which is zero if there is none. -/
def get (m : CountMap α) (a : α) : ℤ := (m.lookup a).getD 0

/-- `m[a]++`. -/
def increment (m : CountMap α) (a : α) : CountMap α := m.insert a (m.get a + 1)

/-- `m[a]--`, and the key is deleted if this makes it zero. -/
def decrement (m : CountMap α) (a : α) : CountMap α :=
  let m' : CountMap α := m.insert a (m.get a - 1)
  if m'.get a = 0 then m'.erase a else m'

/-- The sum of the counters. -/
def total (m : CountMap α) : ℤ := (m.entries.map Sigma.snd).sum

/-- How often a key occurs in a list. -/
def occurrences (l : List α) (a : α) : ℕ := l.countP fun b => b = a

theorem occurrences_append_singleton (l : List α) (a b : α) :
    occurrences (l ++ [a]) b = occurrences l b + if b = a then 1 else 0 := by
  rw [occurrences, List.countP_append, List.countP_singleton,
    if_congr (decide_eq_true_iff.trans eq_comm) rfl rfl, occurrences]

/-- The map counts the occurrences of the keys in a list. -/
def Counts (m : CountMap α) (l : List α) : Prop :=
  ∀ a, m.lookup a = if occurrences l a = 0 then none else some (occurrences l a : ℤ)

theorem counts_empty : Counts (∅ : CountMap α) [] := by
  intro a
  exact AList.lookup_empty a

/-- Only the counts of the list matter. -/
theorem Counts.of_count {m : CountMap α} {l l' : List α} (h : Counts m l)
    (hl : ∀ a, occurrences l' a = occurrences l a) : Counts m l' := by
  intro a
  rw [hl a]
  exact h a

theorem Counts.get {m : CountMap α} {l : List α} (h : Counts m l) (a : α) :
    m.get a = occurrences l a := by
  rw [CountMap.get, h a]
  by_cases hz : occurrences l a = 0
  · rw [if_pos hz, hz]
    rfl
  · rw [if_neg hz]
    rfl

theorem Counts.increment {m : CountMap α} {l l' : List α} {a : α} (h : Counts m l)
    (hl : ∀ b, occurrences l' b = occurrences l b + if b = a then 1 else 0) :
    Counts (m.increment a) l' := by
  intro b
  rw [hl b, CountMap.increment, h.get]
  by_cases hb : b = a
  · subst hb
    rw [AList.lookup_insert, if_pos rfl, if_neg (Nat.succ_ne_zero _)]
    push_cast
    rfl
  · rw [AList.lookup_insert_ne hb, if_neg hb, Nat.add_zero]
    exact h b

theorem Counts.decrement {m : CountMap α} {l l' : List α} {a : α} (h : Counts m l)
    (hl : ∀ b, occurrences l b = occurrences l' b + if b = a then 1 else 0) :
    Counts (m.decrement a) l' := by
  have hpred : m.get a - 1 = occurrences l' a := by
    rw [h.get, hl a, if_pos rfl]
    push_cast
    exact add_sub_cancel_right ..
  have hget : CountMap.get (m.insert a (m.get a - 1)) a = occurrences l' a := by
    rw [CountMap.get, AList.lookup_insert, Option.getD_some, hpred]
  intro b
  by_cases hb : b = a
  · subst hb
    rw [CountMap.decrement, hget]
    by_cases hz : occurrences l' b = 0
    · rw [if_pos (by exact_mod_cast hz), if_pos hz, AList.lookup_erase]
    · rw [if_neg (by exact_mod_cast hz), if_neg hz, AList.lookup_insert, hpred]
  · have hcount : occurrences l b = occurrences l' b := by rw [hl b, if_neg hb, Nat.add_zero]
    have hother : (m.decrement a).lookup b = m.lookup b := by
      rw [CountMap.decrement]
      split_ifs
      · rw [AList.lookup_erase_ne hb, AList.lookup_insert_ne hb]
      · rw [AList.lookup_insert_ne hb]
    rw [hother, h b, hcount]

/-- The keys are those that occur. -/
theorem Counts.mem_keys {m : CountMap α} {l : List α} (h : Counts m l) {a : α} :
    a ∈ m.keys ↔ a ∈ l := by
  have hmem : a ∈ l ↔ occurrences l a ≠ 0 := by
    rw [occurrences, Ne, List.countP_eq_zero]
    simp
  rw [← AList.mem_keys, ← AList.lookup_isSome, h a, hmem]
  by_cases hz : occurrences l a = 0
  · simp [hz]
  · simp [hz]

/-- **The entries add up to the length of the list.** -/
theorem Counts.total {m : CountMap α} {l : List α} (h : Counts m l) : m.total = l.length := by
  have hentries : m.entries.map Sigma.snd = m.keys.map fun a => (occurrences l a : ℤ) := by
    rw [AList.keys, List.keys, List.map_map]
    refine List.map_congr_left ?_
    rintro ⟨a, n⟩ hmem
    have hlookup : m.lookup a = some n := AList.mem_lookup_iff.mpr hmem
    have hget := h.get a
    rw [CountMap.get, hlookup] at hget
    exact hget
  have hperm : m.keys.Perm l.dedup :=
    (List.perm_ext_iff_of_nodup m.keys_nodup l.nodup_dedup).mpr fun a => by
      rw [h.mem_keys, List.mem_dedup]
  rw [CountMap.total, hentries, (hperm.map _).sum_eq, ← List.sum_map_count_dedup_eq_length l,
    Nat.cast_list_sum, List.map_map]
  rfl

end CountMap

end Core
end ForwardProxy
