import Mathlib.Algebra.Group.Nat.Defs
import Mathlib.Data.Nat.Size
import Mathlib.Tactic.ByContra

/-!
# Reporting at powers of two

A counter that is reported only when it reaches a power of two is reported seldom, and yet the last
report is never off by a factor of two.  The test is the usual one, `n &&& (n - 1) = 0`.

* `and_pred_eq_zero_iff`: the test finds exactly the powers of two;
* `powersUpTo n`: the reports of a counter that has gone up to `n`, with `powersUpTo_succ` for one
  more step of the counter.
-/

namespace ForwardProxy
namespace Core

/-- The test passes for the powers of two only. -/
theorem and_pred_eq_zero_iff {n : ℕ} (hn : n ≠ 0) : n &&& (n - 1) = 0 ↔ ∃ k, n = 2 ^ k := by
  constructor
  · intro hand
    refine ⟨n.log2, ?_⟩
    by_contra hne
    -- both `n` and `n - 1` have the highest bit of `n`
    have hle : 2 ^ n.log2 ≤ n := Nat.log2_self_le hn
    have hlt : n < 2 ^ (n.log2 + 1) := Nat.lt_log2_self
    have hbit : ∀ m, 2 ^ n.log2 ≤ m → m < 2 ^ (n.log2 + 1) → m.testBit n.log2 = true := by
      intro m hm hm'
      rw [Nat.testBit_eq_decide_div_mod_eq, decide_eq_true_eq]
      have hdiv : m / 2 ^ n.log2 = 1 := by
        rw [Nat.div_eq_iff (Nat.two_pow_pos _)]
        rw [Nat.pow_succ] at hm'
        omega
      rw [hdiv]
    have htest : (n &&& (n - 1)).testBit n.log2 = true := by
      rw [Nat.testBit_and, hbit n hle hlt, hbit (n - 1) (by omega) (by omega)]
      rfl
    rw [hand, Nat.zero_testBit] at htest
    cases htest
  · rintro ⟨k, rfl⟩
    rw [Nat.and_two_pow_sub_one_eq_mod, Nat.mod_self]

/-- The powers of two up to a number. -/
def powersUpTo (n : ℕ) : List ℕ := (List.range n.size).map (2 ^ ·)

@[simp] theorem powersUpTo_zero : powersUpTo 0 = [] := rfl

@[simp] theorem length_powersUpTo (n : ℕ) : (powersUpTo n).length = n.size := by
  rw [powersUpTo, List.length_map, List.length_range]

/-- The counter reaches the next number. -/
theorem powersUpTo_succ (n : ℕ) :
    powersUpTo (n + 1) = powersUpTo n ++ if (n + 1) &&& n = 0 then [n + 1] else [] := by
  have hmono : n.size ≤ (n + 1).size := Nat.size_le_size (Nat.le_succ n)
  by_cases hpow : (n + 1) &&& n = 0
  · obtain ⟨k, hk⟩ : ∃ k, n + 1 = 2 ^ k := (and_pred_eq_zero_iff (Nat.succ_ne_zero n)).mp hpow
    have hsize : n.size = k := by
      refine Nat.le_antisymm (Nat.size_le.mpr (by omega)) ?_
      rcases Nat.eq_zero_or_pos k with rfl | hpos
      · exact Nat.zero_le _
      · rw [← Nat.succ_pred_eq_of_pos hpos, Nat.succ_le_iff, Nat.lt_size]
        have htwo : 2 ^ k = 2 * 2 ^ (k - 1) := by
          rw [← Nat.pow_succ', Nat.succ_eq_add_one, Nat.sub_add_cancel hpos]
        have hone : 1 ≤ 2 ^ (k - 1) := Nat.one_le_two_pow
        show 2 ^ (k - 1) ≤ n
        omega
    rw [if_pos hpow, powersUpTo, hk, Nat.size_pow, List.range_succ, List.map_append,
      powersUpTo, hsize]
    rfl
  · have hsize : (n + 1).size = n.size := by
      refine Nat.le_antisymm (Nat.size_le.mpr ?_) hmono
      refine Nat.lt_of_le_of_ne (Nat.succ_le_of_lt n.lt_size_self) fun heq => hpow ?_
      exact (and_pred_eq_zero_iff (Nat.succ_ne_zero n)).mpr ⟨n.size, heq⟩
    rw [if_neg hpow, powersUpTo, hsize, List.append_nil, powersUpTo]

/-- The last report is never off by a factor of two. -/
theorem exists_mem_powersUpTo {n : ℕ} (hn : n ≠ 0) : ∃ k ∈ powersUpTo n, k ≤ n ∧ n < 2 * k := by
  have hpos : 0 < n.size := Nat.size_pos.mpr (Nat.pos_of_ne_zero hn)
  refine ⟨2 ^ (n.size - 1), ?_, ?_, ?_⟩
  · exact List.mem_map.mpr ⟨n.size - 1, List.mem_range.mpr (Nat.sub_lt hpos Nat.one_pos), rfl⟩
  · exact Nat.lt_size.mp (Nat.sub_lt hpos Nat.one_pos)
  · have htwo : 2 * 2 ^ (n.size - 1) = 2 ^ n.size := by
      rw [← Nat.pow_succ', Nat.succ_eq_add_one, Nat.sub_add_cancel hpos]
    exact htwo ▸ n.lt_size_self

end Core
end ForwardProxy
