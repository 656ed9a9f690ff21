import ForwardProxy.Core.NetIP

/-!
# Letter case does not matter in addresses

The text of an IP address or of a network is read byte by byte, and the only letters in it are
hexadecimal digits, which are read in either case.  So the parsers of `Core.NetIP` give the same
address for two texts that differ in the case of ASCII letters; only a zone keeps its spelling,
and a text with a zone is refused by `net.ParseIP` and `net.ParseCIDR`.
-/

namespace ForwardProxy
namespace Core

/-- The text with its ASCII letters in lower case. -/
def lower (s : GoString) : GoString := s.map lowerByte

/-! ## Bytes -/

theorem lowerByte_lowerByte (c : UInt8) : lowerByte (lowerByte c) = lowerByte c := by
  unfold lowerByte
  grind

theorem hexValue_lowerByte (c : UInt8) : hexValue (lowerByte c) = hexValue c := by
  unfold lowerByte
  split_ifs with h
  · simp only [Bool.and_eq_true, decide_eq_true_eq] at h
    have htoNat : (c + 32).toNat = c.toNat + 32 := by
      rw [UInt8.toNat_add]
      have := UInt8.le_iff_toNat_le.mp h.2
      simp only [UInt8.reduceToNat] at this ⊢
      omega
    unfold hexValue
    simp only [UInt8.le_iff_toNat_le, htoNat, UInt8.reduceToNat, Bool.and_eq_true,
      decide_eq_true_eq]
    have h1 := UInt8.le_iff_toNat_le.mp h.1
    have h2 := UInt8.le_iff_toNat_le.mp h.2
    simp only [UInt8.reduceToNat] at h1 h2
    split_ifs <;> first | omega | rfl
  · rfl

theorem isDigit_lowerByte (c : UInt8) : isDigit (lowerByte c) = isDigit c := by
  unfold isDigit lowerByte
  split_ifs with h
  · simp only [Bool.and_eq_true, decide_eq_true_eq] at h
    grind
  · rfl

theorem lowerByte_of_isDigit {c : UInt8} (h : isDigit c = true) : lowerByte c = c := by
  unfold isDigit at h
  unfold lowerByte
  simp only [Bool.and_eq_true, decide_eq_true_eq] at h
  rw [if_neg]
  grind

/-! ## Strings -/

/-- `strings.ToLower` of ASCII text. -/
theorem toLower_eq_lower {s : GoString} (h : ∀ c ∈ s, c < 128) : toLower s = lower s := by
  induction s using toLower.induct with
  | case1 s ih => exact absurd (h 0xC4 List.mem_cons_self) (by decide)
  | case2 s ih => exact absurd (h 0xE2 List.mem_cons_self) (by decide)
  | case3 c s hpair htriple ih =>
    rw [toLower.eq_3 c s hpair htriple, ih fun d hd => h d (List.mem_cons_of_mem c hd)]
    rfl
  | case4 => rfl

theorem lower_eq_nil_iff {s : GoString} : lower s = [] ↔ s = [] := List.map_eq_nil_iff

theorem length_lower (s : GoString) : (lower s).length = s.length := List.length_map ..

theorem indexByte_lower {d : UInt8} (hd : d < 65) (s : GoString) :
    indexByte (lower s) d = indexByte s d := by
  rw [indexByte, indexByte, lower, List.findIdx?_map]
  congr 1
  funext c
  simp [lowerByte_eq_iff hd]

theorem all_isDigit_lower (s : GoString) : (lower s).all isDigit = s.all isDigit := by
  rw [lower, List.all_map]
  congr 1
  funext c
  exact isDigit_lowerByte c

theorem lower_of_all_isDigit {s : GoString} (h : s.all isDigit = true) : lower s = s := by
  rw [List.all_eq_true] at h
  rw [lower]
  exact (List.map_congr_left fun c hc => lowerByte_of_isDigit (h c hc)).trans (List.map_id s)

theorem split_lower {d : UInt8} (hd : d < 65) (s : GoString) :
    split (lower s) d = (split s d).map lower := by
  unfold split
  induction s with
  | nil => rfl
  | cons c s ih =>
    rw [lower, List.map_cons, List.splitOn_cons_eq_if_modifyHead,
      List.splitOn_cons_eq_if_modifyHead, ← lower, ih]
    simp only [beq_iff_eq, lowerByte_eq_iff hd]
    split_ifs
    · rfl
    · cases List.splitOn d s <;> rfl

/-! ## Addresses -/

theorem parseOctet_lower (s : GoString) : parseOctet (lower s) = parseOctet s := by
  by_cases h : s.all isDigit = true
  · rw [lower_of_all_isDigit h]
  · have h' : ¬ (lower s).all isDigit = true := by rwa [all_isDigit_lower]
    rw [parseOctet, parseOctet, if_pos (Or.inr h), if_pos (Or.inr h')]

theorem parseIPv4Fields_lower (s : GoString) : parseIPv4Fields (lower s) = parseIPv4Fields s := by
  have hcomp : parseOctet ∘ lower = parseOctet := funext parseOctet_lower
  rw [parseIPv4Fields, parseIPv4Fields, split_lower (by decide), List.length_map, List.mapM_map,
    hcomp]

theorem spanHex_lower (s : GoString) :
    spanHex (lower s) = ((spanHex s).1, lower (spanHex s).2) := by
  unfold spanHex lower
  rw [List.takeWhile_map, List.dropWhile_map, List.filterMap_map]
  simp only [Function.comp_def, hexValue_lowerByte]

theorem head?_lower_eq_iff {d : UInt8} (hd : d < 65) (s : GoString) :
    (lower s).head? = some d ↔ s.head? = some d := by
  rw [lower, List.head?_map]
  cases s.head? with
  | none => simp
  | some c => simp [lowerByte_eq_iff hd]

/-- What is left of the text is the only part of the result that has letters. -/
theorem parseGroups_lower (k : ℕ) (s : GoString) (ip : List UInt8) (ell : Option ℕ) :
    parseGroups k (lower s) ip ell =
      (parseGroups k s ip ell).map fun r => (r.1, r.2.1, lower r.2.2) := by
  induction k generalizing s ip ell with
  | zero => rfl
  | succ k ih =>
    unfold parseGroups
    rw [spanHex_lower]
    obtain ⟨ds, rest⟩ := spanHex s
    simp only
    by_cases hds : ds = [] ∨ 4 < ds.length
    · rw [if_pos hds, if_pos hds]
      rfl
    rw [if_neg hds, if_neg hds]
    by_cases hdot : rest.head? = some dot
    · rw [if_pos hdot, if_pos ((head?_lower_eq_iff (by decide) rest).mpr hdot),
        parseIPv4Fields_lower]
      split_ifs
      · rfl
      · cases parseIPv4Fields s <;> rfl
    rw [if_neg hdot, if_neg ((head?_lower_eq_iff (by decide) rest).not.mpr hdot)]
    generalize ip ++ [_, _] = ip'
    rcases rest with _ | ⟨c, s'⟩
    · rfl
    simp only [lower, List.map_cons, ne_eq, lowerByte_eq_iff (show colon < 65 by decide)]
    by_cases hc : c = colon
    · rw [if_neg (not_not.mpr hc), if_neg (not_not.mpr hc)]
      rcases s' with _ | ⟨d, s''⟩
      · rfl
      · simp only [List.map_cons, lowerByte_eq_iff (show colon < 65 by decide), List.map_eq_nil_iff]
        split_ifs
        · rfl
        · rfl
        · exact ih ..
        · exact ih (d :: s'') ..
    · rw [if_pos hc, if_pos hc]
      rfl

theorem expandEllipsis_lower (r : List UInt8 × Option ℕ × GoString) :
    expandEllipsis (r.1, r.2.1, lower r.2.2) = expandEllipsis r := by
  obtain ⟨ip, ell, rest⟩ := r
  unfold expandEllipsis
  simp only [ne_eq, lower_eq_nil_iff]

/-- The groups are read in either case. -/
theorem bind_expandEllipsis_lower (s : GoString) (ell : Option ℕ) :
    (parseGroups 8 (lower s) [] ell).bind expandEllipsis =
      (parseGroups 8 s [] ell).bind expandEllipsis := by
  rw [parseGroups_lower, Option.bind_map]
  exact congrArg _ (funext expandEllipsis_lower)

/-- An address with its zone in lower case. -/
def Addr.lowerZone (a : Addr) : Addr := { a with zone := lower a.zone }

theorem colons_isPrefixOf_lower (s : GoString) :
    [colon, colon].isPrefixOf (lower s) = [colon, colon].isPrefixOf s := by
  have hbyte : ∀ c, (colon == lowerByte c) = (colon == c) := by
    intro c
    rw [Bool.eq_iff_iff, beq_iff_eq, beq_iff_eq, eq_comm, lowerByte_eq_iff (by decide), eq_comm]
  rcases s with _ | ⟨c, _ | ⟨d, s⟩⟩
  · rfl
  · simp only [lower, List.map_cons, List.map_nil, List.isPrefixOf, hbyte]
  · simp only [lower, List.map_cons, List.isPrefixOf, hbyte]

theorem parseIPv6Body_lower (body : GoString) (zone : Option GoString) :
    parseIPv6Body (lower body) (zone.map lower) = (parseIPv6Body body zone).map Addr.lowerZone := by
  have hzone : zone.map lower = some [] ↔ zone = some [] := by
    cases zone with
    | none => simp
    | some z => simp [lower_eq_nil_iff]
  have hdrop : (lower body).drop 2 = lower (body.drop 2) := List.map_drop.symm
  have hname : lower (zone.getD []) = (zone.map lower).getD [] := by
    cases zone <;> rfl
  unfold parseIPv6Body
  simp only [hzone, hdrop, colons_isPrefixOf_lower, lower_eq_nil_iff, bind_expandEllipsis_lower]
  by_cases hz : zone = some []
  · rw [if_pos hz, if_pos hz]
    rfl
  · rw [if_neg hz, if_neg hz, Option.map_map]
    refine congrArg (Option.map · _) (funext fun ip => ?_)
    rw [← hname]
    rfl

theorem parseIPv6_lower (s : GoString) :
    parseIPv6 (lower s) = (parseIPv6 s).map Addr.lowerZone := by
  rw [parseIPv6, parseIPv6, indexByte_lower (by decide)]
  cases indexByte s percent with
  | none => exact parseIPv6Body_lower s none
  | some i =>
    have h := parseIPv6Body_lower (s.take i) (some (s.drop (i + 1)))
    rw [Option.map_some, lower, lower, List.map_take, List.map_drop] at h
    exact h

theorem parseAddr_lower (s : GoString) :
    parseAddr (lower s) = (parseAddr s).map Addr.lowerZone := by
  have hbyte : ∀ c, (lowerByte c = dot ∨ lowerByte c = colon ∨ lowerByte c = percent) ↔
      c = dot ∨ c = colon ∨ c = percent := by
    intro c
    rw [lowerByte_eq_iff (by decide), lowerByte_eq_iff (by decide), lowerByte_eq_iff (by decide)]
  unfold parseAddr
  rw [lower, List.find?_map, ← lower]
  simp only [Function.comp_def, hbyte]
  cases s.find? (fun c => c = dot ∨ c = colon ∨ c = percent) with
  | none => rfl
  | some c =>
    simp only [Option.map_some, lowerByte_eq_iff (show dot < 65 by decide),
      lowerByte_eq_iff (show colon < 65 by decide), parseIPv4Fields_lower, parseIPv6_lower]
    split_ifs
    · cases parseIPv4Fields s <;> rfl
    · rfl
    · rfl

/-- **`net.ParseIP` reads letters in either case.** -/
theorem parseIP_lower (s : GoString) : parseIP (lower s) = parseIP s := by
  rw [parseIP, parseIP, parseAddr_lower, Option.bind_map]
  refine congrArg _ (funext fun a => ?_)
  simp only [Function.comp_apply, Addr.lowerZone, lower_eq_nil_iff]
  rfl

/-- **`net.ParseCIDR` reads letters in either case.** -/
theorem parseCIDR_lower (s : GoString) : parseCIDR (lower s) = parseCIDR s := by
  unfold parseCIDR
  rw [indexByte_lower (by decide)]
  cases indexByte s slash with
  | none => rfl
  | some i =>
    have htake : (lower s).take i = lower (s.take i) := List.map_take.symm
    have hdrop : (lower s).drop (i + 1) = lower (s.drop (i + 1)) := List.map_drop.symm
    simp only [htake, hdrop, parseAddr_lower]
    cases parseAddr (s.take i) with
    | none => rfl
    | some a =>
      simp only [Option.map_some, Addr.lowerZone, ne_eq, lower_eq_nil_iff, all_isDigit_lower]
      by_cases hbits : (s.drop (i + 1)).all isDigit = true
      · rw [lower_of_all_isDigit hbits]
        rfl
      · simp [hbits]

end Core
end ForwardProxy
