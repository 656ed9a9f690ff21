import ForwardProxy.Core.URL

/-!
# Escaping and back

`url.PathEscape` writes the bytes that a path segment cannot hold as a percent sign and two digits.
Reading that back gives the text that was escaped, whatever its bytes are
(`unescapePath_pathEscape`); a path that is parsed into a URL is the path that the URL shows
(`URL.escapedPath_of_setPath`); and what looks like an escaped byte in an escaped text is one
(`exists_of_escaped_infix`).
-/

namespace ForwardProxy
namespace Core

theorem hexValue_upperHexDigit {n : ℕ} (h : n < 16) : hexValue (upperHexDigit n) = some n := by
  revert n
  decide

/-! ## Reading back -/

theorem unescapePath_cons_of_ne {c : UInt8} (hc : c ≠ percent) (s : GoString) :
    unescapePath (c :: s) = (unescapePath s).map (c :: ·) := by
  rw [unescapePath.eq_def]
  dsimp only
  rw [if_neg hc]
  cases unescapePath s <;> rfl

/-- An escaped byte is read back. -/
theorem unescapePath_escaped (c : UInt8) (s : GoString) :
    unescapePath (percent :: upperHexDigit (c.toNat / 16) :: upperHexDigit (c.toNat % 16) :: s) =
      (unescapePath s).map (c :: ·) := by
  have hc := c.toNat_lt
  have hbyte : UInt8.ofNat (16 * (c.toNat / 16) + c.toNat % 16) = c := by
    rw [Nat.div_add_mod, UInt8.ofNat_toNat]
  rw [unescapePath, if_pos rfl]
  simp only [hexValue_upperHexDigit (show c.toNat / 16 < 16 by omega),
    hexValue_upperHexDigit (Nat.mod_lt c.toNat (by decide : 16 > 0)), Option.bind_eq_bind,
    Option.bind_some, hbyte]
  cases unescapePath s <;> rfl

theorem unescapePath_append {s : GoString} (h : percent ∉ s) (t : GoString) :
    unescapePath (s ++ t) = (unescapePath t).map (s ++ ·) := by
  induction s with
  | nil => exact Option.map_id'.symm
  | cons c s ih =>
    rw [List.mem_cons, not_or] at h
    rw [List.cons_append, unescapePath_cons_of_ne (Ne.symm h.1), ih h.2, Option.map_map]
    rfl

theorem shouldEscapeSegment_percent : shouldEscapeSegment percent = true := by decide

/-- **What was escaped is read back.** -/
theorem unescapePath_pathEscape (s t : GoString) :
    unescapePath (pathEscape s ++ t) = (unescapePath t).map (s ++ ·) := by
  induction s with
  | nil => exact Option.map_id'.symm
  | cons c s ih =>
    rw [pathEscape, List.flatMap_cons, List.append_assoc]
    change unescapePath (_ ++ (pathEscape s ++ t)) = _
    split_ifs with hescape
    · rw [List.cons_append, List.cons_append, List.cons_append, List.nil_append,
        unescapePath_escaped, ih, Option.map_map]
      rfl
    · have hc : c ≠ percent := by
        rintro rfl
        exact hescape shouldEscapeSegment_percent
      rw [List.singleton_append, unescapePath_cons_of_ne hc, ih, Option.map_map]
      rfl

/-! ## The bytes of an escaped text -/

theorem shouldEscapeSegment_upperHexDigit {n : ℕ} (h : n < 16) :
    shouldEscapeSegment (upperHexDigit n) = false := by
  revert n
  decide

theorem mem_pathEscape {s : GoString} {c : UInt8} (h : c ∈ pathEscape s) :
    c = percent ∨ shouldEscapeSegment c = false := by
  obtain ⟨b, -, hc⟩ := List.mem_flatMap.mp h
  have hb := b.toNat_lt
  split_ifs at hc with hescape
  · simp only [List.mem_cons, List.not_mem_nil, or_false] at hc
    rcases hc with rfl | rfl | rfl
    · exact Or.inl rfl
    · exact Or.inr (shouldEscapeSegment_upperHexDigit (by omega))
    · exact Or.inr (shouldEscapeSegment_upperHexDigit (by omega))
  · rw [List.mem_singleton.mp hc]
    exact Or.inr (Bool.eq_false_iff.mpr hescape)

/-- A list of this shape in an appended one is in one of the two, if it cannot begin in the middle
of the first. -/
theorem infix_append_of_head {α : Type*} {p : α} {m a b : List α} (h : p :: m <:+: a ++ b)
    (hp : p ∉ a) : p :: m <:+: b := by
  induction a with
  | nil => exact h
  | cons x a ih =>
    rw [List.mem_cons, not_or] at hp
    rw [List.cons_append, List.infix_cons_iff] at h
    refine h.elim (fun hpre => ?_) fun hinf => ih hinf hp.2
    exact absurd (List.cons_prefix_cons.mp hpre).1 hp.1

/-- **What looks like an escaped byte is one.** -/
theorem exists_of_escaped_infix {s : GoString} {x y : UInt8}
    (h : [percent, x, y] <:+: pathEscape s) : ∃ c ∈ s, x = upperHexDigit (c.toNat / 16) ∧
    y = upperHexDigit (c.toNat % 16) := by
  induction s with
  | nil => exact absurd (List.infix_nil.mp h) (by simp)
  | cons c s ih =>
    have hrest : [percent, x, y] <:+: pathEscape s →
        ∃ d ∈ c :: s, x = upperHexDigit (d.toNat / 16) ∧ y = upperHexDigit (d.toNat % 16) := by
      intro hinf
      obtain ⟨d, hd, hxy⟩ := ih hinf
      exact ⟨d, List.mem_cons_of_mem c hd, hxy⟩
    have hb := c.toNat_lt
    have hdigit : ∀ n < 16, percent ≠ upperHexDigit n := by decide
    rw [pathEscape, List.flatMap_cons] at h
    change _ <:+: _ ++ pathEscape s at h
    split_ifs at h with hescape
    · rw [List.cons_append, List.infix_cons_iff] at h
      rcases h with hpre | hinf
      · have hpair := (List.cons_prefix_cons.mp hpre).2
        rw [List.cons_append] at hpair
        obtain ⟨rfl, hlast⟩ := List.cons_prefix_cons.mp hpair
        rw [List.cons_append] at hlast
        exact ⟨c, List.mem_cons_self, rfl, (List.cons_prefix_cons.mp hlast).1⟩
      · refine hrest (infix_append_of_head hinf ?_)
        simp only [List.mem_cons, List.not_mem_nil, or_false, not_or]
        exact ⟨hdigit _ (by omega), hdigit _ (by omega)⟩
    · refine hrest (infix_append_of_head h ?_)
      rw [List.mem_singleton]
      rintro rfl
      exact hescape shouldEscapeSegment_percent

/-! ## The path of a URL -/

/-- A path that is stored in a URL is the one that the URL shows. -/
theorem URL.escapedPath_of_setPath {u u' : URL} {p : GoString} (h : u.setPath p = some u')
    (hvalid : validEncodedPath p = true) (hne : p ≠ []) (hstar : u'.path ≠ ascii "*") :
    u'.escapedPath = p := by
  obtain ⟨path, hpath, rfl⟩ := Option.map_eq_some_iff.mp h
  by_cases heq : p = escapePath path
  · rw [URL.escapedPath, if_neg (fun hraw => hraw.1 (if_pos heq)), if_neg hstar]
    exact heq.symm
  · have hraw : (if p = escapePath path then [] else p) = p := if_neg heq
    rw [URL.escapedPath, if_pos]
    · exact hraw
    · rw [hraw]
      exact ⟨hne, hvalid, hpath⟩

end Core
end ForwardProxy
