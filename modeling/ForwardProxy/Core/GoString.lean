import Mathlib.Data.List.Infix

/-!
# Byte strings

A Go string is a sequence of bytes, and every operation the `strings` and
`strconv` packages perform on one is an operation on bytes.  So a string here is a
list of bytes, and the operations are the list operations Mathlib already has
wherever these do the same: `List.splitOn` for `strings.Split` with a one-byte
separator, `isPrefixOf` and `isSuffixOf` for `strings.HasPrefix` and
`strings.HasSuffix`.

An index that Go reports as `-1` is `none`.
-/

namespace ForwardProxy
namespace Core

/-- A Go string: its bytes. -/
abbrev GoString := List UInt8

/-- A property of all bytes can be checked on their values. -/
theorem forall_byte {P : UInt8 → Prop} (h : ∀ n < 256, P (UInt8.ofNat n)) (b : UInt8) : P b := by
  have hb := h b.toNat b.toNat_lt
  rwa [UInt8.ofNat_toNat] at hb

/-- The bytes of a literal written in ASCII. -/
def ascii (s : String) : GoString := s.toList.map fun c => UInt8.ofNat c.toNat

/-! ## The punctuation of addresses -/

/-- The byte `.`. -/
def dot : UInt8 := 46

/-- The byte `:`. -/
def colon : UInt8 := 58

/-- The byte `/`. -/
def slash : UInt8 := 47

/-- The byte `%`. -/
def percent : UInt8 := 37

/-- The byte `[`. -/
def lbracket : UInt8 := 91

/-- The byte `]`. -/
def rbracket : UInt8 := 93

/-! ## `strings` -/

/-- `strings.IndexByte`. -/
def indexByte (s : GoString) (c : UInt8) : Option ℕ := s.findIdx? (· == c)

theorem indexByte_eq_none {s : GoString} {c : UInt8} (h : c ∉ s) : indexByte s c = none := by
  rw [indexByte, List.findIdx?_eq_none_iff]
  intro d hd
  rw [beq_eq_false_iff_ne]
  rintro rfl
  exact h hd

theorem indexByte_append_cons {c : UInt8} {a : GoString} (h : c ∉ a) (b : GoString) :
    indexByte (a ++ c :: b) c = some a.length := by
  have hnone : a.findIdx? (· == c) = none := indexByte_eq_none h
  rw [indexByte, List.findIdx?_append, hnone]
  simp [List.findIdx?_cons]

/-- `strings.LastIndexByte`. -/
def lastIndexByte (s : GoString) (c : UInt8) : Option ℕ :=
  (indexByte s.reverse c).map fun i => s.length - 1 - i

/-- `strings.Split` with a one-byte separator. -/
def split (s : GoString) (sep : UInt8) : List GoString := s.splitOn sep

theorem split_cons (c : UInt8) (s : GoString) (sep : UInt8) :
    split (c :: s) sep =
      if c = sep then [] :: split s sep else (split s sep).modifyHead (List.cons c) := by
  rw [split, List.splitOn_cons_eq_if_modifyHead]
  simp only [beq_iff_eq]
  rfl

/-- The bytes of the parts are the bytes of the string but for the separators. -/
theorem flatten_split (s : GoString) (sep : UInt8) :
    (split s sep).flatten = s.filter fun c => c ≠ sep := by
  induction s with
  | nil => rfl
  | cons c s ih =>
    rw [split_cons]
    by_cases hc : c = sep
    · rw [if_pos hc, List.flatten_cons, List.nil_append, ih, List.filter_cons_of_neg (by simp [hc])]
    · obtain ⟨l, ls, hl⟩ := List.exists_cons_of_ne_nil (List.splitOn_ne_nil sep s)
      have hsplit : split s sep = l :: ls := hl
      rw [hsplit, List.flatten_cons] at ih
      rw [if_neg hc, hsplit, List.modifyHead_cons, List.flatten_cons, List.cons_append, ih,
        List.filter_cons_of_pos (by simp [hc])]

theorem mem_split_iff {s : GoString} {c sep : UInt8} :
    (∃ part ∈ split s sep, c ∈ part) ↔ c ∈ s ∧ c ≠ sep := by
  have h := congrArg (c ∈ ·) (flatten_split s sep)
  simpa using h

theorem sep_notMem_of_mem_split {s part : GoString} {sep : UInt8} (h : part ∈ split s sep) :
    sep ∉ part :=
  fun hmem => (mem_split_iff.mp ⟨part, h, hmem⟩).2 rfl

/-- A string in two parts. -/
theorem split_eq_pair_iff {s a b : GoString} {sep : UInt8} :
    split s sep = [a, b] ↔ s = a ++ sep :: b ∧ sep ∉ a ∧ sep ∉ b := by
  constructor
  · intro h
    have hjoin : [sep].intercalate (split s sep) = s := List.intercalate_splitOn sep
    have ha : a ∈ split s sep := by rw [h]; exact List.mem_cons_self
    have hb : b ∈ split s sep := by rw [h]; exact List.mem_cons_of_mem _ List.mem_cons_self
    refine ⟨?_, sep_notMem_of_mem_split ha, sep_notMem_of_mem_split hb⟩
    rw [← hjoin, h]
    simp [List.intercalate]
  · rintro ⟨rfl, ha, hb⟩
    rw [split, List.splitOn_append_cons_self_of_not_mem ha, List.splitOn_eq_singleton hb]

/-- `strings.TrimPrefix`. -/
def trimPrefix (s p : GoString) : GoString := if p.isPrefixOf s then s.drop p.length else s

/-- `unicode.IsSpace` on the ASCII range: tab, line feed, vertical tab, form feed,
carriage return and blank. -/
def isSpaceByte (c : UInt8) : Bool := c == 32 || (9 ≤ c && c ≤ 13)

/-- Whether three bytes are the UTF-8 form of a white space character: U+1680,
U+2000 to U+200A, U+2028, U+2029, U+202F, U+205F or U+3000. -/
def isSpaceTriple (a b c : UInt8) : Bool :=
  (a == 0xE1 && b == 0x9A && c == 0x80) ||
  (a == 0xE2 && b == 0x80 && ((0x80 ≤ c && c ≤ 0x8A) || c == 0xA8 || c == 0xA9 || c == 0xAF)) ||
  (a == 0xE2 && b == 0x81 && c == 0x9F) ||
  (a == 0xE3 && b == 0x80 && c == 0x80)

/-- Whether two bytes are the UTF-8 form of U+0085 or U+00A0. -/
def isSpacePair (a b : UInt8) : Bool := a == 0xC2 && (b == 0x85 || b == 0xA0)

/-- `strings.TrimLeftFunc` with `unicode.IsSpace`. -/
def trimLeftSpace : GoString → GoString
  | a :: b :: c :: s =>
    if isSpaceByte a then trimLeftSpace (b :: c :: s)
    else if isSpacePair a b then trimLeftSpace (c :: s)
    else if isSpaceTriple a b c then trimLeftSpace s
    else a :: b :: c :: s
  | [a, b] =>
    if isSpaceByte a then trimLeftSpace [b] else if isSpacePair a b then [] else [a, b]
  | [a] => if isSpaceByte a then [] else [a]
  | [] => []

/-- `trimLeftSpace` on a reversed string: the same characters, their bytes read
backwards. -/
def trimRightSpaceRev : GoString → GoString
  | c :: b :: a :: s =>
    if isSpaceByte c then trimRightSpaceRev (b :: a :: s)
    else if isSpacePair b c then trimRightSpaceRev (a :: s)
    else if isSpaceTriple a b c then trimRightSpaceRev s
    else c :: b :: a :: s
  | [c, b] =>
    if isSpaceByte c then trimRightSpaceRev [b] else if isSpacePair b c then [] else [c, b]
  | [c] => if isSpaceByte c then [] else [c]
  | [] => []

/-- `strings.TrimSpace`. -/
def trimSpace (s : GoString) : GoString := (trimRightSpaceRev (trimLeftSpace s).reverse).reverse

/-- The lower-case form of an ASCII letter, and any other byte itself. -/
def lowerByte (c : UInt8) : UInt8 := if 65 ≤ c && c ≤ 90 then c + 32 else c

/-- The upper-case form of an ASCII letter, and any other byte itself. -/
def upperByte (c : UInt8) : UInt8 := if 97 ≤ c && c ≤ 122 then c - 32 else c

/-- `strings.ToLower`, as far as a comparison with an ASCII string can tell: `İ` and the Kelvin
sign are the only characters outside ASCII whose lower-case form is in ASCII, and the others
are left as they are. -/
def toLower : GoString → GoString
  | 0xC4 :: 0xB0 :: s => 105 :: toLower s
  | 0xE2 :: 0x84 :: 0xAA :: s => 107 :: toLower s
  | c :: s => lowerByte c :: toLower s
  | [] => []

theorem lowerByte_eq_iff {c d : UInt8} (hd : d < 65) : lowerByte c = d ↔ c = d := by
  unfold lowerByte
  split_ifs with h
  · simp only [Bool.and_eq_true, decide_eq_true_eq] at h
    constructor <;> intro heq <;> exfalso <;> grind
  · exact Iff.rfl

/-- A byte below the letters stays where it is. -/
theorem mem_toLower_iff {d : UInt8} (hd : d < 65) (s : GoString) : d ∈ toLower s ↔ d ∈ s := by
  have hne : ∀ c : UInt8, 65 ≤ c → d ≠ c := fun c hc heq => by grind
  have hbyte : ∀ c, d = lowerByte c ↔ d = c := fun c => by
    rw [eq_comm, lowerByte_eq_iff hd, eq_comm]
  induction s using toLower.induct with
  | case1 s ih =>
    rw [toLower, List.mem_cons, or_congr_right ih]
    simp [hne]
  | case2 s ih =>
    rw [toLower, List.mem_cons, or_congr_right ih]
    simp [hne]
  | case3 c s hpair htriple ih =>
    rw [toLower.eq_3 c s hpair htriple, List.mem_cons, or_congr_right ih, hbyte, List.mem_cons]
  | case4 => exact Iff.rfl

/-- ASCII text without upper-case letters is its own lower-case form. -/
theorem toLower_eq_self {s : GoString} (h : ∀ c ∈ s, c < 128 ∧ lowerByte c = c) :
    toLower s = s := by
  induction s using toLower.induct with
  | case1 s ih => exact absurd (h 0xC4 List.mem_cons_self).1 (by decide)
  | case2 s ih => exact absurd (h 0xE2 List.mem_cons_self).1 (by decide)
  | case3 c s hpair htriple ih =>
    rw [toLower.eq_3 c s hpair htriple, (h c List.mem_cons_self).2,
      ih fun d hd => h d (List.mem_cons_of_mem c hd)]
  | case4 => rfl

/-! ## `unicode/utf8` -/

/-- A continuation byte. -/
def isContinuation (b : UInt8) : Bool := 0x80 ≤ b && b ≤ 0xBF

/-- The first two bytes of a character of three bytes: no overlong form, no surrogate. -/
def startsTriple (a b : UInt8) : Bool :=
  (a == 0xE0 && 0xA0 ≤ b && b ≤ 0xBF) || (a == 0xED && 0x80 ≤ b && b ≤ 0x9F) ||
    (0xE1 ≤ a && a ≤ 0xEF && a != 0xED && isContinuation b)

/-- The first two bytes of a character of four bytes: nothing overlong, nothing above U+10FFFF. -/
def startsQuadruple (a b : UInt8) : Bool :=
  (a == 0xF0 && 0x90 ≤ b && b ≤ 0xBF) || (a == 0xF4 && 0x80 ≤ b && b ≤ 0x8F) ||
    (0xF1 ≤ a && a ≤ 0xF3 && isContinuation b)

/-- `utf8.Valid`. -/
def utf8Valid : GoString → Bool
  | [] => true
  | [a] => a < 0x80
  | a :: b :: s =>
    if a < 0x80 then utf8Valid (b :: s)
    else if 0xC2 ≤ a && a ≤ 0xDF then isContinuation b && utf8Valid s
    else match s with
      | [] => false
      | c :: s =>
        if startsTriple a b then isContinuation c && utf8Valid s
        else match s with
          | [] => false
          | d :: s => startsQuadruple a b && isContinuation c && isContinuation d && utf8Valid s

/-! ## `strconv` -/

/-- `strconv.Itoa` of a number that is not negative. -/
def itoa (n : ℕ) : GoString := ascii (toString n)

/-- Whether a byte is a decimal digit. -/
def isDigit (c : UInt8) : Bool := 48 ≤ c && c ≤ 57

/-- The value of a string of decimal digits, most significant first. -/
def digitsValue (s : GoString) : ℕ := s.foldl (fun v c => v * 10 + (c.toNat - 48)) 0

/-- `strconv.Atoi` on a 64-bit platform: an optional sign, at least one digit,
nothing else, and a value that an `int` holds. -/
def atoi (s : GoString) : Option ℤ :=
  let (neg, body) := match s with
    | 45 :: t => (true, t)
    | 43 :: t => (false, t)
    | t => (false, t)
  if body = [] ∨ ¬ body.all isDigit then none
  else
    let v : ℤ := if neg then -(digitsValue body : ℤ) else digitsValue body
    if -0x8000000000000000 ≤ v ∧ v < 0x8000000000000000 then some v else none

end Core
end ForwardProxy
