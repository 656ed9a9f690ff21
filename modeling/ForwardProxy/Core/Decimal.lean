import ForwardProxy.Core.Networks

/-!
# Decimal numbers

`strconv.Itoa` and the value of a string of digits are inverse to each other, as long as there is no
zero in front.  The text of an IPv4 address is made of such numbers, so that it has one spelling.
-/

namespace ForwardProxy
namespace Core

/-- The byte of a digit. -/
def digitByte (d : ℕ) : UInt8 := UInt8.ofNat (48 + d)

theorem itoa_of_lt {n : ℕ} (h : n < 10) : itoa n = [digitByte n] := by
  interval_cases n <;> decide

/-- The last digit is the remainder. -/
theorem itoa_of_le {n : ℕ} (h : 10 ≤ n) : itoa n = itoa (n / 10) ++ [digitByte (n % 10)] := by
  have hchar : ∀ d < 10, (UInt8.ofNat (Nat.digitChar d).toNat) = digitByte d := by decide
  rw [itoa, itoa, ascii, ascii, Nat.toString_eq_repr, Nat.toString_eq_repr, Nat.toList_repr,
    Nat.toList_repr, Nat.toDigits_of_base_le (by decide) h, List.map_append, List.map_singleton,
    hchar _ (Nat.mod_lt n (by decide))]

theorem isDigit_digitByte {d : ℕ} (h : d < 10) : isDigit (digitByte d) = true := by
  interval_cases d <;> decide

theorem toNat_digitByte {d : ℕ} (h : d < 10) : (digitByte d).toNat - 48 = d := by
  interval_cases d <;> decide

/-- A digit is the byte of its value. -/
theorem digitByte_of_isDigit {c : UInt8} (h : isDigit c = true) :
    c.toNat - 48 < 10 ∧ digitByte (c.toNat - 48) = c := by
  simp only [isDigit, Bool.and_eq_true, decide_eq_true_eq, UInt8.le_iff_toNat_le,
    UInt8.reduceToNat] at h
  refine ⟨by omega, ?_⟩
  rw [digitByte, show 48 + (c.toNat - 48) = c.toNat by omega, UInt8.ofNat_toNat]

theorem digitsValue_concat (s : GoString) (c : UInt8) :
    digitsValue (s ++ [c]) = digitsValue s * 10 + (c.toNat - 48) := by
  rw [digitsValue, List.foldl_append]
  rfl

theorem itoa_ne_nil (n : ℕ) : itoa n ≠ [] := by
  rcases Nat.lt_or_ge n 10 with h | h
  · rw [itoa_of_lt h]
    exact List.cons_ne_nil _ _
  · rw [itoa_of_le h]
    exact List.append_ne_nil_of_right_ne_nil _ (List.cons_ne_nil _ _)

theorem all_isDigit_itoa (n : ℕ) : (itoa n).all isDigit = true := by
  induction n using Nat.strong_induction_on with
  | h n ih =>
    rcases Nat.lt_or_ge n 10 with h | h
    · rw [itoa_of_lt h, List.all_cons, List.all_nil, isDigit_digitByte h]
      rfl
    · rw [itoa_of_le h, List.all_append, ih (n / 10) (by omega), List.all_cons, List.all_nil,
        isDigit_digitByte (Nat.mod_lt n (by decide))]
      rfl

/-- **The value of what `strconv.Itoa` writes.** -/
theorem digitsValue_itoa (n : ℕ) : digitsValue (itoa n) = n := by
  induction n using Nat.strong_induction_on with
  | h n ih =>
    rcases Nat.lt_or_ge n 10 with h | h
    · rw [itoa_of_lt h]
      exact (Nat.zero_add _).trans (toNat_digitByte h)
    · rw [itoa_of_le h, digitsValue_concat, ih (n / 10) (by omega),
        toNat_digitByte (Nat.mod_lt n (by decide))]
      omega

/-- **A number without a zero in front is what `strconv.Itoa` writes.** -/
theorem itoa_digitsValue {s : GoString} (hne : s ≠ []) (hdigits : s.all isDigit = true)
    (hzero : s.length = 1 ∨ s.head? ≠ some 48) : itoa (digitsValue s) = s := by
  induction s using List.reverseRecOn with
  | nil => exact absurd rfl hne
  | append_singleton s c ih =>
    rw [List.all_append, Bool.and_eq_true, List.all_cons, List.all_nil, Bool.and_true] at hdigits
    obtain ⟨hlt, hbyte⟩ := digitByte_of_isDigit hdigits.2
    rw [digitsValue_concat]
    by_cases hs : s = []
    · subst hs
      rw [digitsValue, List.foldl_nil, Nat.zero_mul, Nat.zero_add, itoa_of_lt hlt, hbyte]
      rfl
    · have hhead : s.head? ≠ some 48 := by
        rw [List.head?_append_of_ne_nil s hs, List.length_append, List.length_singleton] at hzero
        exact hzero.resolve_left fun h => hs (List.length_eq_zero_iff.mp (by omega))
      have hitoa := ih hs hdigits.1 (Or.inr hhead)
      have hpos : digitsValue s ≠ 0 := by
        intro h
        rw [h] at hitoa
        rw [← hitoa] at hhead
        exact hhead (by decide)
      rw [itoa_of_le (by omega),
        show (digitsValue s * 10 + (c.toNat - 48)) / 10 = digitsValue s by omega,
        show (digitsValue s * 10 + (c.toNat - 48)) % 10 = c.toNat - 48 by omega, hitoa, hbyte]

/-- A string of digits has no sign. -/
theorem atoi_of_digits {s : GoString} (hne : s ≠ []) (hdigits : s.all isDigit = true)
    (hvalue : digitsValue s < 0x8000000000000000) : atoi s = some (digitsValue s : ℤ) := by
  have hsign : ∀ c t, s = c :: t → c ≠ 45 ∧ c ≠ 43 := by
    rintro c t rfl
    rw [List.all_cons, Bool.and_eq_true] at hdigits
    refine ⟨?_, ?_⟩
    · rintro rfl
      exact absurd hdigits.1 (by decide)
    · rintro rfl
      exact absurd hdigits.1 (by decide)
  unfold atoi
  split
  rename_i neg body hbody
  split at hbody
  · exact absurd rfl (hsign 45 _ rfl).1
  · exact absurd rfl (hsign 43 _ rfl).2
  · obtain ⟨rfl, rfl⟩ := Prod.mk.inj hbody
    rw [if_neg (by simp [hne, hdigits])]
    simp only [Bool.false_eq_true, if_false]
    rw [if_pos (by omega)]

/-- **`strconv.Atoi` reads what `strconv.Itoa` writes.** -/
theorem atoi_itoa {n : ℕ} (h : n < 0x8000000000000000) : atoi (itoa n) = some (n : ℤ) := by
  have hvalue := digitsValue_itoa n
  rw [atoi_of_digits (itoa_ne_nil n) (all_isDigit_itoa n) (by omega), hvalue]

/-- A decimal byte is what `strconv.Itoa` writes. -/
theorem decimalByte_eq_itoa (b : UInt8) : decimalByte b = itoa b.toNat := by
  refine forall_byte (P := fun b => decimalByte b = itoa b.toNat) ?_ b
  decide +kernel

/-- An octet has one spelling. -/
theorem decimalByte_of_parseOctet {s : GoString} {b : UInt8} (h : parseOctet s = some b) :
    decimalByte b = s := by
  unfold parseOctet at h
  split_ifs at h with hbad hzero hbig
  rw [not_or, not_not] at hbad
  rw [decimalByte_eq_itoa, ← Option.some.inj h,
    UInt8.toNat_ofNat_of_lt' (show digitsValue s < 256 by omega)]
  refine itoa_digitsValue hbad.1 hbad.2 ?_
  rw [not_and_or, not_not] at hzero
  exact hzero

/-- Dotted text is written again as it was read. -/
theorem string4_of_parseIPv4Fields {s : GoString} {ip : List UInt8}
    (h : parseIPv4Fields s = some ip) : string4 ip = s := by
  unfold parseIPv4Fields at h
  split_ifs at h
  have hfields := forall₂_of_mapM_eq_some h
  have hmap : split s dot = ip.map decimalByte := by
    rw [← List.forall₂_eq_eq_eq, List.forall₂_map_right_iff]
    exact hfields.imp fun field b hb => (decimalByte_of_parseOctet hb).symm
  rw [string4, ← hmap]
  exact List.intercalate_splitOn dot

/-- **An IPv4 address has one spelling**: a text without a colon that `net.ParseIP` accepts is the
one that `IP.String` writes. -/
theorem string_of_parseIP {s : GoString} {ip : IP} (h : parseIP s = some ip) (hcolon : colon ∉ s) :
    ip.string = s := by
  obtain ⟨a, ha, -, hip⟩ := exists_addr_of_parseIP h
  unfold parseAddr at ha
  split at ha
  · rename_i c hfind
    split_ifs at ha with hdot hc
    · obtain ⟨v4, hv4, rfl⟩ := Option.map_eq_some_iff.mp ha
      have hlen := (parseIPv4Fields_shape hv4).1
      have hto4 : ip.to4 = some v4 := by
        rw [← hip]
        simp [Addr.as16, IP.to4, hlen, v4InV6Prefix]
      rw [IP.string_of_to4 hto4, string4_of_parseIPv4Fields hv4]
    · exact absurd (hc ▸ List.mem_of_find?_eq_some hfind) hcolon
  · cases ha

end Core
end ForwardProxy
