import Mathlib.Tactic.Ring
import ForwardProxy.Core.Stream

/-!
# The variable-length integers of QUIC

The two highest bits of the first byte are the base 2 logarithm of how many bytes there are; the
other bits of all the bytes, high byte first, are the value.  So a value of less than 62 bits has an
encoding of 1, 2, 4 or 8 bytes, and usually more than one: `encode` takes the shortest.

`parse_encode` is the round trip: what was encoded is parsed, whatever follows it.  The other way
round there is a text for every length that is long enough, and only a value that took as many bytes
as its shortest encoding has been read from that encoding (`eq_encode_append_of_parse`).

A program calls a package for this.  `Codec` is what it may rely on of any such package, and `codec`
is the format itself, with the two results as its laws.
-/

namespace ForwardProxy
namespace Core
namespace QuicVarint

/-- A package for these integers, with the functions of `quicvarint`. -/
structure Codec where
  /-- `Parse`: the value, and how many bytes it took. -/
  parse : List UInt8 → Except IOErr (ℕ × ℕ)
  /-- `Len`: the length of the shortest encoding. -/
  len : ℕ → ℕ
  /-- What `Append` appends. -/
  append : ℕ → List UInt8
  parse_append {v : ℕ} (h : v < 2 ^ 62) (rest : List UInt8) :
    parse (append v ++ rest) = .ok (v, len v)
  /-- No two texts of the least length have the same value. -/
  eq_append_of_parse {d : List UInt8} {v : ℕ} (h : parse d = .ok (v, len v)) :
    d = append v ++ d.drop (len v)
  append_zero : append 0 = [0]

/-! ## The format -/

/-- The low `n` bytes of `v`, high byte first. -/
def bigEndian : ℕ → ℕ → List UInt8
  | 0, _ => []
  | n + 1, v => UInt8.ofNat (v / 256 ^ n) :: bigEndian n (v % 256 ^ n)

/-- Bytes, high byte first, after a value that was read before them. -/
def ofBigEndian (v : ℕ) (bytes : List UInt8) : ℕ := bytes.foldl (fun v b => v * 256 + b.toNat) v

/-- The base 2 logarithm of the length of the shortest encoding. -/
def lenLog (v : ℕ) : ℕ :=
  if v < 2 ^ 6 then 0 else if v < 2 ^ 14 then 1 else if v < 2 ^ 30 then 2 else 3

/-- The length of the shortest encoding of a value of less than 62 bits. -/
def len (v : ℕ) : ℕ := 2 ^ lenLog v

/-- The shortest encoding of a value of less than 62 bits. -/
def encode (v : ℕ) : List UInt8 :=
  let n := len v - 1
  UInt8.ofNat (lenLog v * 64 + v / 256 ^ n) :: bigEndian n (v % 256 ^ n)

/-- The value at the front of a text, and how many bytes it took. -/
def parse : List UInt8 → Except IOErr (ℕ × ℕ)
  | [] => .error .eof
  | first :: rest =>
    let n := 2 ^ (first.toNat / 64) - 1
    if rest.length < n then .error .unexpectedEOF
    else .ok (ofBigEndian (first.toNat % 64) (rest.take n), n + 1)

theorem length_bigEndian (n v : ℕ) : (bigEndian n v).length = n := by
  induction n generalizing v with
  | zero => rfl
  | succ n ih => rw [bigEndian, List.length_cons, ih]

/-- Reading the bytes of a number that has so many. -/
theorem ofBigEndian_bigEndian {n v : ℕ} (h : v < 256 ^ n) (acc : ℕ) :
    ofBigEndian acc (bigEndian n v) = acc * 256 ^ n + v := by
  induction n generalizing v acc with
  | zero =>
    obtain rfl : v = 0 := by simpa using h
    simp [ofBigEndian, bigEndian]
  | succ n ih =>
    have hpos : 0 < 256 ^ n := Nat.pos_of_ne_zero (by simp)
    have hbyte : v / 256 ^ n < 256 := by
      rw [Nat.div_lt_iff_lt_mul hpos, mul_comm, ← pow_succ]
      exact h
    have hrest := ih (Nat.mod_lt v hpos) (acc * 256 + v / 256 ^ n)
    calc ofBigEndian acc (bigEndian (n + 1) v)
        = ofBigEndian (acc * 256 + (UInt8.ofNat (v / 256 ^ n)).toNat)
            (bigEndian n (v % 256 ^ n)) := rfl
      _ = (acc * 256 + v / 256 ^ n) * 256 ^ n + v % 256 ^ n := by
          rw [UInt8.toNat_ofNat', Nat.mod_eq_of_lt hbyte, hrest]
      _ = acc * 256 ^ (n + 1) + (256 ^ n * (v / 256 ^ n) + v % 256 ^ n) := by ring
      _ = acc * 256 ^ (n + 1) + v := by rw [Nat.div_add_mod]

/-- The value read before counts in front of the bytes. -/
theorem ofBigEndian_eq (acc : ℕ) (bytes : List UInt8) :
    ofBigEndian acc bytes = acc * 256 ^ bytes.length + ofBigEndian 0 bytes := by
  induction bytes generalizing acc with
  | nil => simp [ofBigEndian]
  | cons b bytes ih =>
    have hread : ∀ v, ofBigEndian v (b :: bytes) = ofBigEndian (v * 256 + b.toNat) bytes :=
      fun _ => rfl
    rw [hread, hread, ih, ih (0 * 256 + b.toNat), List.length_cons]
    ring

theorem ofBigEndian_lt (bytes : List UInt8) : ofBigEndian 0 bytes < 256 ^ bytes.length := by
  induction bytes with
  | nil => exact Nat.one_pos
  | cons b bytes ih =>
    have hread : ofBigEndian 0 (b :: bytes) = b.toNat * 256 ^ bytes.length +
        ofBigEndian 0 bytes := by
      rw [← ofBigEndian_eq]
      simp [ofBigEndian]
    have hb : b.toNat + 1 ≤ 256 := b.toNat_lt
    calc ofBigEndian 0 (b :: bytes)
        < (b.toNat + 1) * 256 ^ bytes.length := by rw [hread, add_mul, one_mul]; omega
      _ ≤ 256 * 256 ^ bytes.length := Nat.mul_le_mul_right _ hb
      _ = 256 ^ (b :: bytes).length := by rw [List.length_cons, pow_succ, mul_comm]

/-- Writing what was read. -/
theorem bigEndian_ofBigEndian (bytes : List UInt8) :
    bigEndian bytes.length (ofBigEndian 0 bytes) = bytes := by
  induction bytes with
  | nil => rfl
  | cons b bytes ih =>
    have hread : ofBigEndian 0 (b :: bytes) = b.toNat * 256 ^ bytes.length +
        ofBigEndian 0 bytes := by
      rw [← ofBigEndian_eq]
      simp [ofBigEndian]
    have hpos : 0 < 256 ^ bytes.length := Nat.pos_of_ne_zero (by simp)
    have hlt := ofBigEndian_lt bytes
    rw [List.length_cons, bigEndian, hread, Nat.mul_comm, Nat.mul_add_div hpos, Nat.mul_add_mod,
      Nat.div_eq_of_lt hlt, Nat.mod_eq_of_lt hlt, ih, Nat.add_zero, UInt8.ofNat_toNat]

/-- The shortest encoding has room for the value, and two bits to spare. -/
theorem lt_of_lenLog {v : ℕ} (h : v < 2 ^ 62) : v < 64 * 256 ^ (len v - 1) ∧ lenLog v < 4 := by
  rw [len, lenLog]
  split_ifs <;> omega

/-- The first byte has the length in its two highest bits. -/
theorem toNat_first {k high : ℕ} (hk : k < 4) (hhigh : high < 64) :
    (UInt8.ofNat (k * 64 + high)).toNat / 64 = k ∧
    (UInt8.ofNat (k * 64 + high)).toNat % 64 = high := by
  rw [UInt8.toNat_ofNat']
  omega

/-- **The round trip.** -/
theorem parse_encode {v : ℕ} (h : v < 2 ^ 62) (rest : List UInt8) :
    parse (encode v ++ rest) = .ok (v, len v) := by
  obtain ⟨hroom, hlog⟩ := lt_of_lenLog h
  have hpos : 0 < 256 ^ (len v - 1) := Nat.pos_of_ne_zero (by simp)
  have hhigh : v / 256 ^ (len v - 1) < 64 := by
    rw [Nat.div_lt_iff_lt_mul hpos]
    exact hroom
  obtain ⟨hdiv, hmod⟩ := toNat_first hlog hhigh
  have hlength := length_bigEndian (len v - 1) (v % 256 ^ (len v - 1))
  have hone : 1 ≤ len v := Nat.one_le_two_pow
  simp only [encode, List.cons_append, parse, hdiv, hmod, show 2 ^ lenLog v = len v from rfl]
  rw [if_neg (by rw [List.length_append, hlength]; omega), List.take_append_of_le_length hlength.ge,
    List.take_of_length_le hlength.le, ofBigEndian_bigEndian (Nat.mod_lt v hpos), Nat.div_add_mod',
    Nat.sub_add_cancel hone]

/-- The parsed length is one of the four. -/
theorem exists_of_parse {d : List UInt8} {v n : ℕ} (h : parse d = .ok (v, n)) :
    ∃ first rest, d = first :: rest ∧ n = 2 ^ (first.toNat / 64) ∧ n ≤ d.length ∧
      v = first.toNat % 64 * 256 ^ (n - 1) + ofBigEndian 0 (rest.take (n - 1)) := by
  cases d with
  | nil => exact absurd h (by simp [parse])
  | cons first rest =>
    simp only [parse] at h
    split_ifs at h with hlen
    obtain ⟨hv, hn⟩ := Prod.mk.inj (Except.ok.inj h)
    have hpos : 1 ≤ 2 ^ (first.toNat / 64) := Nat.one_le_two_pow
    have htake : (rest.take (n - 1)).length = n - 1 := by
      rw [List.length_take]
      omega
    refine ⟨first, rest, rfl, by omega, by rw [List.length_cons]; omega, ?_⟩
    rw [← hv, ofBigEndian_eq, show 2 ^ (first.toNat / 64) - 1 = n - 1 by omega, htake]

/-- **A value that took the least number of bytes was read from its encoding.** -/
theorem eq_encode_append_of_parse {d : List UInt8} {v : ℕ} (h : parse d = .ok (v, len v)) :
    d = encode v ++ d.drop (len v) := by
  obtain ⟨first, rest, rfl, hn, hle, hv⟩ := exists_of_parse h
  have hlog : lenLog v = first.toNat / 64 := Nat.pow_right_injective (le_refl 2) hn
  have hone : 1 ≤ len v := Nat.one_le_two_pow
  have htake : (rest.take (len v - 1)).length = len v - 1 := by
    rw [List.length_take]
    rw [List.length_cons] at hle
    omega
  have hlt := ofBigEndian_lt (rest.take (len v - 1))
  rw [htake] at hlt
  have hpos : 0 < 256 ^ (len v - 1) := Nat.pos_of_ne_zero (by simp)
  -- the two parts of the value are what the bits of the first byte and the bytes behind it say
  obtain ⟨hdiv, hmod⟩ : v / 256 ^ (len v - 1) = first.toNat % 64 ∧
      v % 256 ^ (len v - 1) = ofBigEndian 0 (rest.take (len v - 1)) :=
    (Nat.div_mod_unique hpos).mpr ⟨by rw [mul_comm, add_comm, ← hv], hlt⟩
  have hfirst : UInt8.ofNat (lenLog v * 64 + v / 256 ^ (len v - 1)) = first := by
    rw [hdiv, hlog, Nat.div_add_mod', UInt8.ofNat_toNat]
  have hbytes : bigEndian (len v - 1) (v % 256 ^ (len v - 1)) = rest.take (len v - 1) := by
    have hwrite := bigEndian_ofBigEndian (rest.take (len v - 1))
    rwa [htake, ← hmod] at hwrite
  have hdrop : (first :: rest).drop (len v) = rest.drop (len v - 1) := by
    rw [← Nat.sub_add_cancel hone, List.drop_succ_cons, Nat.add_sub_cancel]
  rw [encode, hfirst, hbytes, hdrop, List.cons_append, List.take_append_drop]

/-- The format as a package. -/
def codec : Codec where
  parse := parse
  len := len
  append := encode
  parse_append := parse_encode
  eq_append_of_parse := eq_encode_append_of_parse
  append_zero := rfl

end QuicVarint
end Core
end ForwardProxy
