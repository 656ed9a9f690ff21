import ForwardProxy.Core.GoString

/-!
# Base 64 (`encoding/base64`)

`base64.StdEncoding`: groups of three bytes are four digits, the last group is filled up with
`=`.  The decoder skips line breaks, and it reports the position of the first byte it cannot
accept; what it has decoded by then stays in the destination.

`decode_encode` is the round trip; an encoded text has none but the bytes of the alphabet and the
padding (`mem_encode`).
-/

namespace ForwardProxy
namespace Core
namespace Base64

/-- The digits. -/
def alphabet : GoString :=
  ascii "ABCDEFGHIJKLMNOPQRSTUVWXYZabcdefghijklmnopqrstuvwxyz0123456789+/"

/-- The byte `=`. -/
def padChar : UInt8 := 61

/-- The digit of a six-bit number. -/
def digit (n : ℕ) : UInt8 := alphabet.getD n 0

/-- `EncodeToString`. -/
def encode : GoString → GoString
  | a :: b :: c :: s =>
    let val := a.toNat * 0x10000 + b.toNat * 0x100 + c.toNat
    digit (val / 0x40000) :: digit (val / 0x1000 % 0x40) :: digit (val / 0x40 % 0x40) ::
      digit (val % 0x40) :: encode s
  | [a, b] =>
    let val := a.toNat * 0x10000 + b.toNat * 0x100
    [digit (val / 0x40000), digit (val / 0x1000 % 0x40), digit (val / 0x40 % 0x40), padChar]
  | [a] =>
    let val := a.toNat * 0x10000
    [digit (val / 0x40000), digit (val / 0x1000 % 0x40), padChar, padChar]
  | [] => []

example : encode (ascii "user:pass") = ascii "dXNlcjpwYXNz" := by decide

/-- `DecodedLen`. -/
def decodedLen (n : ℕ) : ℕ := n / 4 * 3

/-- The three bytes of up to four digits. -/
def quantum (dbuf : List ℕ) : GoString :=
  let val := dbuf.getD 0 0 * 0x40000 + dbuf.getD 1 0 * 0x1000 + dbuf.getD 2 0 * 0x40 + dbuf.getD 3 0
  [UInt8.ofNat (val / 0x10000), UInt8.ofNat (val / 0x100), UInt8.ofNat val]

/-- Whether the decoder skips the byte. -/
def isNewline (c : UInt8) : Bool := c == 10 || c == 13

/-- Skip line breaks; the first component is the position in the source. -/
def skipNewlines : ℕ → GoString → ℕ × GoString
  | si, [] => (si, [])
  | si, c :: src => if isNewline c then skipNewlines (si + 1) src else (si, c :: src)

/-- The end of a padded quantum: nothing but line breaks may follow. -/
def decodeEnd (dbuf : List ℕ) (si : ℕ) (src : GoString) : GoString × Option ℕ :=
  let (si, rest) := skipNewlines si src
  ((quantum dbuf).take (dbuf.length - 1), if rest = [] then none else some si)

/-- What `decodeQuantum` does after it has read a `=`; `si` is the position behind it. -/
def decodePadding (dbuf : List ℕ) (si : ℕ) (src : GoString) : GoString × Option ℕ :=
  if dbuf.length ≤ 1 then ([], some (si - 1))
  else if dbuf.length = 2 then
    -- the second of the two
    match skipNewlines si src with
    | (si, []) => ([], some si)
    | (si, c :: rest) => if c = padChar then decodeEnd dbuf (si + 1) rest else ([], some (si - 1))
  else decodeEnd dbuf si src

/-- The loop of `Decode` with the one of `decodeQuantum` in it: `dbuf` are the digits of the
quantum that is being read, `si` is the position.  The bytes written, and the position that a
`CorruptInputError` reports. -/
def decodeFrom : List ℕ → ℕ → GoString → GoString × Option ℕ
  | dbuf, si, [] => ([], if dbuf = [] then none else some (si - dbuf.length))
  | dbuf, si, c :: src =>
    match alphabet.idxOf? c with
    | some d =>
      if dbuf.length = 3 then
        let (out, err) := decodeFrom [] (si + 1) src
        (quantum (dbuf ++ [d]) ++ out, err)
      else decodeFrom (dbuf ++ [d]) (si + 1) src
    | none =>
      if isNewline c then decodeFrom dbuf (si + 1) src
      else if c = padChar then decodePadding dbuf (si + 1) src
      else ([], some si)

/-- `Decode` into a buffer of `DecodedLen` zero bytes: the bytes written and the error. -/
def decode (src : GoString) : GoString × Option ℕ := decodeFrom [] 0 src

example : decode (ascii "dXNlcg==") = (ascii "user", none) := by decide +kernel

/-! ## The round trip -/

theorem idxOf?_digit {n : ℕ} (h : n < 64) : alphabet.idxOf? (digit n) = some n := by
  have hall : ∀ n < 64, alphabet.idxOf? (digit n) = some n := by decide +kernel
  exact hall n h

theorem digit_mem {n : ℕ} (h : n < 64) : digit n ∈ alphabet := by
  by_contra hnot
  exact Option.some_ne_none n ((idxOf?_digit h).symm.trans (List.idxOf?_eq_none_iff.mpr hnot))

/-- A character of the alphabet completes the quantum or is kept. -/
theorem decodeFrom_of_idxOf? {c : UInt8} {d : ℕ} (h : alphabet.idxOf? c = some d) (dbuf : List ℕ)
    (si : ℕ) (src : GoString) :
    decodeFrom dbuf si (c :: src) = if dbuf.length = 3 then
      (quantum (dbuf ++ [d]) ++ (decodeFrom [] (si + 1) src).1, (decodeFrom [] (si + 1) src).2)
    else decodeFrom (dbuf ++ [d]) (si + 1) src := by
  rw [decodeFrom, h]

/-- A digit of an incomplete quantum is kept. -/
theorem decodeFrom_digit {n : ℕ} (h : n < 64) {dbuf : List ℕ} (hlen : dbuf.length ≠ 3) (si : ℕ)
    (src : GoString) :
    decodeFrom dbuf si (digit n :: src) = decodeFrom (dbuf ++ [n]) (si + 1) src := by
  rw [decodeFrom_of_idxOf? (idxOf?_digit h), if_neg hlen]

/-- The fourth digit completes the quantum. -/
theorem decodeFrom_digit_last {n : ℕ} (h : n < 64) {dbuf : List ℕ} (hlen : dbuf.length = 3) (si : ℕ)
    (src : GoString) :
    decodeFrom dbuf si (digit n :: src) =
      (quantum (dbuf ++ [n]) ++ (decodeFrom [] (si + 1) src).1,
        (decodeFrom [] (si + 1) src).2) := by
  rw [decodeFrom_of_idxOf? (idxOf?_digit h), if_pos hlen]

/-- The padding ends the text. -/
theorem decodeFrom_pad (dbuf : List ℕ) (si : ℕ) (src : GoString) :
    decodeFrom dbuf si (padChar :: src) = decodePadding dbuf (si + 1) src := rfl

/-- Three bytes come back from the four digits of their value. -/
theorem quantum_digits (a b c : UInt8) (val : ℕ)
    (h : val = a.toNat * 0x10000 + b.toNat * 0x100 + c.toNat) :
    quantum [val / 0x40000, val / 0x1000 % 0x40, val / 0x40 % 0x40, val % 0x40] = [a, b, c] := by
  have ha := a.toNat_lt
  have hb := b.toNat_lt
  have hc := c.toNat_lt
  have hval : val / 0x40000 * 0x40000 + val / 0x1000 % 0x40 * 0x1000 + val / 0x40 % 0x40 * 0x40 +
      val % 0x40 = val := by omega
  have hbyte : ∀ (n : ℕ) (x : UInt8), n % 256 = x.toNat → UInt8.ofNat n = x := by
    intro n x hn
    rw [← UInt8.toNat_inj, UInt8.toNat_ofNat', hn]
  simp only [quantum, List.getD_cons_zero, List.getD_cons_succ, hval]
  rw [hbyte _ a (by omega), hbyte _ b (by omega), hbyte _ c (by omega)]

/-- The digits of three bytes. -/
theorem exists_digits (a b c : UInt8) : ∃ w x y z, (w < 64 ∧ x < 64 ∧ y < 64 ∧ z < 64) ∧
    quantum [w, x, y, z] = [a, b, c] ∧
    ∀ s, encode (a :: b :: c :: s) = digit w :: digit x :: digit y :: digit z :: encode s := by
  have ha := a.toNat_lt
  have hb := b.toNat_lt
  have hc := c.toNat_lt
  exact ⟨_, _, _, _, ⟨by omega, by omega, by omega, by omega⟩, quantum_digits a b c _ rfl,
    fun s => by rw [encode]⟩

/-- The digits of two bytes at the end of the text. -/
theorem exists_digits_two (a b : UInt8) : ∃ w x y, (w < 64 ∧ x < 64 ∧ y < 64) ∧
    quantum [w, x, y] = [a, b, 0] ∧ encode [a, b] = [digit w, digit x, digit y, padChar] := by
  have ha := a.toNat_lt
  have hb := b.toNat_lt
  have hbytes := quantum_digits a b 0 (a.toNat * 0x10000 + b.toNat * 0x100) (by simp)
  rw [show (a.toNat * 0x10000 + b.toNat * 0x100) % 0x40 = 0 by omega] at hbytes
  exact ⟨(a.toNat * 0x10000 + b.toNat * 0x100) / 0x40000,
    (a.toNat * 0x10000 + b.toNat * 0x100) / 0x1000 % 0x40,
    (a.toNat * 0x10000 + b.toNat * 0x100) / 0x40 % 0x40, ⟨by omega, by omega, by omega⟩, hbytes,
    by rw [encode]⟩

/-- The digits of one byte at the end of the text. -/
theorem exists_digits_one (a : UInt8) : ∃ w x, (w < 64 ∧ x < 64) ∧ quantum [w, x] = [a, 0, 0] ∧
    encode [a] = [digit w, digit x, padChar, padChar] := by
  have ha := a.toNat_lt
  have hbytes := quantum_digits a 0 0 (a.toNat * 0x10000) (by simp)
  rw [show a.toNat * 0x10000 % 0x40 = 0 by omega,
    show a.toNat * 0x10000 / 0x40 % 0x40 = 0 by omega] at hbytes
  exact ⟨a.toNat * 0x10000 / 0x40000, a.toNat * 0x10000 / 0x1000 % 0x40, ⟨by omega, by omega⟩,
    hbytes, by rw [encode]⟩

theorem decodeFrom_encode (si : ℕ) (s : GoString) : decodeFrom [] si (encode s) = (s, none) := by
  induction s using encode.induct generalizing si with
  | case1 a b c s ih =>
    obtain ⟨w, x, y, z, ⟨hw, hx, hy, hz⟩, hbytes, hencode⟩ := exists_digits a b c
    rw [hencode, decodeFrom_digit hw (by simp), decodeFrom_digit hx (by simp),
      decodeFrom_digit hy (by simp), decodeFrom_digit_last hz rfl, ih]
    exact Prod.ext (congrArg (· ++ s) hbytes) rfl
  | case2 a b =>
    obtain ⟨w, x, y, ⟨hw, hx, hy⟩, hbytes, hencode⟩ := exists_digits_two a b
    rw [hencode, decodeFrom_digit hw (by simp), decodeFrom_digit hx (by simp),
      decodeFrom_digit hy (by simp), decodeFrom_pad]
    exact Prod.ext (congrArg (List.take 2) hbytes) rfl
  | case3 a =>
    obtain ⟨w, x, ⟨hw, hx⟩, hbytes, hencode⟩ := exists_digits_one a
    rw [hencode, decodeFrom_digit hw (by simp), decodeFrom_digit hx (by simp), decodeFrom_pad]
    exact Prod.ext (congrArg (List.take 1) hbytes) rfl
  | case4 => rfl

/-- **The round trip.** -/
theorem decode_encode (s : GoString) : decode (encode s) = (s, none) := decodeFrom_encode 0 s

/-- The bytes of an encoded text. -/
theorem mem_encode {t : UInt8} {s : GoString} (h : t ∈ encode s) : t ∈ alphabet ∨ t = padChar := by
  induction s using encode.induct with
  | case1 a b c s ih =>
    obtain ⟨w, x, y, z, ⟨hw, hx, hy, hz⟩, -, hencode⟩ := exists_digits a b c
    simp only [hencode, List.mem_cons] at h
    rcases h with rfl | rfl | rfl | rfl | h
    · exact Or.inl (digit_mem hw)
    · exact Or.inl (digit_mem hx)
    · exact Or.inl (digit_mem hy)
    · exact Or.inl (digit_mem hz)
    · exact ih h
  | case2 a b =>
    obtain ⟨w, x, y, ⟨hw, hx, hy⟩, -, hencode⟩ := exists_digits_two a b
    simp only [hencode, List.mem_cons, List.not_mem_nil, or_false] at h
    rcases h with rfl | rfl | rfl | h
    · exact Or.inl (digit_mem hw)
    · exact Or.inl (digit_mem hx)
    · exact Or.inl (digit_mem hy)
    · exact Or.inr h
  | case3 a =>
    obtain ⟨w, x, ⟨hw, hx⟩, -, hencode⟩ := exists_digits_one a
    simp only [hencode, List.mem_cons, List.not_mem_nil, or_false, or_self] at h
    rcases h with rfl | rfl | h
    · exact Or.inl (digit_mem hw)
    · exact Or.inl (digit_mem hx)
    · exact Or.inr h
  | case4 => cases h

end Base64
end Core
end ForwardProxy
