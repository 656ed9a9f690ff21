import ForwardProxy.Core.GoString
import Mathlib.Tactic.IntervalCases

/-!
# IP addresses, as the `net` and `net/netip` packages treat them

A `net.IP` is a slice of bytes.  Nothing in its type says that it has 4 or 16 of
them; the functions of the package look at the length and give up on any other.
So an address here is a list of bytes of any length, and `Option IP` where the
code distinguishes the nil slice.

* `IP.to4`, `IP.to16`, `IP.string`: the methods of the same name;
* `parseAddr`: `netip.ParseAddr`, with `parseIP` and `parseCIDR` on top of it;
* `IPNet.contains`: `net.IPNet.Contains`.

The facts proved here are about the text of an address: the text of an IPv4 address
starts with a digit and has no colon (`head?_string4_any`, `colon_notMem_string4`),
and the text of any other 16-byte address has a colon (`colon_mem_string6`).
-/

namespace ForwardProxy
namespace Core

/-- A `net.IP` that is not nil: its bytes. -/
abbrev IP := List UInt8

/-- The twelve bytes in front of an IPv4 address in its 16-byte form. -/
def v4InV6Prefix : List UInt8 := [0, 0, 0, 0, 0, 0, 0, 0, 0, 0, 0xff, 0xff]

/-- `IP.To4`: the 4-byte form, or `none` (nil) when there is none. -/
def IP.to4 (ip : IP) : Option IP :=
  if ip.length = 4 then some ip
  else if ip.length = 16 ∧ ip.take 12 = v4InV6Prefix then some (ip.drop 12)
  else none

/-- `IP.To16`: the 16-byte form, or `none` (nil) when the length is wrong. -/
def IP.to16 (ip : IP) : Option IP :=
  if ip.length = 4 then some (v4InV6Prefix ++ ip)
  else if ip.length = 16 then some ip
  else none

/-- An IPv4 address, in either of its forms. -/
def IP.IsIPv4 (ip : IP) : Prop := ip.to4 ≠ none

/-- An IPv6 address: 16 bytes that are not the long form of an IPv4 address. -/
def IP.IsIPv6 (ip : IP) : Prop := ip.to4 = none ∧ ip.to16 ≠ none

/-- An address of a regular length that is not IPv4 is IPv6. -/
theorem IP.isIPv6_of_length {ip : IP} (h : ip.to4 = none) (hlen : ip.length = 4 ∨ ip.length = 16) :
    ip.IsIPv6 := by
  refine ⟨h, ?_⟩
  rcases hlen with hlen | hlen
  · exact absurd h (by simp [to4, hlen])
  · simp [to16, hlen]

/-! ## Text -/

/-- The digit character of a number below 16. -/
def hexDigit (n : ℕ) : UInt8 := if n < 10 then UInt8.ofNat (48 + n) else UInt8.ofNat (87 + n)

/-- `appendDecimal` of `net/netip`: a byte in decimal, without leading zeros. -/
def decimalByte (b : UInt8) : GoString :=
  let x := b.toNat
  (if 100 ≤ x then [hexDigit (x / 100)] else []) ++
    (if 10 ≤ x then [hexDigit (x / 10 % 10)] else []) ++ [hexDigit (x % 10)]

/-- `appendHex` of `net/netip`: a 16-bit group in hexadecimal, without leading
zeros. -/
def hexGroup (x : ℕ) : GoString :=
  (if 0x1000 ≤ x then [hexDigit (x / 0x1000 % 16)] else []) ++
    (if 0x100 ≤ x then [hexDigit (x / 0x100 % 16)] else []) ++
    (if 0x10 ≤ x then [hexDigit (x / 0x10 % 16)] else []) ++ [hexDigit (x % 16)]

/-- The 16-bit groups of an address. -/
def groups : List UInt8 → List ℕ
  | a :: b :: s => (a.toNat * 256 + b.toNat) :: groups s
  | _ => []

/-- The number of zero groups at the front. -/
def zeroRun (gs : List ℕ) : ℕ := (gs.takeWhile (· = 0)).length

/-- The run of zero groups that the text leaves out: the first of the longest ones
of length two or more, as its start and its length. -/
def longestZeroRun (gs : List ℕ) : Option (ℕ × ℕ) :=
  (List.range gs.length).foldl (fun best i =>
    let l := zeroRun (gs.drop i)
    if 2 ≤ l ∧ (best.map Prod.snd).getD 0 < l then some (i, l) else best) none

/-- Groups in hexadecimal with a colon between any two. -/
def colonHex (gs : List ℕ) : GoString := [colon].intercalate (gs.map hexGroup)

/-- `Addr.string6` of `net/netip`, for an address without a zone. -/
def string6 (gs : List ℕ) : GoString :=
  match longestZeroRun gs with
  | some (i, l) => colonHex (gs.take i) ++ [colon, colon] ++ colonHex (gs.drop (i + l))
  | none => colonHex gs

/-- Four bytes in dotted decimal form. -/
def string4 (ip : List UInt8) : GoString := [dot].intercalate (ip.map decimalByte)

/-- `hexString` of `net`: two digits for every byte. -/
def hexString (ip : List UInt8) : GoString :=
  ip.flatMap fun b => [hexDigit (b.toNat / 16), hexDigit (b.toNat % 16)]

/-- `IP.String`. -/
def IP.string (ip : IP) : GoString :=
  if ip.length = 0 then ascii "<nil>"
  else if ip.length ≠ 4 ∧ ip.length ≠ 16 then 63 :: hexString ip
  else match ip.to4 with
    | some p4 => string4 p4
    | none => string6 (groups ip)

/-! ## What the text of an address starts with -/

theorem isDigit_hexDigit {n : ℕ} (h : n < 10) : isDigit (hexDigit n) = true := by
  interval_cases n <;> decide

/-- A byte in decimal starts with a digit. -/
theorem head?_decimalByte_any (b : UInt8) : (decimalByte b).head?.any isDigit = true := by
  have hb : b.toNat < 256 := b.toNat_lt
  have h1 : b.toNat / 100 < 10 := by omega
  have h2 : b.toNat / 10 % 10 < 10 := by omega
  have h3 : b.toNat % 10 < 10 := by omega
  simp only [decimalByte]
  split_ifs <;> simp [isDigit_hexDigit, h1, h2, h3]

theorem head?_string4_any (b : UInt8) (ip : List UInt8) :
    (string4 (b :: ip)).head?.any isDigit = true := by
  have hne : decimalByte b ≠ [] := by simp [decimalByte]
  cases ip with
  | nil => simpa [string4] using head?_decimalByte_any b
  | cons c ip =>
    rw [string4, List.map_cons, List.map_cons, List.intercalate_cons_cons,
      List.append_assoc, List.head?_append_of_ne_nil _ hne]
    exact head?_decimalByte_any b

theorem colon_notMem_decimalByte (b : UInt8) : colon ∉ decimalByte b := by
  have hb : b.toNat < 256 := b.toNat_lt
  intro h
  have hd : isDigit colon = true := by
    simp only [decimalByte, List.mem_append, List.mem_ite_nil_right, List.mem_singleton] at h
    rcases h with (⟨-, h⟩ | ⟨-, h⟩) | h <;> rw [h] <;> exact isDigit_hexDigit (by omega)
  exact absurd hd (by decide)

/-- Dotted decimal text has no colon. -/
theorem colon_notMem_string4 (ip : List UInt8) : colon ∉ string4 ip := by
  induction ip with
  | nil => simp [string4]
  | cons b ip ih =>
    cases ip with
    | nil => simpa [string4] using colon_notMem_decimalByte b
    | cons c ip =>
      have hsplit : string4 (b :: c :: ip) = decimalByte b ++ [dot] ++ string4 (c :: ip) := by
        simp [string4, List.intercalate_cons_cons]
      rw [hsplit, List.mem_append, List.mem_append, not_or, not_or]
      exact ⟨⟨colon_notMem_decimalByte b, by decide⟩, ih⟩

/-- The text of two or more groups has a colon. -/
theorem colon_mem_string6 {gs : List ℕ} (h : 2 ≤ gs.length) : colon ∈ string6 gs := by
  unfold string6
  split
  · simp
  · match gs, h with
    | a :: b :: gs, _ => simp [colonHex, List.intercalate_cons_cons]

theorem length_groups : ∀ s : List UInt8, (groups s).length = s.length / 2
  | [] => rfl
  | [_] => by simp [groups]
  | _ :: _ :: s => by
    rw [groups, List.length_cons, length_groups s, List.length_cons, List.length_cons]
    omega

/-- The four bytes of an IPv4 address. -/
theorem IP.length_of_to4 {ip p4 : IP} (h : ip.to4 = some p4) : p4.length = 4 := by
  unfold IP.to4 at h
  split_ifs at h with h4 h16
  · rw [← Option.some_inj.mp h, h4]
  · rw [← Option.some_inj.mp h, List.length_drop, h16.1]

theorem IP.string_of_to4 {ip p4 : IP} (h : ip.to4 = some p4) : ip.string = string4 p4 := by
  have hlen : ip.length = 4 ∨ ip.length = 16 := by
    unfold IP.to4 at h
    split_ifs at h with h4 h16
    · exact Or.inl h4
    · exact Or.inr h16.1
  rw [IP.string, if_neg (by omega), if_neg (by omega), h]

/-! ## Parsing -/

/-- `netip.Addr`: four or sixteen bytes, and a zone that only the latter may have. -/
structure Addr where
  bytes : List UInt8
  zone : GoString
  deriving DecidableEq, Repr

/-- `Addr.BitLen`. -/
def Addr.bitLen (a : Addr) : ℕ := 8 * a.bytes.length

/-- `Addr.As16`. -/
def Addr.as16 (a : Addr) : IP := if a.bytes.length = 4 then v4InV6Prefix ++ a.bytes else a.bytes

/-- One field of a dotted decimal address: at least one digit, no leading zero, at
most 255. -/
def parseOctet (s : GoString) : Option UInt8 :=
  if s = [] ∨ ¬ s.all isDigit then none
  else if s.length ≠ 1 ∧ s.head? = some 48 then none
  else if 255 < digitsValue s then none
  else some (UInt8.ofNat (digitsValue s))

/-- `parseIPv4Fields` of `net/netip`: exactly four fields. -/
def parseIPv4Fields (s : GoString) : Option (List UInt8) :=
  if (split s dot).length = 4 then (split s dot).mapM parseOctet else none

/-- The value of a hexadecimal digit. -/
def hexValue (c : UInt8) : Option ℕ :=
  if 48 ≤ c && c ≤ 57 then some (c.toNat - 48)
  else if 97 ≤ c && c ≤ 102 then some (c.toNat - 87)
  else if 65 ≤ c && c ≤ 70 then some (c.toNat - 55)
  else none

/-- The hexadecimal digits at the front of a string, and what follows them. -/
def spanHex (s : GoString) : List ℕ × GoString :=
  ((s.takeWhile fun c => (hexValue c).isSome).filterMap hexValue,
    s.dropWhile fun c => (hexValue c).isSome)

/-- The loop of `parseIPv6`: the groups still to be filled, the text, the bytes so
far and the position of the ellipsis.  Returns the bytes, the ellipsis and whatever
text is left. -/
def parseGroups : ℕ → GoString → List UInt8 → Option ℕ →
    Option (List UInt8 × Option ℕ × GoString)
  | 0, s, ip, ell => some (ip, ell, s)
  | k + 1, s, ip, ell =>
    let (ds, rest) := spanHex s
    if ds = [] ∨ 4 < ds.length then none
    else if rest.head? = some dot then
      -- the last two groups may be written as an IPv4 address
      if (ell = none ∧ ip.length ≠ 12) ∨ 12 < ip.length then none
      else (parseIPv4Fields s).map fun v4 => (ip ++ v4, ell, [])
    else
      let acc := ds.foldl (fun v d => v * 16 + d) 0
      let ip := ip ++ [UInt8.ofNat (acc / 256), UInt8.ofNat (acc % 256)]
      match rest with
      | [] => some (ip, ell, [])
      | c :: s' =>
        if c ≠ colon then none
        else match s' with
          | [] => none
          | d :: s'' =>
            if d = colon then
              if ell.isSome then none
              else if s'' = [] then some (ip, some ip.length, [])
              else parseGroups k s'' ip (some ip.length)
            else parseGroups k s' ip ell

/-- The end of `parseIPv6`: all text is used, and the ellipsis, if there is one,
stands for at least one group of zeros. -/
def expandEllipsis : List UInt8 × Option ℕ × GoString → Option (List UInt8)
  | (ip, ell, rest) =>
    if rest ≠ [] then none
    else match ell with
      | none => if ip.length = 16 then some ip else none
      | some e =>
        if ip.length < 16 then
          some (ip.take e ++ List.replicate (16 - ip.length) 0 ++ ip.drop e)
        else none

/-- `parseIPv6` of `net/netip`, behind the split at the percent sign. -/
def parseIPv6Body (body : GoString) (zone : Option GoString) : Option Addr :=
  if zone = some [] then none
  else
    (if [colon, colon].isPrefixOf body then
      if body.drop 2 = [] then some (List.replicate 16 0)
      else (parseGroups 8 (body.drop 2) [] (some 0)).bind expandEllipsis
    else (parseGroups 8 body [] none).bind expandEllipsis).map fun ip => ⟨ip, zone.getD []⟩

/-- `parseIPv6` of `net/netip`. -/
def parseIPv6 (s : GoString) : Option Addr :=
  match indexByte s percent with
  | some i => parseIPv6Body (s.take i) (some (s.drop (i + 1)))
  | none => parseIPv6Body s none

/-- `netip.ParseAddr`: the first of the bytes `.`, `:` and `%` decides how the rest
is read. -/
def parseAddr (s : GoString) : Option Addr :=
  match s.find? (fun c => c = dot ∨ c = colon ∨ c = percent) with
  | some c =>
    if c = dot then (parseIPv4Fields s).map fun ip => ⟨ip, []⟩
    else if c = colon then parseIPv6 s
    else none
  | none => none

/-- `net.ParseIP`: the 16-byte form, or `none` (nil). -/
def parseIP (s : GoString) : Option IP :=
  (parseAddr s).bind fun a => if a.zone = [] then some a.as16 else none

/-! ## Networks -/

/-- `net.IPNet`: a network number and a mask. -/
structure IPNet where
  ip : IP
  mask : List UInt8
  deriving DecidableEq, Repr

/-- `net.CIDRMask`: `ones` one bits in front of zero bits, in `len` bytes. -/
def cidrMask (ones len : ℕ) : List UInt8 :=
  (List.range len).map fun i => UInt8.ofNat (256 - 2 ^ (8 - min 8 (ones - 8 * i)))

/-- `IP.Mask`, `none` for nil. -/
def IP.mask (ip : IP) (mask : List UInt8) : Option IP :=
  let mask := if mask.length = 16 ∧ ip.length = 4 ∧ (mask.take 12).all (· == 0xff)
    then mask.drop 12 else mask
  let ip := if mask.length = 4 ∧ ip.length = 16 ∧ ip.take 12 = v4InV6Prefix
    then ip.drop 12 else ip
  if ip.length ≠ mask.length then none else some (List.zipWith (· &&& ·) ip mask)

/-- `net.ParseCIDR`, without the address it also returns. -/
def parseCIDR (s : GoString) : Option IPNet :=
  match indexByte s slash with
  | none => none
  | some i =>
    match parseAddr (s.take i) with
    | none => none
    | some a =>
      let bits := s.drop (i + 1)
      if a.zone ≠ [] then none
      else if bits = [] ∨ ¬ bits.all isDigit ∨ a.bitLen < digitsValue bits then none
      else
        let m := cidrMask (digitsValue bits) a.bytes.length
        some ⟨(a.as16.mask m).getD [], m⟩

/-- `networkNumberAndMask` of `net`: both empty when the network is malformed. -/
def networkNumberAndMask (n : IPNet) : List UInt8 × List UInt8 :=
  match n.ip.to4 with
  | some ip4 =>
    if n.mask.length = 4 then (ip4, n.mask)
    else if n.mask.length = 16 then (ip4, n.mask.drop 12)
    else ([], [])
  | none =>
    if n.ip.length = 16 ∧ n.mask.length = 16 then (n.ip, n.mask) else ([], [])

/-- `IPNet.Contains`; the nil address is the empty list. -/
def IPNet.contains (n : IPNet) (ip : IP) : Bool :=
  let (nn, m) := networkNumberAndMask n
  let x := ip.to4.getD ip
  x.length = nn.length &&
    (List.zipWith (· &&& ·) nn m == List.zipWith (· &&& ·) x m)

end Core
end ForwardProxy
