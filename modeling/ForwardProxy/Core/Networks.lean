import ForwardProxy.Core.AddrText
import Mathlib.Data.List.Forall2

/-!
# What a parsed address or network is

`netip.ParseAddr` accepts two kinds of text.  Dotted text gives four bytes; text with a colon in it
gives sixteen, and may spell an IPv4 address, as in `::ffff:1.2.3.4`.  `net.ParseIP` no longer tells
the two apart, because it returns sixteen bytes for both; `net.ParseCIDR` does, because it counts
the bits of the mask in the number of bytes (`parseAddr_shape`).

A network contains the addresses that agree with its number on the bits of its mask.  Both the
number and the address are taken in their short form first (`contains_iff_agrees`), so it does not
matter in which form an address is given (`contains_congr_to16`).
-/

namespace ForwardProxy
namespace Core

/-! ## Accepted text -/

/-- A successful `mapM` is a successful call for every element. -/
theorem forall₂_of_mapM_eq_some {α β : Type} {f : α → Option β} {l : List α} {v : List β}
    (h : l.mapM f = some v) : List.Forall₂ (fun a b => f a = some b) l v := by
  induction l generalizing v with
  | nil =>
    rw [List.mapM_nil] at h
    rw [← Option.some_inj.mp h]
    exact .nil
  | cons a l ih =>
    rw [List.mapM_cons] at h
    obtain ⟨b, hb, h⟩ := Option.bind_eq_some_iff.mp h
    obtain ⟨w, hw, h⟩ := Option.bind_eq_some_iff.mp h
    rw [← Option.some_inj.mp h]
    exact .cons hb (ih hw)

theorem isDigit_of_parseOctet {s : GoString} {b c : UInt8} (h : parseOctet s = some b)
    (hc : c ∈ s) : isDigit c = true := by
  unfold parseOctet at h
  split_ifs at h with hs
  rw [not_or, not_not] at hs
  exact List.all_eq_true.mp hs.2 c hc

/-- Dotted text is digits and dots, and stands for four bytes. -/
theorem parseIPv4Fields_shape {s : GoString} {v : List UInt8} (h : parseIPv4Fields s = some v) :
    v.length = 4 ∧ ∀ c ∈ s, c = dot ∨ isDigit c = true := by
  unfold parseIPv4Fields at h
  split_ifs at h with hlen
  have hfields := forall₂_of_mapM_eq_some h
  refine ⟨hfields.length_eq.symm.trans hlen, fun c hc => ?_⟩
  have hsplit : [dot].intercalate (split s dot) = s := List.intercalate_splitOn dot
  rw [← hsplit] at hc
  rcases mem_intercalate hc with hdot | ⟨field, hfield, hc⟩
  · exact Or.inl hdot
  · obtain ⟨i, hi, rfl⟩ := List.getElem_of_mem hfield
    have hi' : i < v.length := hfields.length_eq ▸ hi
    exact Or.inr (isDigit_of_parseOctet (List.forall₂_iff_get.mp hfields |>.2 i hi hi') hc)

/-- The digits in front of a text are no slash, so it is enough to look behind them. -/
theorem slash_notMem_of_spanHex {s : GoString} (h : slash ∉ (spanHex s).2) : slash ∉ s := by
  intro hmem
  rw [← List.takeWhile_append_dropWhile (p := fun c => (hexValue c).isSome) (l := s),
    List.mem_append] at hmem
  rcases hmem with hmem | hmem
  · exact absurd (List.mem_takeWhile_imp hmem) (by decide)
  · exact h hmem

theorem slash_notMem_of_parseIPv4Fields {s : GoString} {v : List UInt8}
    (h : parseIPv4Fields s = some v) : slash ∉ s := by
  intro hmem
  rcases (parseIPv4Fields_shape h).2 slash hmem with hdot | hdigit
  · exact absurd hdot (by decide)
  · exact absurd hdigit (by decide)

/-- A text that the loop of `parseIPv6` reads to its end has no slash in it. -/
theorem slash_notMem_of_parseGroups {k : ℕ} {s : GoString} {ip ip' : List UInt8}
    {ell ell' : Option ℕ} (h : parseGroups k s ip ell = some (ip', ell', [])) : slash ∉ s := by
  induction k generalizing s ip ell with
  | zero =>
    simp only [parseGroups, Option.some.injEq, Prod.mk.injEq] at h
    simp [h.2.2]
  | succ k ih =>
    unfold parseGroups at h
    dsimp only at h
    by_cases hds : (spanHex s).1 = [] ∨ 4 < (spanHex s).1.length
    · rw [if_pos hds] at h
      exact absurd h (by simp)
    rw [if_neg hds] at h
    by_cases hdot : (spanHex s).2.head? = some dot
    · -- the last two groups are written as an IPv4 address
      rw [if_pos hdot] at h
      split_ifs at h
      obtain ⟨v4, hv4, -⟩ := Option.map_eq_some_iff.mp h
      exact slash_notMem_of_parseIPv4Fields hv4
    · rw [if_neg hdot] at h
      refine slash_notMem_of_spanHex ?_
      cases hrest : (spanHex s).2 with
      | nil => simp
      | cons c s' =>
        rw [hrest] at h
        cases s' with
        | nil => exact absurd h (by simp)
        | cons d s'' =>
          dsimp only at h
          split_ifs at h with hc hd hell hnil
          · simp [not_not.mp hc, hd, hnil, colon, slash]
          · simpa [not_not.mp hc, hd, colon, slash] using ih h
          · simpa [not_not.mp hc, colon, slash] using ih h

/-! ## The two kinds of address -/

theorem expandEllipsis_shape {r : List UInt8 × Option ℕ × GoString} {b : List UInt8}
    (h : expandEllipsis r = some b) : b.length = 16 ∧ r.2.2 = [] := by
  obtain ⟨ip, ell, rest⟩ := r
  unfold expandEllipsis at h
  dsimp only at h
  cases ell with
  | none =>
    dsimp only at h
    split_ifs at h with hrest hlen
    rw [ne_eq, not_not] at hrest
    exact ⟨by rw [← Option.some_inj.mp h, hlen], hrest⟩
  | some e =>
    dsimp only at h
    split_ifs at h with hrest hlen
    rw [ne_eq, not_not] at hrest
    refine ⟨?_, hrest⟩
    rw [← Option.some_inj.mp h]
    simp only [List.length_append, List.length_take, List.length_replicate, List.length_drop]
    omega

theorem parseGroups_bind_shape {s : GoString} {ell : Option ℕ} {b : List UInt8}
    (h : (parseGroups 8 s [] ell).bind expandEllipsis = some b) : b.length = 16 ∧ slash ∉ s := by
  obtain ⟨⟨ip, ell', rest⟩, hgroups, hexp⟩ := Option.bind_eq_some_iff.mp h
  obtain ⟨hlen, rfl⟩ := expandEllipsis_shape hexp
  exact ⟨hlen, slash_notMem_of_parseGroups hgroups⟩

theorem parseIPv6Body_shape {body : GoString} {zone : Option GoString} {a : Addr}
    (h : parseIPv6Body body zone = some a) :
    a.bytes.length = 16 ∧ a.zone = zone.getD [] ∧ zone ≠ some [] ∧ slash ∉ body := by
  unfold parseIPv6Body at h
  split_ifs at h with hzone hcolons hnil
  · rw [← Option.some_inj.mp h]
    obtain ⟨t, rfl⟩ := List.isPrefixOf_iff_prefix.mp hcolons
    refine ⟨by simp, rfl, hzone, ?_⟩
    have ht : t = [] := hnil
    rw [ht]
    decide
  · obtain ⟨b, hb, rfl⟩ := Option.map_eq_some_iff.mp h
    obtain ⟨hlen, hslash⟩ := parseGroups_bind_shape hb
    obtain ⟨t, rfl⟩ := List.isPrefixOf_iff_prefix.mp hcolons
    refine ⟨hlen, rfl, hzone, ?_⟩
    have ht : slash ∉ t := hslash
    simpa [colon, slash] using ht
  · obtain ⟨b, hb, rfl⟩ := Option.map_eq_some_iff.mp h
    exact ⟨(parseGroups_bind_shape hb).1, rfl, hzone, (parseGroups_bind_shape hb).2⟩

/-- What `netip.ParseAddr` accepts without a zone: dotted text, which gives four bytes, or text
with a colon, which gives sixteen. -/
theorem parseAddr_shape {s : GoString} {a : Addr} (h : parseAddr s = some a) (hzone : a.zone = []) :
    slash ∉ s ∧ (a.bytes.length = 4 ∧ colon ∉ s ∨ a.bytes.length = 16 ∧ colon ∈ s) := by
  unfold parseAddr at h
  cases hfind : s.find? (fun c => c = dot ∨ c = colon ∨ c = percent) with
  | none =>
    rw [hfind] at h
    exact absurd h (by simp)
  | some c =>
    rw [hfind] at h
    dsimp only at h
    split_ifs at h with hdot hcolon
    · obtain ⟨v, hv, rfl⟩ := Option.map_eq_some_iff.mp h
      obtain ⟨hlen, hbytes⟩ := parseIPv4Fields_shape hv
      refine ⟨slash_notMem_of_parseIPv4Fields hv, Or.inl ⟨hlen, fun hmem => ?_⟩⟩
      rcases hbytes colon hmem with hd | hd
      · exact absurd hd (by decide)
      · exact absurd hd (by decide)
    · have hmem : colon ∈ s := hcolon ▸ List.mem_of_find?_eq_some hfind
      rw [parseIPv6] at h
      cases hindex : indexByte s percent with
      | none =>
        rw [hindex] at h
        obtain ⟨hlen, -, -, hslash⟩ := parseIPv6Body_shape h
        exact ⟨hslash, Or.inr ⟨hlen, hmem⟩⟩
      | some i =>
        -- behind a percent sign there is a zone
        rw [hindex] at h
        obtain ⟨-, hz, hne, -⟩ := parseIPv6Body_shape h
        rw [hzone] at hz
        exact absurd (congrArg some hz.symm) hne

/-! ## Equality of addresses -/

/-- `IP.Equal`: the same bytes, or a 4-byte address and its 16-byte form. -/
def IP.equal (ip x : IP) : Bool :=
  if ip.length = x.length then ip == x
  else if ip.length = 4 ∧ x.length = 16 then x.take 12 == v4InV6Prefix && ip == x.drop 12
  else if ip.length = 16 ∧ x.length = 4 then ip.take 12 == v4InV6Prefix && ip.drop 12 == x
  else false

/-- An address of one of the two lengths that the package knows. -/
def IP.Regular (ip : IP) : Prop := ip.length = 4 ∨ ip.length = 16

/-- The short form of an address that has one, and the address itself otherwise. -/
def IP.short (ip : IP) : IP := ip.to4.getD ip

theorem IP.short_of_length_four {ip : IP} (h : ip.length = 4) : ip.short = ip := by
  simp [short, to4, h]

theorem IP.short_mapped {v : IP} (h : v.length = 4) : IP.short (v4InV6Prefix ++ v) = v := by
  simp [short, to4, h, v4InV6Prefix]

theorem IP.short_of_to4_eq_none {ip : IP} (h : ip.to4 = none) : ip.short = ip := by
  simp [short, h]

/-- The three kinds of addresses: four bytes, their 16-byte form, and any other sixteen bytes. -/
theorem IP.Regular.cases {ip : IP} (h : ip.Regular) : ip.length = 4 ∨
    (∃ v : IP, v.length = 4 ∧ ip = v4InV6Prefix ++ v) ∨ ip.length = 16 ∧ ip.to4 = none := by
  rcases h with h | h
  · exact Or.inl h
  · by_cases hpre : ip.take 12 = v4InV6Prefix
    · refine Or.inr (Or.inl ⟨ip.drop 12, by rw [List.length_drop, h], ?_⟩)
      rw [← hpre, List.take_append_drop]
    · exact Or.inr (Or.inr ⟨h, by simp [to4, h, hpre]⟩)

theorem IP.equal_of_length_eq {ip x : IP} (h : ip.length = x.length) :
    ip.equal x = true ↔ ip = x := by
  rw [equal, if_pos h, beq_iff_eq]

theorem IP.equal_comm (ip x : IP) : ip.equal x = x.equal ip := by
  by_cases h : ip.length = x.length
  · rw [equal, equal, if_pos h, if_pos h.symm, Bool.beq_comm]
  · rw [equal, equal, if_neg h, if_neg (Ne.symm h)]
    by_cases h4 : ip.length = 4 ∧ x.length = 16
    · rw [if_pos h4, if_neg (by omega), if_pos ⟨h4.2, h4.1⟩, Bool.beq_comm (a := ip)]
    · rw [if_neg h4]
      by_cases h16 : ip.length = 16 ∧ x.length = 4
      · rw [if_pos h16, if_pos ⟨h16.2, h16.1⟩, Bool.beq_comm (b := x)]
      · rw [if_neg h16, if_neg (by tauto), if_neg (by tauto)]

/-- Comparing a short address with a long one. -/
theorem IP.equal_iff_of_short_long {ip x : IP} (h : ip.length = 4) (hx : x.length = 16) :
    ip.equal x = true ↔ ip = x.short := by
  rw [equal, if_neg (by omega), if_pos ⟨h, hx⟩, Bool.and_eq_true, beq_iff_eq, beq_iff_eq]
  by_cases hpre : x.take 12 = v4InV6Prefix
  · simp [short, to4, hx, hpre]
  · have hshort : x.short = x := short_of_to4_eq_none (by simp [to4, hx, hpre])
    refine iff_of_false (fun hand => hpre hand.1) fun heq => ?_
    rw [hshort] at heq
    rw [heq] at h
    omega

/-- Two addresses are equal when their short forms are the same bytes. -/
theorem IP.equal_iff {ip x : IP} (hip : ip.Regular) (hx : x.Regular) :
    ip.equal x = true ↔ ip.short = x.short := by
  rcases hip with h | h <;> rcases hx with h' | h'
  · rw [equal_of_length_eq (h.trans h'.symm), short_of_length_four h, short_of_length_four h']
  · rw [equal_iff_of_short_long h h', short_of_length_four h]
  · rw [equal_comm, equal_iff_of_short_long h' h, short_of_length_four h', eq_comm]
  · rw [equal_of_length_eq (h.trans h'.symm)]
    refine ⟨congrArg short, fun heq => ?_⟩
    have hinj : ∀ {y : IP}, y.length = 16 → y = (if y.short.length = 4 then v4InV6Prefix ++ y.short
        else y.short) := by
      intro y hy
      rcases Regular.cases (Or.inr hy) with h4 | ⟨v, hv, rfl⟩ | ⟨-, hnone⟩
      · omega
      · rw [short_mapped hv, if_pos hv]
      · rw [short_of_to4_eq_none hnone, if_neg (by omega)]
    rw [hinj h, hinj h', heq]

/-! ## Networks -/

/-- A number and a mask of one length. -/
def IPNet.Regular (n : IPNet) : Prop := n.ip.Regular ∧ n.mask.length = n.ip.length

/-- The mask of a network for the short form of its number. -/
def IPNet.shortMask (n : IPNet) : List UInt8 := n.mask.drop (n.mask.length - n.ip.short.length)

/-- An address is in a network: their short forms have one length and the same bits under the
mask. -/
def IPNet.Agrees (n : IPNet) (x : IP) : Prop :=
  x.short.length = n.ip.short.length ∧
    ∀ (i : ℕ) (hx : i < x.short.length) (hn : i < n.ip.short.length) (hm : i < n.shortMask.length),
      x.short.get ⟨i, hx⟩ &&& n.shortMask.get ⟨i, hm⟩ =
        n.ip.short.get ⟨i, hn⟩ &&& n.shortMask.get ⟨i, hm⟩

theorem networkNumberAndMask_eq {n : IPNet} (h : n.Regular) :
    networkNumberAndMask n = (n.ip.short, n.shortMask) := by
  obtain ⟨hip, hmask⟩ := h
  rcases hip.cases with h4 | ⟨v, hv, hip⟩ | ⟨h16, hnone⟩
  · have hto4 : n.ip.to4 = some n.ip := by simp [IP.to4, h4]
    simp [networkNumberAndMask, hto4, IPNet.shortMask, IP.short, hmask, h4]
  · have hto4 : n.ip.to4 = some v := by simp [IP.to4, hip, hv, v4InV6Prefix]
    have h16 : n.mask.length = 16 := by simp [hmask, hip, hv, v4InV6Prefix]
    simp [networkNumberAndMask, hto4, IPNet.shortMask, IP.short, h16, hv]
  · simp [networkNumberAndMask, hnone, IPNet.shortMask, IP.short, hmask, h16]

theorem length_shortMask {n : IPNet} (h : n.Regular) : n.shortMask.length = n.ip.short.length := by
  obtain ⟨hip, hmask⟩ := h
  rw [IPNet.shortMask, List.length_drop, hmask]
  rcases hip.cases with h4 | ⟨v, hv, hip⟩ | ⟨h16, hnone⟩
  · rw [IP.short_of_length_four h4]; omega
  · rw [hip, IP.short_mapped hv]; simp [v4InV6Prefix, hv]
  · rw [IP.short_of_to4_eq_none hnone]; omega

theorem contains_iff_agrees {n : IPNet} (h : n.Regular) (x : IP) :
    n.contains x = true ↔ n.Agrees x := by
  have hmask := length_shortMask h
  rw [IPNet.contains, networkNumberAndMask_eq h, IPNet.Agrees]
  simp only [Bool.and_eq_true, decide_eq_true_eq, beq_iff_eq]
  change x.short.length = _ ∧ _ = List.zipWith _ x.short _ ↔ _
  refine and_congr_right fun hlen => ?_
  rw [List.ext_get_iff]
  constructor
  · rintro ⟨-, heq⟩ i hx hn hm
    have hi := heq i (by simp; omega) (by simp; omega)
    simpa using hi.symm
  · intro heq
    refine ⟨by simp [hlen], fun i hi hi' => ?_⟩
    simp only [List.length_zipWith, lt_min_iff] at hi hi'
    simpa using (heq i hi'.1 hi.1 hi.2).symm

/-- A network does not depend on the form in which an address is given. -/
theorem contains_congr_to16 (n : IPNet) {x x' : IP} (h : x.to16 = some x') :
    n.contains x' = n.contains x := by
  have hshort : x'.to4.getD x' = x.to4.getD x := by
    unfold IP.to16 at h
    split_ifs at h with h4 h16
    · rw [← Option.some_inj.mp h]
      exact (IP.short_mapped h4).trans (IP.short_of_length_four h4).symm
    · rw [Option.some_inj.mp h]
  rw [IPNet.contains, IPNet.contains, hshort]

/-! ## Parsed networks -/

theorem length_cidrMask (ones len : ℕ) : (cidrMask ones len).length = len := by simp [cidrMask]

/-- The network that `ParseCIDR` returns for an address and a number of bits. -/
def Addr.network (a : Addr) (ones : ℕ) : IPNet :=
  ⟨List.zipWith (· &&& ·) a.bytes (cidrMask ones a.bytes.length), cidrMask ones a.bytes.length⟩

/-- Masking undoes the long form of dotted text. -/
theorem mask_as16 {a : Addr} (h : IP.Regular a.bytes) (ones : ℕ) :
    (⟨(a.as16.mask (cidrMask ones a.bytes.length)).getD [], cidrMask ones a.bytes.length⟩ : IPNet) =
      a.network ones := by
  have hlen := length_cidrMask ones a.bytes.length
  rcases h with h | h
  · rw [h] at hlen
    simp [Addr.network, Addr.as16, IP.mask, h, hlen, v4InV6Prefix]
  · rw [h] at hlen
    simp [Addr.network, Addr.as16, IP.mask, h, hlen]

theorem regular_bytes_of_parseAddr {s : GoString} {a : Addr} (h : parseAddr s = some a)
    (hzone : a.zone = []) : IP.Regular a.bytes :=
  (parseAddr_shape h hzone).2.imp And.left And.left

theorem exists_addr_of_parseIP {s : GoString} {ip : IP} (h : parseIP s = some ip) :
    ∃ a, parseAddr s = some a ∧ a.zone = [] ∧ a.as16 = ip := by
  obtain ⟨a, ha, h⟩ := Option.bind_eq_some_iff.mp h
  split_ifs at h with hzone
  exact ⟨a, ha, hzone, Option.some_inj.mp h⟩

theorem length_as16 {a : Addr} (h : IP.Regular a.bytes) : a.as16.length = 16 := by
  rcases h with h | h
  · simp [Addr.as16, h, v4InV6Prefix]
  · simp [Addr.as16, h]

/-- `net.ParseIP` returns sixteen bytes. -/
theorem length_of_parseIP {s : GoString} {ip : IP} (h : parseIP s = some ip) : ip.length = 16 := by
  obtain ⟨a, ha, hzone, rfl⟩ := exists_addr_of_parseIP h
  exact length_as16 (regular_bytes_of_parseAddr ha hzone)

/-- The text of an address with a number of bits behind it. -/
theorem parseCIDR_append {s bits : GoString} {a : Addr} (h : parseAddr s = some a)
    (hzone : a.zone = []) (hne : bits ≠ []) (hdigits : bits.all isDigit = true)
    (hle : digitsValue bits ≤ a.bitLen) :
    parseCIDR (s ++ slash :: bits) = some (a.network (digitsValue bits)) := by
  rw [parseCIDR, indexByte_append_cons (parseAddr_shape h hzone).1]
  have htake : (s ++ slash :: bits).take s.length = s := List.take_left
  have hdrop : (s ++ slash :: bits).drop (s.length + 1) = bits := by simp [List.drop_append]
  simp only [htake, hdrop, h]
  rw [if_neg (not_not.mpr hzone), if_neg (by simp [hne, hdigits, hle]),
    mask_as16 (regular_bytes_of_parseAddr h hzone)]

/-- A network is the one of an address and a number of bits. -/
theorem exists_network_of_parseCIDR {s : GoString} {n : IPNet} (h : parseCIDR s = some n) :
    ∃ (a : Addr) (ones : ℕ), IP.Regular a.bytes ∧ n = a.network ones := by
  unfold parseCIDR at h
  cases hindex : indexByte s slash with
  | none =>
    rw [hindex] at h
    exact absurd h (by simp)
  | some i =>
    rw [hindex] at h
    dsimp only at h
    cases haddr : parseAddr (s.take i) with
    | none =>
      rw [haddr] at h
      exact absurd h (by simp)
    | some a =>
      rw [haddr] at h
      dsimp only at h
      split_ifs at h with hzone hbits
      have hregular := regular_bytes_of_parseAddr haddr (not_not.mp hzone)
      refine ⟨a, digitsValue (s.drop (i + 1)), hregular, ?_⟩
      rw [← Option.some_inj.mp h, mask_as16 hregular]

theorem Addr.regular_network {a : Addr} (h : IP.Regular a.bytes) (ones : ℕ) :
    (a.network ones).Regular := by
  have hlen : (a.network ones).ip.length = a.bytes.length := by
    simp [network, length_cidrMask]
  refine ⟨?_, ?_⟩
  · rwa [IP.Regular, hlen]
  · rw [hlen]
    exact length_cidrMask ones _

theorem regular_of_parseCIDR {s : GoString} {n : IPNet} (h : parseCIDR s = some n) : n.Regular := by
  obtain ⟨a, ones, ha, rfl⟩ := exists_network_of_parseCIDR h
  exact a.regular_network ha ones

theorem and_full (b : UInt8) : b &&& 255 = b := UInt8.and_neg_one

/-- All bits of the text of an address. -/
theorem Addr.network_full {a : Addr} (h : IP.Regular a.bytes) :
    a.network a.bitLen = ⟨a.bytes, List.replicate a.bytes.length 255⟩ := by
  have hmask : cidrMask a.bitLen a.bytes.length = List.replicate a.bytes.length 255 := by
    rw [bitLen]
    rcases h with h | h <;> rw [h] <;> decide
  have hand : List.zipWith (· &&& ·) a.bytes (List.replicate a.bytes.length 255) = a.bytes := by
    refine List.ext_getElem (by simp) fun i hi hi' => ?_
    rw [List.getElem_zipWith, List.getElem_replicate, and_full]
  rw [network, hmask, hand]

/-- A network with all bits in its mask has one address. -/
theorem agrees_full_iff {v : IP} (hv : v.Regular) {m : List UInt8}
    (hm : m = List.replicate v.length 255) (x : IP) :
    IPNet.Agrees ⟨v, m⟩ x ↔ x.short = v.short := by
  have hmask := length_shortMask (n := ⟨v, m⟩) ⟨hv, by simp [hm]⟩
  have hones : ∀ (i : ℕ) (hi : i < (IPNet.shortMask ⟨v, m⟩).length),
      (IPNet.shortMask ⟨v, m⟩).get ⟨i, hi⟩ = 255 := by
    intro i hi
    simp [IPNet.shortMask, hm]
  rw [List.ext_get_iff]
  constructor
  · rintro ⟨hlen, hagree⟩
    refine ⟨hlen, fun i hx hn => ?_⟩
    have hi := hagree i hx hn (hmask.symm ▸ hn)
    rwa [hones, and_full, and_full] at hi
  · rintro ⟨hlen, heq⟩
    exact ⟨hlen, fun i hx hn hm => by rw [hones, and_full, and_full, heq i hx hn]⟩

end Core
end ForwardProxy
