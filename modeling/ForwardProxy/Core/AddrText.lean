import ForwardProxy.Core.HostPort
import Mathlib.Data.List.TakeWhile

/-!
# Addresses survive being written out

`net.ParseIP` reads what `IP.String` writes, and `net.SplitHostPort` takes apart what
`net.JoinHostPort` puts together.

The text of an IPv6 address leaves out its longest run of zero groups.  The proof follows the
loop of the parser: a group of digits is read back as its value (`spanHex_hexGroup`), groups with
colons between them as their bytes (`parseGroups_colonHex`), and the double colon only notes where
it stands (`parseGroups_ellipsis`), so that the zeros are put back in at the end.
-/

namespace ForwardProxy
namespace Core

/-! ## IPv4 -/

theorem parseOctet_decimalByte (b : UInt8) : parseOctet (decimalByte b) = some b := by
  refine forall_byte (P := fun b => parseOctet (decimalByte b) = some b) ?_ b
  decide +kernel

theorem isDigit_of_mem_decimalByte {b c : UInt8} (h : c ∈ decimalByte b) : isDigit c = true := by
  have hb : b.toNat < 256 := b.toNat_lt
  simp only [decimalByte, List.mem_append, List.mem_ite_nil_right, List.mem_singleton] at h
  rcases h with (⟨-, h⟩ | ⟨-, h⟩) | h <;> rw [h] <;> exact isDigit_hexDigit (by omega)

/-- A byte of a joined text is the separator or a byte of one of the parts. -/
theorem mem_intercalate {c sep : UInt8} {ls : List GoString} (h : c ∈ [sep].intercalate ls) :
    c = sep ∨ ∃ l ∈ ls, c ∈ l := by
  induction ls with
  | nil => exact absurd h (by simp)
  | cons l ls ih =>
    cases ls with
    | nil => exact Or.inr ⟨l, List.mem_cons_self, by simpa using h⟩
    | cons m ls =>
      rw [List.intercalate_cons_cons, List.mem_append, List.mem_append, List.mem_singleton] at h
      rcases h with (h | h) | h
      · exact Or.inr ⟨l, List.mem_cons_self, h⟩
      · exact Or.inl h
      · rcases ih h with h | ⟨k, hk, hc⟩
        · exact Or.inl h
        · exact Or.inr ⟨k, List.mem_cons_of_mem _ hk, hc⟩

theorem mem_string4 {ip : List UInt8} {c : UInt8} (h : c ∈ string4 ip) :
    c = dot ∨ isDigit c = true := by
  rcases mem_intercalate h with h | ⟨l, hl, hc⟩
  · exact Or.inl h
  · obtain ⟨b, -, rfl⟩ := List.mem_map.mp hl
    exact Or.inr (isDigit_of_mem_decimalByte hc)

theorem parseIPv4Fields_string4 {ip : List UInt8} (h : ip.length = 4) :
    parseIPv4Fields (string4 ip) = some ip := by
  have hne : ip.map decimalByte ≠ [] := by
    intro hnil
    rw [List.map_eq_nil_iff] at hnil
    rw [hnil] at h
    exact absurd h (by decide)
  have hdot : ∀ l ∈ ip.map decimalByte, dot ∉ l := by
    intro l hl hmem
    obtain ⟨b, -, rfl⟩ := List.mem_map.mp hl
    exact absurd (isDigit_of_mem_decimalByte hmem) (by decide)
  have hsplit : split (string4 ip) dot = ip.map decimalByte :=
    List.splitOn_intercalate dot hdot hne
  have hcomp : parseOctet ∘ decimalByte = some := funext parseOctet_decimalByte
  rw [parseIPv4Fields, hsplit, List.length_map, if_pos h, List.mapM_map, hcomp]
  exact List.mapM_pure (m := Option) (f := id) |>.trans (by rw [List.map_id]; rfl)

/-- The first of several bytes that is in a text is the only one of them in it. -/
theorem find?_eq_some_of_unique {s : GoString} {p : UInt8 → Bool} {c : UInt8} (hc : c ∈ s)
    (hp : p c = true) (huniq : ∀ d ∈ s, p d = true → d = c) : s.find? p = some c := by
  cases h : s.find? p with
  | none => exact absurd hp (List.find?_eq_none.mp h c hc)
  | some d => rw [huniq d (List.mem_of_find?_eq_some h) (List.find?_some h)]

theorem dot_mem_string4 {ip : List UInt8} (h : 2 ≤ ip.length) : dot ∈ string4 ip := by
  match ip, h with
  | a :: b :: ip, _ => simp [string4, List.intercalate_cons_cons]

theorem parseIP_string4 {ip : List UInt8} (h : ip.length = 4) :
    parseIP (string4 ip) = some (v4InV6Prefix ++ ip) := by
  have hfind : (string4 ip).find? (fun c => c = dot ∨ c = colon ∨ c = percent) = some dot := by
    refine find?_eq_some_of_unique (dot_mem_string4 (by omega)) (by decide) ?_
    intro d hd hp
    rcases mem_string4 hd with h | h
    · exact h
    · simp only [decide_eq_true_eq] at hp
      rcases hp with hp | hp | hp
      · exact hp
      · rw [hp] at h
        exact absurd h (by decide)
      · rw [hp] at h
        exact absurd h (by decide)
  rw [parseIP, parseAddr, hfind]
  simp only [if_true, parseIPv4Fields_string4 h, Option.map_some, Option.bind_some, Addr.as16, h]

/-! ## The groups of an IPv6 address -/

/-- The two bytes of a group. -/
def groupBytes (x : ℕ) : List UInt8 := [UInt8.ofNat (x / 256), UInt8.ofNat (x % 256)]

theorem flatMap_groups : ∀ ip : List UInt8, 2 ∣ ip.length → (groups ip).flatMap groupBytes = ip
  | [], _ => rfl
  | [_], h => absurd h (by simp)
  | a :: b :: ip, h => by
    have hb : b.toNat < 256 := b.toNat_lt
    have hhigh : (a.toNat * 256 + b.toNat) / 256 = a.toNat := by omega
    have hlow : (a.toNat * 256 + b.toNat) % 256 = b.toNat := by omega
    have hrest : 2 ∣ ip.length := by
      simp only [List.length_cons] at h
      omega
    rw [groups, List.flatMap_cons, flatMap_groups ip hrest, groupBytes, hhigh, hlow,
      UInt8.ofNat_toNat, UInt8.ofNat_toNat]
    rfl

theorem lt_of_mem_groups : ∀ ip : List UInt8, ∀ x ∈ groups ip, x < 65536
  | [], _, h => absurd h (by simp [groups])
  | [_], _, h => absurd h (by simp [groups])
  | a :: b :: ip, x, h => by
    have ha : a.toNat < 256 := a.toNat_lt
    have hb : b.toNat < 256 := b.toNat_lt
    rw [groups, List.mem_cons] at h
    rcases h with rfl | h
    · omega
    · exact lt_of_mem_groups ip x h

theorem flatMap_groupBytes_cons (x : ℕ) (gs : List ℕ) :
    (x :: gs).flatMap groupBytes = groupBytes x ++ gs.flatMap groupBytes := List.flatMap_cons

theorem length_flatMap_groupBytes (gs : List ℕ) :
    (gs.flatMap groupBytes).length = 2 * gs.length := by
  induction gs with
  | nil => rfl
  | cons x gs ih =>
    rw [List.flatMap_cons, List.length_append, ih, List.length_cons]
    show 2 + 2 * gs.length = 2 * (gs.length + 1)
    omega

theorem flatMap_groupBytes_replicate (n : ℕ) :
    (List.replicate n 0).flatMap groupBytes = List.replicate (2 * n) 0 := by
  induction n with
  | zero => rfl
  | succ n ih =>
    rw [List.replicate_succ, List.flatMap_cons, ih, Nat.mul_succ, Nat.add_comm (2 * n) 2,
      List.replicate_add]
    rfl

/-! ### The run of zeros -/

/-- The groups at the front that are counted as zeros are zeros. -/
theorem eq_replicate_append_drop_zeroRun (gs : List ℕ) :
    gs = List.replicate (zeroRun gs) 0 ++ gs.drop (zeroRun gs) := by
  have hzero : gs.takeWhile (· = 0) = List.replicate (zeroRun gs) 0 :=
    List.eq_replicate_iff.mpr ⟨rfl, fun x hx => by simpa using List.mem_takeWhile_imp hx⟩
  have hsplit : gs.takeWhile (· = 0) ++ gs.dropWhile (· = 0) = gs := List.takeWhile_append_dropWhile
  have hdrop : gs.drop (zeroRun gs) = gs.dropWhile (· = 0) := by
    have hleft : (gs.takeWhile (· = 0) ++ gs.dropWhile (· = 0)).drop (gs.takeWhile (· = 0)).length =
      gs.dropWhile (· = 0) := List.drop_left
    rwa [hsplit] at hleft
  rw [hdrop, ← hzero, hsplit]

/-- The run that the text leaves out consists of at least two zeros. -/
theorem longestZeroRun_eq_some {gs : List ℕ} {i l : ℕ} (h : longestZeroRun gs = some (i, l)) :
    2 ≤ l ∧ gs = gs.take i ++ (List.replicate l 0 ++ gs.drop (i + l)) := by
  have hinv : ∀ i l, longestZeroRun gs = some (i, l) → 2 ≤ l ∧ l = zeroRun (gs.drop i) := by
    refine List.foldlRecOn _ _ (motive := fun best => ∀ i l, best = some (i, l) →
      2 ≤ l ∧ l = zeroRun (gs.drop i)) nofun ?_
    intro best hbest j _ i l heq
    dsimp only at heq
    split_ifs at heq with hlonger
    · obtain ⟨rfl, rfl⟩ := Prod.mk.inj (Option.some.inj heq)
      exact ⟨hlonger.1, rfl⟩
    · exact hbest i l heq
  obtain ⟨htwo, hl⟩ := hinv i l h
  refine ⟨htwo, ?_⟩
  have hrun := eq_replicate_append_drop_zeroRun (gs.drop i)
  rw [← hl, List.drop_drop] at hrun
  rw [← hrun, List.take_append_drop]

/-! ### Reading a group -/

/-- The digits of a group. -/
def groupDigits (x : ℕ) : List ℕ :=
  (if 0x1000 ≤ x then [x / 0x1000 % 16] else []) ++
    (if 0x100 ≤ x then [x / 0x100 % 16] else []) ++
    (if 0x10 ≤ x then [x / 0x10 % 16] else []) ++ [x % 16]

theorem hexGroup_eq (x : ℕ) : hexGroup x = (groupDigits x).map hexDigit := by
  unfold hexGroup groupDigits
  split_ifs <;> rfl

theorem lt_of_mem_groupDigits {x d : ℕ} (h : d ∈ groupDigits x) : d < 16 := by
  simp only [groupDigits, List.mem_append, List.mem_ite_nil_right, List.mem_singleton] at h
  omega

theorem groupDigits_ne_nil (x : ℕ) : groupDigits x ≠ [] := by simp [groupDigits]

theorem length_groupDigits_le (x : ℕ) : (groupDigits x).length ≤ 4 := by
  unfold groupDigits
  split_ifs <;> simp

theorem foldl_groupDigits {x : ℕ} (h : x < 65536) :
    (groupDigits x).foldl (fun v d => v * 16 + d) 0 = x := by
  unfold groupDigits
  split_ifs <;> simp only [List.cons_append, List.nil_append, List.foldl_cons,
    List.foldl_nil] <;> omega

theorem hexValue_hexDigit {n : ℕ} (h : n < 16) : hexValue (hexDigit n) = some n := by
  interval_cases n <;> decide

/-- The parser takes the digits of a group up to the first other byte. -/
theorem spanHex_map_hexDigit {ds : List ℕ} (hds : ∀ d ∈ ds, d < 16) {rest : GoString}
    (hrest : ∀ c, rest.head? = some c → hexValue c = none) :
    spanHex (ds.map hexDigit ++ rest) = (ds, rest) := by
  induction ds with
  | nil =>
    cases rest with
    | nil => rfl
    | cons c rest => simp [spanHex, hrest c rfl]
  | cons d ds ih =>
    have hd := hexValue_hexDigit (hds d List.mem_cons_self)
    have hrec := ih fun d hd => hds d (List.mem_cons_of_mem _ hd)
    simp only [spanHex, Prod.mk.injEq] at hrec
    simp only [spanHex, List.map_cons, List.cons_append, List.takeWhile_cons, List.dropWhile_cons,
      hd, Option.isSome_some, if_true, List.filterMap_cons, Prod.mk.injEq]
    exact ⟨congrArg _ hrec.1, hrec.2⟩

theorem spanHex_hexGroup (x : ℕ) {rest : GoString} (hrest : rest = [] ∨ rest.head? = some colon) :
    spanHex (hexGroup x ++ rest) = (groupDigits x, rest) := by
  rw [hexGroup_eq]
  refine spanHex_map_hexDigit (fun d hd => lt_of_mem_groupDigits hd) fun c hc => ?_
  rcases hrest with rfl | hcolon
  · exact absurd hc (by simp)
  · rw [hcolon] at hc
    rw [← Option.some.inj hc]
    rfl

/-! ### Reading groups -/

/-- One turn of the parser's loop over a group. -/
theorem parseGroups_hexGroup {k x : ℕ} (hx : x < 65536) (ip : List UInt8) (ell : Option ℕ)
    {rest : GoString} (hrest : rest = [] ∨ rest.head? = some colon) :
    parseGroups (k + 1) (hexGroup x ++ rest) ip ell =
      match rest with
      | [] => some (ip ++ groupBytes x, ell, [])
      | _ :: [] => none
      | _ :: d :: s =>
        if d = colon then
          if ell.isSome then none
          else if s = [] then some (ip ++ groupBytes x, some (ip ++ groupBytes x).length, [])
          else parseGroups k s (ip ++ groupBytes x) (some (ip ++ groupBytes x).length)
        else parseGroups k (d :: s) (ip ++ groupBytes x) ell := by
  have hdigits : ¬ (groupDigits x = [] ∨ 4 < (groupDigits x).length) := by
    rw [not_or, not_lt]
    exact ⟨groupDigits_ne_nil x, length_groupDigits_le x⟩
  have hdot : rest.head? ≠ some dot := by
    rcases hrest with rfl | h
    · simp
    · rw [h]
      decide
  rw [parseGroups, spanHex_hexGroup x hrest]
  simp only [hdigits, if_false, hdot, foldl_groupDigits hx]
  rcases rest with _ | ⟨c, _ | ⟨d, s⟩⟩
  · rfl
  · simp
  · have hc : c = colon := by simpa using hrest
    simp only [hc, ne_eq, not_true_eq_false, if_false]
    rfl

/-- Text that starts with a group does not start with a colon. -/
theorem exists_hexGroup_append_eq_cons (x : ℕ) (s : GoString) :
    ∃ c t, hexGroup x ++ s = c :: t ∧ c ≠ colon := by
  obtain ⟨d, ds, hds⟩ := List.exists_cons_of_ne_nil (groupDigits_ne_nil x)
  refine ⟨hexDigit d, ds.map hexDigit ++ s, by rw [hexGroup_eq, hds]; rfl, ?_⟩
  intro hcolon
  have hvalue :=
    hexValue_hexDigit (lt_of_mem_groupDigits (hds ▸ List.mem_cons_self : d ∈ groupDigits x))
  have hnone : hexValue colon = none := rfl
  rw [hcolon, hnone] at hvalue
  exact absurd hvalue (by simp)

theorem colonHex_cons_cons (x y : ℕ) (gs : List ℕ) :
    colonHex (x :: y :: gs) = hexGroup x ++ colon :: colonHex (y :: gs) := by
  simp [colonHex, List.intercalate_cons_cons]

theorem colonHex_singleton (x : ℕ) : colonHex [x] = hexGroup x := by simp [colonHex]

/-- Text that starts with groups starts with a group. -/
theorem exists_colonHex_append_eq (x : ℕ) (gs : List ℕ) (s : GoString) :
    ∃ t, colonHex (x :: gs) ++ s = hexGroup x ++ t := by
  cases gs with
  | nil => exact ⟨s, by rw [colonHex_singleton]⟩
  | cons y gs => exact ⟨colon :: colonHex (y :: gs) ++ s, by rw [colonHex_cons_cons]; simp⟩

/-- The parser reads groups with colons between them. -/
theorem parseGroups_colonHex {gs : List ℕ} (hgs : ∀ x ∈ gs, x < 65536) (hne : gs ≠ []) {k : ℕ}
    (hk : gs.length ≤ k) (ip : List UInt8) (ell : Option ℕ) :
    parseGroups k (colonHex gs) ip ell = some (ip ++ gs.flatMap groupBytes, ell, []) := by
  induction gs generalizing k ip with
  | nil => exact absurd rfl hne
  | cons x gs ih =>
    obtain ⟨k, rfl⟩ : ∃ k', k = k' + 1 := Nat.exists_eq_succ_of_ne_zero (by simp at hk; omega)
    have hx := hgs x List.mem_cons_self
    cases gs with
    | nil =>
      have h : parseGroups (k + 1) (hexGroup x ++ []) ip ell = some (ip ++ groupBytes x, ell, []) :=
        parseGroups_hexGroup hx ip ell (Or.inl rfl)
      rw [List.append_nil] at h
      rw [colonHex_singleton, h, List.flatMap_singleton]
    | cons y gs =>
      obtain ⟨t, ht⟩ := exists_colonHex_append_eq y gs []
      obtain ⟨c, t', hc, hcolon⟩ := exists_hexGroup_append_eq_cons y t
      rw [List.append_nil] at ht
      have hrec := ih (fun z hz => hgs z (List.mem_cons_of_mem _ hz)) (by simp) (k := k)
        (by simpa using hk) (ip ++ groupBytes x)
      rw [colonHex_cons_cons, parseGroups_hexGroup hx ip ell (Or.inr rfl), ht, hc]
      simp only [hcolon, if_false]
      rw [← hc, ← ht, hrec, flatMap_groupBytes_cons x, List.append_assoc]

/-- The parser reads groups up to the double colon and notes its place. -/
theorem parseGroups_ellipsis {gs : List ℕ} (hgs : ∀ x ∈ gs, x < 65536) (hne : gs ≠ []) {k : ℕ}
    (hk : gs.length ≤ k) (ip : List UInt8) (s : GoString) :
    parseGroups k (colonHex gs ++ [colon, colon] ++ s) ip none =
      if s = [] then
        some (ip ++ gs.flatMap groupBytes, some (ip ++ gs.flatMap groupBytes).length, [])
      else parseGroups (k - gs.length) s (ip ++ gs.flatMap groupBytes)
        (some (ip ++ gs.flatMap groupBytes).length) := by
  induction gs generalizing k ip with
  | nil => exact absurd rfl hne
  | cons x gs ih =>
    obtain ⟨k, rfl⟩ : ∃ k', k = k' + 1 := Nat.exists_eq_succ_of_ne_zero (by simp at hk; omega)
    have hx := hgs x List.mem_cons_self
    cases gs with
    | nil =>
      rw [colonHex_singleton, List.append_assoc, parseGroups_hexGroup hx ip none (Or.inr rfl)]
      simp only [List.cons_append, List.nil_append, if_true, Option.isSome_none, Bool.false_eq_true,
        if_false, List.flatMap_singleton, List.length_singleton, Nat.add_sub_cancel]
    | cons y gs =>
      obtain ⟨t, ht⟩ := exists_colonHex_append_eq y gs ([colon, colon] ++ s)
      obtain ⟨c, t', hc, hcolon⟩ := exists_hexGroup_append_eq_cons y t
      have hrec := ih (fun z hz => hgs z (List.mem_cons_of_mem _ hz)) (by simp) (k := k)
        (by simpa using hk) (ip ++ groupBytes x)
      have htext : colonHex (x :: y :: gs) ++ [colon, colon] ++ s =
          hexGroup x ++ colon :: (c :: t') := by
        rw [colonHex_cons_cons, ← hc, ← ht]
        simp
      have hrest : c :: t' = colonHex (y :: gs) ++ [colon, colon] ++ s := by
        rw [← hc, ← ht, List.append_assoc]
      rw [htext, parseGroups_hexGroup hx ip none (Or.inr rfl)]
      simp only [hcolon, if_false]
      rw [hrest, hrec, flatMap_groupBytes_cons x, List.append_assoc, List.length_cons (a := x),
        Nat.add_sub_add_right]

/-! ### Reading an address -/

/-- The text of an IPv6 address consists of hexadecimal digits and colons. -/
theorem mem_colonHex {gs : List ℕ} {c : UInt8} (h : c ∈ colonHex gs) :
    c = colon ∨ (hexValue c).isSome = true := by
  rcases mem_intercalate h with h | ⟨l, hl, hc⟩
  · exact Or.inl h
  · obtain ⟨x, -, rfl⟩ := List.mem_map.mp hl
    rw [hexGroup_eq] at hc
    obtain ⟨d, hd, rfl⟩ := List.mem_map.mp hc
    rw [hexValue_hexDigit (lt_of_mem_groupDigits hd)]
    exact Or.inr rfl

theorem mem_string6 {gs : List ℕ} {c : UInt8} (h : c ∈ string6 gs) :
    c = colon ∨ (hexValue c).isSome = true := by
  unfold string6 at h
  split at h
  · rw [List.mem_append, List.mem_append] at h
    rcases h with (h | h) | h
    · exact mem_colonHex h
    · exact Or.inl (by simpa using h)
    · exact mem_colonHex h
  · exact mem_colonHex h

theorem colons_isPrefixOf_colonHex_append (x : ℕ) (gs : List ℕ) (s : GoString) :
    [colon, colon].isPrefixOf (colonHex (x :: gs) ++ s) = false := by
  obtain ⟨t, ht⟩ := exists_colonHex_append_eq x gs s
  obtain ⟨c, t', hc, hcolon⟩ := exists_hexGroup_append_eq_cons x t
  rw [ht, hc]
  simp [List.isPrefixOf, Ne.symm hcolon]

/-- An address without a run of zeros is read back. -/
theorem parseIPv6Body_colonHex {gs : List ℕ} (hgs : ∀ x ∈ gs, x < 65536) (hlen : gs.length = 8) :
    parseIPv6Body (colonHex gs) none = some ⟨gs.flatMap groupBytes, []⟩ := by
  obtain ⟨x, gs', rfl⟩ : ∃ x gs', gs = x :: gs' := by
    cases gs with
    | nil => exact absurd hlen (by decide)
    | cons x gs' => exact ⟨x, gs', rfl⟩
  have hcolons := colons_isPrefixOf_colonHex_append x gs' []
  rw [List.append_nil] at hcolons
  have hlength : ((x :: gs').flatMap groupBytes).length = 16 := by
    rw [length_flatMap_groupBytes, hlen]
  unfold parseIPv6Body
  rw [if_neg (by simp), hcolons, if_neg (by simp),
    parseGroups_colonHex hgs (by simp) (by rw [hlen]) [] none, List.nil_append, Option.bind_some,
    expandEllipsis]
  simp only [ne_eq, not_true_eq_false, if_false, hlength, if_true, Option.map_some,
    Option.getD_none]

/-- The zeros are put back where the double colon stood. -/
theorem expandEllipsis_run (pre post : List ℕ) {l : ℕ} (hl : 2 ≤ l)
    (hlen : pre.length + l + post.length = 8) :
    expandEllipsis (pre.flatMap groupBytes ++ post.flatMap groupBytes,
        some (pre.flatMap groupBytes).length, []) =
      some ((pre ++ (List.replicate l 0 ++ post)).flatMap groupBytes) := by
  have hlength : (pre.flatMap groupBytes ++ post.flatMap groupBytes).length = 16 - 2 * l := by
    rw [List.length_append, length_flatMap_groupBytes, length_flatMap_groupBytes]
    omega
  have hzeros : 16 - (16 - 2 * l) = 2 * l := by omega
  rw [expandEllipsis]
  simp only [ne_eq, not_true_eq_false, if_false, hlength]
  rw [if_pos (by omega), List.take_left, List.drop_left, hzeros, ← flatMap_groupBytes_replicate,
    List.flatMap_append, List.flatMap_append, List.append_assoc]

/-- An address with a run of zeros is read back. -/
theorem parseIPv6Body_ellipsis (pre post : List ℕ) {l : ℕ} (hpre : ∀ x ∈ pre, x < 65536)
    (hpost : ∀ x ∈ post, x < 65536) (hl : 2 ≤ l) (hlen : pre.length + l + post.length = 8) :
    parseIPv6Body (colonHex pre ++ [colon, colon] ++ colonHex post) none =
      some ⟨(pre ++ (List.replicate l 0 ++ post)).flatMap groupBytes, []⟩ := by
  have hrun := expandEllipsis_run pre post hl hlen
  have hcolonHex : colonHex post = [] ↔ post = [] := by
    cases post with
    | nil => simp [colonHex]
    | cons y post =>
      obtain ⟨t, ht⟩ := exists_colonHex_append_eq y post []
      obtain ⟨c, t', hc, -⟩ := exists_hexGroup_append_eq_cons y t
      rw [List.append_nil] at ht
      simp [ht, hc]
  unfold parseIPv6Body
  rw [if_neg (by simp)]
  cases pre with
  | nil =>
    have hprefix :
        [colon, colon].isPrefixOf (colonHex [] ++ [colon, colon] ++ colonHex post) = true :=
      List.isPrefixOf_iff_prefix.mpr (List.prefix_append ..)
    have hdrop : (colonHex [] ++ [colon, colon] ++ colonHex post).drop 2 = colonHex post := rfl
    rw [if_pos hprefix, hdrop]
    by_cases hnil : post = []
    · have hl8 : l = 8 := by simpa [hnil] using hlen
      rw [if_pos (hcolonHex.mpr hnil), hnil, hl8]
      rfl
    · rw [if_neg fun h => hnil (hcolonHex.mp h), parseGroups_colonHex hpost hnil
        (by simp at hlen; omega) [] (some 0)]
      have hrun' : expandEllipsis (post.flatMap groupBytes, some 0, []) = _ := hrun
      rw [List.nil_append, Option.bind_some, hrun']
      rfl
  | cons x pre =>
    rw [List.append_assoc, colons_isPrefixOf_colonHex_append, if_neg (by simp), ← List.append_assoc,
      parseGroups_ellipsis hpre (by simp) (by omega)]
    by_cases hnil : post = []
    · rw [if_pos (hcolonHex.mpr hnil)]
      rw [hnil] at hrun ⊢
      simp only [List.flatMap_nil, List.append_nil, List.nil_append, Option.bind_some] at hrun ⊢
      rw [hrun]
      rfl
    · rw [if_neg fun h => hnil (hcolonHex.mp h), parseGroups_colonHex hpost hnil (by omega),
        List.nil_append, Option.bind_some, hrun]
      rfl

theorem parseIPv6Body_string6 {gs : List ℕ} (hgs : ∀ x ∈ gs, x < 65536) (hlen : gs.length = 8) :
    parseIPv6Body (string6 gs) none = some ⟨gs.flatMap groupBytes, []⟩ := by
  unfold string6
  cases h : longestZeroRun gs with
  | none => exact parseIPv6Body_colonHex hgs hlen
  | some run =>
    obtain ⟨i, l⟩ := run
    obtain ⟨htwo, hsplit⟩ := longestZeroRun_eq_some h
    have hlength := congrArg List.length hsplit
    simp only [List.length_append, List.length_replicate, hlen] at hlength
    have hread := parseIPv6Body_ellipsis (gs.take i) (gs.drop (i + l)) (l := l)
      (fun x hx => hgs x (List.mem_of_mem_take hx))
        (fun x hx => hgs x (List.mem_of_mem_drop hx)) htwo
      (by omega)
    rwa [← hsplit] at hread

/-- **`net.ParseIP` reads what `IP.String` writes.** -/
theorem parseIP_string {ip : IP} (hlen : ip.length = 4 ∨ ip.length = 16) :
    parseIP ip.string = ip.to16 := by
  cases h4 : ip.to4 with
  | some p4 =>
    rw [IP.string_of_to4 h4, parseIP_string4 (IP.length_of_to4 h4)]
    rcases hlen with hl | hl
    · rw [IP.to4, if_pos hl] at h4
      rw [IP.to16, if_pos hl, Option.some.inj h4]
    · rw [IP.to4, if_neg (by omega)] at h4
      split_ifs at h4 with h12
      rw [IP.to16, if_neg (by omega), if_pos hl, ← Option.some.inj h4, ← h12.2,
        List.take_append_drop]
  | none =>
    have h16 : ip.length = 16 := by
      rcases hlen with hl | hl
      · exact absurd h4 (by simp [IP.to4, hl])
      · exact hl
    have hgroups : (groups ip).length = 8 := by rw [length_groups, h16]
    have hstring : ip.string = string6 (groups ip) := by
      rw [IP.string, if_neg (by omega), if_neg (by omega), h4]
    have hfind : (string6 (groups ip)).find? (fun c => c = dot ∨ c = colon ∨ c = percent) =
        some colon := by
      refine find?_eq_some_of_unique (colon_mem_string6 (by omega)) (by decide) ?_
      intro d hd hp
      rcases mem_string6 hd with h | h
      · exact h
      · simp only [decide_eq_true_eq] at hp
        rcases hp with hp | hp | hp
        · rw [hp] at h
          exact absurd h (by decide)
        · exact hp
        · rw [hp] at h
          exact absurd h (by decide)
    have hpercent : indexByte (string6 (groups ip)) percent = none := by
      refine indexByte_eq_none fun hc => ?_
      rcases mem_string6 hc with h | h
      · exact absurd h (by decide)
      · exact absurd h (by decide)
    have hread : parseIPv6 (string6 (groups ip)) = some ⟨ip, []⟩ := by
      rw [parseIPv6, hpercent]
      dsimp only
      rw [parseIPv6Body_string6 (lt_of_mem_groups ip) hgroups, flatMap_groups ip (by omega)]
    rw [hstring, parseIP, parseAddr, hfind]
    simp only [show ¬ colon = dot by decide, if_false, if_true, hread, Option.bind_some, Addr.as16,
      h16, IP.to16]
    rfl

/-- Reading an address back does not change its family. -/
theorem IP.isSome_to4_to16 {ip ip' : IP} (h : ip.to16 = some ip') :
    ip'.to4.isSome = ip.to4.isSome := by
  unfold IP.to16 at h
  split_ifs at h with h4 h16
  · rw [← Option.some.inj h]
    simp [IP.to4, h4, v4InV6Prefix]
  · rw [Option.some.inj h]

/-! ## Host and port -/

theorem lastIndexByte_append_cons {c : UInt8} (a : GoString) {b : GoString} (h : c ∉ b) :
    lastIndexByte (a ++ c :: b) c = some a.length := by
  have hrev : (a ++ c :: b).reverse = b.reverse ++ c :: a.reverse := by simp
  rw [lastIndexByte, hrev, indexByte_append_cons (by simpa using h)]
  simp only [Option.map_some, List.length_append, List.length_cons, List.length_reverse,
    Option.some.injEq]
  omega

/-- The text around the byte at an index. -/
theorem eq_take_append_cons_drop {s : GoString} {c : UInt8} {i : ℕ} (h : s[i]? = some c) :
    s = s.take i ++ c :: s.drop (i + 1) := by
  obtain ⟨hi, hget⟩ := List.getElem?_eq_some_iff.mp h
  rw [← hget, List.cons_getElem_drop_succ, List.take_append_drop]

/-- What `strings.IndexByte` finds. -/
theorem eq_of_indexByte {s : GoString} {c : UInt8} {i : ℕ} (h : indexByte s c = some i) :
    s = s.take i ++ c :: s.drop (i + 1) ∧ c ∉ s.take i := by
  obtain ⟨hi, hc, hbefore⟩ := List.findIdx?_eq_some_iff_getElem.mp h
  refine ⟨eq_take_append_cons_drop (List.getElem?_eq_some_iff.mpr ⟨hi, beq_iff_eq.mp hc⟩), ?_⟩
  intro hmem
  obtain ⟨k, hk, hget⟩ := List.mem_iff_getElem.mp hmem
  rw [List.length_take] at hk
  rw [List.getElem_take] at hget
  exact hbefore k (by omega) (beq_iff_eq.mpr hget)

theorem getElem?_of_lastIndexByte {s : GoString} {c : UInt8} {i : ℕ}
    (h : lastIndexByte s c = some i) : s[i]? = some c := by
  rw [lastIndexByte, Option.map_eq_some_iff] at h
  obtain ⟨j, hj, rfl⟩ := h
  obtain ⟨hlt, hc, -⟩ := List.findIdx?_eq_some_iff_getElem.mp hj
  rw [List.length_reverse] at hlt
  rw [List.getElem_reverse, beq_iff_eq] at hc
  rw [List.getElem?_eq_some_iff]
  exact ⟨by omega, hc⟩

/-- A port as `net.SplitHostPort` returns it: it has neither a colon nor a bracket. -/
def PortText (port : GoString) : Prop := colon ∉ port ∧ lbracket ∉ port ∧ rbracket ∉ port

/-- Behind the last colon there is none. -/
theorem colon_notMem_drop_of_lastIndexByte {s : GoString} {i : ℕ}
    (h : lastIndexByte s colon = some i) : colon ∉ s.drop (i + 1) := by
  rw [lastIndexByte, Option.map_eq_some_iff] at h
  obtain ⟨j, hj, rfl⟩ := h
  have hlt := (List.findIdx?_eq_some_iff_getElem.mp hj).1
  rw [List.length_reverse] at hlt
  have hbefore : ∀ c ∈ s.reverse.take j, c ≠ colon := by
    intro c hc heq
    obtain ⟨k, hk, hget⟩ := List.mem_iff_getElem.mp hc
    have hfirst := (List.findIdx?_eq_some_iff_getElem.mp hj).2.2 k (by simp at hk; omega)
    rw [List.getElem_take] at hget
    rw [hget, heq] at hfirst
    exact absurd hfirst (by decide)
  intro hmem
  have hdrop : s.drop (s.length - 1 - j + 1) = (s.reverse.take j).reverse := by
    rw [List.take_reverse, List.reverse_reverse]
    congr 1
    omega
  rw [hdrop, List.mem_reverse] at hmem
  exact hbefore colon hmem rfl

/-- What `net.SplitHostPort` returns as the port. -/
theorem portText_of_splitHostPort {hostport host port : GoString}
    (h : splitHostPort hostport = .ok (host, port)) : PortText port := by
  -- both ways to succeed end with the check of the brackets
  have hend : ∀ i j k, lastIndexByte hostport colon = some i → j ≤ i + 1 → k ≤ i + 1 → ∀ host',
      splitBrackets hostport host' i j k = .ok (host, port) → PortText port := by
    intro i j k hi hj hk host' hsplit
    unfold splitBrackets at hsplit
    split_ifs at hsplit with hl hr
    obtain ⟨-, rfl⟩ := Prod.mk.inj (Except.ok.inj hsplit)
    refine ⟨colon_notMem_drop_of_lastIndexByte hi, fun hmem => hl ?_, fun hmem => hr ?_⟩
    · exact List.drop_subset_drop_left _ hj hmem
    · exact List.drop_subset_drop_left _ hk hmem
  unfold splitHostPort at h
  cases hi : lastIndexByte hostport colon with
  | none =>
    rw [hi] at h
    exact absurd h (by simp)
  | some i =>
    rw [hi] at h
    dsimp only at h
    split_ifs at h with hbracket hcolon
    · cases he : indexByte hostport rbracket with
      | none =>
        rw [he] at h
        exact absurd h (by simp)
      | some e =>
        rw [he] at h
        dsimp only at h
        split_ifs at h with h1 h2 h3
        exact hend i 1 (e + 1) hi (by omega) (by omega) _ h
    · exact hend i 0 0 hi (by omega) (by omega) _ h

/-- **What `net.SplitHostPort` accepts**: a host without a colon, or any host in brackets, then a
colon and the port; the host it returns has no bracket. -/
theorem eq_of_splitHostPort {hostport host port : GoString}
    (h : splitHostPort hostport = .ok (host, port)) :
    (lbracket ∉ host ∧ rbracket ∉ host) ∧
      (hostport = host ++ colon :: port ∨
        hostport = lbracket :: host ++ rbracket :: colon :: port) := by
  unfold splitHostPort at h
  cases hi : lastIndexByte hostport colon with
  | none =>
    rw [hi] at h
    exact absurd h (by simp)
  | some i =>
    rw [hi] at h
    dsimp only at h
    split_ifs at h with hbracket hmem
    · cases he : indexByte hostport rbracket with
      | none =>
        rw [he] at h
        exact absurd h (by simp)
      | some e =>
        rw [he] at h
        dsimp only at h
        obtain ⟨hparts, hfirst⟩ := eq_of_indexByte he
        split_ifs at h with hend hnext hother
        subst hnext
        unfold splitBrackets at h
        split_ifs at h with hl hr
        obtain ⟨rfl, rfl⟩ := Prod.mk.inj (Except.ok.inj h)
        obtain ⟨rest, rfl⟩ := List.head?_eq_some_iff.mp hbracket
        cases e with
        | zero => exact absurd (List.cons.inj hparts).1 (by decide)
        | succ e =>
          have hnext : (lbracket :: rest).drop (e + 2) =
              colon :: (lbracket :: rest).drop (e + 1 + 1 + 1) := by
            obtain ⟨hlt, hget⟩ := List.getElem?_eq_some_iff.mp (getElem?_of_lastIndexByte hi)
            rw [← hget, List.cons_getElem_drop_succ]
          rw [hnext] at hparts
          refine ⟨⟨fun hm => hl (List.mem_of_mem_take hm), fun hm => hfirst ?_⟩, Or.inr hparts⟩
          exact List.mem_cons_of_mem _ hm
    · unfold splitBrackets at h
      split_ifs at h with hl hr
      obtain ⟨rfl, rfl⟩ := Prod.mk.inj (Except.ok.inj h)
      rw [List.drop_zero] at hl hr
      exact ⟨⟨fun hm => hl (List.mem_of_mem_take hm), fun hm => hr (List.mem_of_mem_take hm)⟩,
        Or.inl (eq_take_append_cons_drop (getElem?_of_lastIndexByte hi))⟩

section SplitJoin

variable {host port : GoString} (hl : lbracket ∉ host) (hr : rbracket ∉ host)
  (hport : PortText port)

include hl hr hport

/-- With a colon in it the host stands in brackets. -/
theorem splitHostPort_joinHostPort_of_mem (hcolon : colon ∈ host) :
    splitHostPort (joinHostPort host port) = .ok (host, port) := by
  obtain ⟨hpc, hpl, hpr⟩ := hport
  have htext : joinHostPort host port = (lbracket :: (host ++ [rbracket])) ++ colon :: port := by
    rw [joinHostPort_of_mem hcolon]
    simp
  have htext' : joinHostPort host port = (lbracket :: host) ++ rbracket :: (colon :: port) := by
    rw [joinHostPort_of_mem hcolon]
    simp
  have hlast : lastIndexByte (joinHostPort host port) colon = some (host.length + 2) := by
    rw [htext, lastIndexByte_append_cons _ hpc]
    simp
  have hbracket : indexByte (joinHostPort host port) rbracket = some (host.length + 1) := by
    have hne : rbracket ∉ lbracket :: host := by
      rw [List.mem_cons, not_or]
      exact ⟨by decide, hr⟩
    rw [htext', indexByte_append_cons hne]
    simp
  have hhead : (joinHostPort host port).head? = some lbracket := by rw [htext']; rfl
  have hlength : host.length + 1 + 1 ≠ (joinHostPort host port).length := by
    rw [htext']
    simp
  have hhost : ((joinHostPort host port).take (host.length + 1)).drop 1 = host := by
    rw [htext']
    simp
  have hdrop : (joinHostPort host port).drop (host.length + 2 + 1) = port := by
    rw [htext']
    simp
  have hdropl : (joinHostPort host port).drop 1 = host ++ rbracket :: colon :: port := by
    rw [htext']
    simp
  have hdropr : (joinHostPort host port).drop (host.length + 1 + 1) = colon :: port := by
    rw [htext']
    simp
  unfold splitHostPort
  rw [hlast]
  dsimp only
  rw [if_pos hhead, hbracket]
  dsimp only
  rw [if_neg hlength, if_pos rfl, splitBrackets, hdropl, hdropr, hhost, hdrop, if_neg, if_neg]
  · rw [List.mem_cons, not_or]
    exact ⟨by decide, hpr⟩
  · simp only [List.mem_append, List.mem_cons, not_or]
    exact ⟨hl, by decide, by decide, hpl⟩

/-- Without a colon in it the host ends at the first one. -/
theorem splitHostPort_joinHostPort_of_notMem (hcolon : colon ∉ host) :
    splitHostPort (joinHostPort host port) = .ok (host, port) := by
  obtain ⟨hpc, hpl, hpr⟩ := hport
  have htext : joinHostPort host port = host ++ colon :: port := by
    rw [joinHostPort_of_notMem hcolon]
    simp
  have hhead : ¬ (host ++ colon :: port).head? = some lbracket := by
    cases host with
    | nil => simp [colon, lbracket]
    | cons c host =>
      simp only [List.cons_append, List.head?_cons, Option.some.injEq]
      rintro rfl
      exact hl List.mem_cons_self
  have htake : (host ++ colon :: port).take host.length = host := List.take_left
  have hdrop : (host ++ colon :: port).drop (host.length + 1) = port := by simp
  unfold splitHostPort
  rw [htext, lastIndexByte_append_cons _ hpc]
  dsimp only
  rw [if_neg hhead, htake, if_neg hcolon, splitBrackets, List.drop_zero, hdrop, if_neg, if_neg]
  · simp only [List.mem_append, List.mem_cons, not_or]
    exact ⟨hr, by decide, hpr⟩
  · simp only [List.mem_append, List.mem_cons, not_or]
    exact ⟨hl, by decide, hpl⟩

/-- **`net.SplitHostPort` takes apart what `net.JoinHostPort` puts together.** -/
theorem splitHostPort_joinHostPort : splitHostPort (joinHostPort host port) = .ok (host, port) := by
  by_cases hcolon : colon ∈ host
  · exact splitHostPort_joinHostPort_of_mem hl hr hport hcolon
  · exact splitHostPort_joinHostPort_of_notMem hl hr hport hcolon

end SplitJoin

/-- The text of an address has no brackets. -/
theorem bracket_notMem_string {ip : IP} (hlen : ip.length = 4 ∨ ip.length = 16) :
    lbracket ∉ ip.string ∧ rbracket ∉ ip.string := by
  cases h4 : ip.to4 with
  | some p4 =>
    rw [IP.string_of_to4 h4]
    refine ⟨fun h => ?_, fun h => ?_⟩
    · rcases mem_string4 h with h | h <;> exact absurd h (by decide)
    · rcases mem_string4 h with h | h <;> exact absurd h (by decide)
  | none =>
    have hstring : ip.string = string6 (groups ip) := by
      rw [IP.string, if_neg (by omega), if_neg (by omega), h4]
    rw [hstring]
    refine ⟨fun h => ?_, fun h => ?_⟩
    · rcases mem_string6 h with h | h <;> exact absurd h (by decide)
    · rcases mem_string6 h with h | h <;> exact absurd h (by decide)

/-! ### Entries of other lengths -/

/-- The bytes that tell addresses, ports and zones apart. -/
def delimiters : List UInt8 := [dot, colon, percent, lbracket, rbracket]

/-- The text of an entry of another length has none of them. -/
theorem notMem_delimiters {ip : IP} (hlen : ¬ (ip.length = 4 ∨ ip.length = 16)) {c : UInt8}
    (h : c ∈ ip.string) : c ∉ delimiters := by
  unfold IP.string at h
  split_ifs at h with hzero
  · have hnil : (ascii "<nil>").all (fun c => decide (c ∉ delimiters)) = true := by decide
    exact of_decide_eq_true (List.all_eq_true.mp hnil c h)
  · rcases List.mem_cons.mp h with rfl | h
    · decide
    · have hdigit : ∀ n < 16, hexDigit n ∉ delimiters := by
        intro n hn
        interval_cases n <;> decide
      obtain ⟨b, -, hb⟩ := List.mem_flatMap.mp h
      have hlt := b.toNat_lt
      rcases List.mem_pair.mp hb with rfl | rfl
      · exact hdigit _ (by omega)
      · exact hdigit _ (by omega)
  · omega

/-- **What `net.ParseIP` reads in the text of any entry.**  One that is no address is not read as
one. -/
theorem parseIP_string_any (ip : IP) : parseIP ip.string = ip.to16 := by
  by_cases hlen : ip.length = 4 ∨ ip.length = 16
  · exact parseIP_string hlen
  · have hfind : ip.string.find? (fun c => c = dot ∨ c = colon ∨ c = percent) = none := by
      refine List.find?_eq_none.mpr fun c hc => ?_
      have := notMem_delimiters hlen hc
      simp only [delimiters, List.mem_cons, not_or] at this
      simp [this]
    rw [parseIP, parseAddr, hfind, IP.to16, if_neg (by omega), if_neg (by omega)]
    rfl

/-- The address and the port of any entry are taken apart again. -/
theorem splitHostPort_string (ip : IP) {port : GoString} (hport : PortText port) :
    splitHostPort (joinHostPort ip.string port) = .ok (ip.string, port) := by
  by_cases hlen : ip.length = 4 ∨ ip.length = 16
  · obtain ⟨hl, hr⟩ := bracket_notMem_string hlen
    exact splitHostPort_joinHostPort hl hr hport
  · exact splitHostPort_joinHostPort (fun h => notMem_delimiters hlen h (by decide))
      (fun h => notMem_delimiters hlen h (by decide)) hport

end Core
end ForwardProxy
