import ForwardProxy.Core.LetterCase
import ForwardProxy.Serve.ServeHTTP

/-!
# Hop-by-hop fields

A proxy takes out of a header the fields that are meant for one connection: those of a fixed list,
and those that the sender names in `Connection`.  A sender may write `Connection` over several
lines, each a list of names between commas.  `removeHopByHop` asks for the value of `Connection`
with `header.Get`, which is the first line, so that the names on the other lines are not read and
their fields go on to the next hop.

The main result says when the removal is what it should be, for any header; with one line and names
of tokens it always is.
-/

namespace ForwardProxy
namespace Serve

open ForwardProxy.Core

/-! ## What should be removed -/

/-- The lines of `Connection`. -/
def connectionLines (header : Header) : List GoString :=
  (header.lookup (ascii "Connection")).getD []

/-- The elements of a line, without the blanks around them. -/
def elements (line : GoString) : List GoString := (split line 44).map trimSpace

/-- An element of a line of `Connection` names the field, in whatever letter case. -/
def named (header : Header) (key : GoString) : Bool :=
  (connectionLines header).any fun line => (elements line).any fun e => lower e = lower key

/-- **Exact removal.**  A field stays, with its values, unless it is one of the list or is named. -/
def RemovesExactly (header : Header) : Prop :=
  ∀ key, (removeHopByHop header).lookup key =
    if hopByHopHeaders.contains key || named header key then none else header.lookup key

/-! ## What is removed -/

theorem canonicalHeaderKey_hopByHop :
    ∀ name ∈ hopByHopHeaders, canonicalHeaderKey name = name := by decide +kernel

theorem get_connection (header : Header) :
    header.get (ascii "Connection") = (connectionLines header).headD [] := by
  have hkey : canonicalHeaderKey (ascii "Connection") = ascii "Connection" := by decide +kernel
  rw [Header.get, hkey]
  rfl

/-- The code's own way: the names on the first line of `Connection`, canonicalised. -/
def namedFirst (header : Header) (key : GoString) : Bool :=
  (elements ((connectionLines header).headD [])).any fun e => canonicalHeaderKey e = key

theorem lookup_removeHopByHop (header : Header) (key : GoString) :
    (removeHopByHop header).lookup key =
      if hopByHopHeaders.contains key || namedFirst header key then none
      else header.lookup key := by
  have hlist : (∃ name ∈ hopByHopHeaders, canonicalHeaderKey name = key) ↔
      key ∈ hopByHopHeaders := by
    constructor
    · rintro ⟨name, hname, rfl⟩
      rwa [canonicalHeaderKey_hopByHop name hname]
    · exact fun hkey => ⟨key, hkey, canonicalHeaderKey_hopByHop key hkey⟩
  have hfirst : (∃ name ∈ elements ((connectionLines header).headD []),
      canonicalHeaderKey name = key) ↔ namedFirst header key = true := by
    simp [namedFirst]
  have hfold : removeHopByHop header = hopByHopHeaders.foldl Header.del
      ((elements ((connectionLines header).headD [])).foldl Header.del header) := by
    rw [removeHopByHop, get_connection, elements, List.foldl_map]
  rw [hfold, Header.lookup_foldl_del, Header.lookup_foldl_del]
  simp only [hlist, hfirst, Bool.or_eq_true, List.contains_iff_mem]
  by_cases hkey : key ∈ hopByHopHeaders
  · rw [if_pos hkey, if_pos (Or.inl hkey)]
  · simp only [hkey, if_false, false_or]

/-! ## Names up to letter case -/

theorem lowerByte_upperByte (c : UInt8) : lowerByte (upperByte c) = lowerByte c := by
  unfold lowerByte upperByte
  grind

theorem lower_canonicalBytes (upper : Bool) (s : GoString) :
    lower (canonicalBytes upper s) = lower s := by
  induction s generalizing upper with
  | nil => rfl
  | cons c s ih =>
    rw [canonicalBytes, lower, List.map_cons, lower, List.map_cons]
    refine congrArg₂ _ ?_ (ih _)
    cases upper
    · exact lowerByte_lowerByte c
    · exact lowerByte_upperByte c

/-- Canonicalisation changes the case of letters only. -/
theorem lower_canonicalHeaderKey (key : GoString) : lower (canonicalHeaderKey key) = lower key := by
  unfold canonicalHeaderKey
  split_ifs
  · exact lower_canonicalBytes true key
  · rfl

theorem upperByte_lowerByte (c : UInt8) : upperByte (lowerByte c) = upperByte c := by
  unfold lowerByte upperByte
  grind

theorem isTokenByte_lowerByte (c : UInt8) : isTokenByte (lowerByte c) = isTokenByte c := by
  by_cases hc : 65 ≤ c ∧ c ≤ 90
  · have hlow : lowerByte c = c + 32 := if_pos (by simpa using hc)
    have hrange : 97 ≤ c + 32 ∧ c + 32 ≤ 122 := by grind
    rw [hlow, isTokenByte, isTokenByte]
    simp [hc, hrange]
  · have hlow : lowerByte c = c := if_neg (by simpa using hc)
    rw [hlow]

theorem canonicalBytes_lower (upper : Bool) (s : GoString) :
    canonicalBytes upper (lower s) = canonicalBytes upper s := by
  induction s generalizing upper with
  | nil => rfl
  | cons c s ih =>
    have hhyphen : (lowerByte c == 45) = (c == 45) := by
      rw [Bool.eq_iff_iff, beq_iff_eq, beq_iff_eq, lowerByte_eq_iff (by decide)]
    rw [lower, List.map_cons, canonicalBytes, canonicalBytes, hhyphen]
    refine congrArg₂ _ ?_ (ih _)
    cases upper
    · exact lowerByte_lowerByte c
    · exact upperByte_lowerByte c

/-- Two spellings of a token have one canonical form. -/
theorem canonicalHeaderKey_of_lower_eq {a b : GoString} (h : lower a = lower b)
    (hb : b.all isTokenByte = true) : canonicalHeaderKey a = canonicalHeaderKey b := by
  have hall : ∀ s : GoString, (lower s).all isTokenByte = s.all isTokenByte := by
    intro s
    rw [lower, List.all_map]
    exact congrArg (s.all ·) (funext isTokenByte_lowerByte)
  have ha : a.all isTokenByte = true := by rw [← hall, h, hall, hb]
  rw [canonicalHeaderKey, canonicalHeaderKey, if_pos ha, if_pos hb, ← canonicalBytes_lower, h,
    canonicalBytes_lower]

/-! ## The condition -/

/-- The first line of `Connection` speaks for all of them. -/
structure FirstLineSpeaks (header : Header) : Prop where
  /-- A field of the header that any line names is named by the first, in the canonical spelling. -/
  names : ∀ key, header.lookup key ≠ none → key ∉ hopByHopHeaders → named header key = true →
    namedFirst header key = true
  /-- Where there is no line the code reads an empty one, which names the empty field. -/
  empty : connectionLines header = [] → header.lookup [] = none

/-- A field that the first line names is named, if there is a first line. -/
theorem named_of_namedFirst {header : Header} (hlines : connectionLines header ≠ [])
    {key : GoString} (h : namedFirst header key = true) : named header key = true := by
  obtain ⟨line, lines, hcons⟩ := List.exists_cons_of_ne_nil hlines
  rw [namedFirst, hcons, List.headD_cons] at h
  obtain ⟨e, he, hkey⟩ := List.any_eq_true.mp h
  refine List.any_eq_true.mpr ⟨line, by rw [hcons]; exact List.mem_cons_self, ?_⟩
  refine List.any_eq_true.mpr ⟨e, he, decide_eq_true ?_⟩
  rw [← of_decide_eq_true hkey, lower_canonicalHeaderKey]

/-- Without a line the code takes the empty field for named. -/
theorem namedFirst_of_lines_eq_nil {header : Header} (hlines : connectionLines header = [])
    (key : GoString) : namedFirst header key = true ↔ key = [] := by
  rw [namedFirst, hlines, List.headD_nil]
  have helements : elements [] = [[]] := by decide
  have hkey : canonicalHeaderKey [] = [] := by decide
  rw [helements, List.any_cons, List.any_nil, Bool.or_false, decide_eq_true_eq, hkey, eq_comm]

/-- Where the first line speaks for all of them, the code goes by all of them. -/
theorem FirstLineSpeaks.removesExactly {header : Header} (hspeaks : FirstLineSpeaks header) :
    RemovesExactly header := by
  intro key
  rw [lookup_removeHopByHop]
  by_cases hkey : hopByHopHeaders.contains key = true
  · rw [hkey, Bool.true_or, Bool.true_or]
  by_cases hpresent : header.lookup key = none
  · rw [hpresent, ite_self, ite_self]
  have hiff : namedFirst header key = true ↔ named header key = true := by
    refine ⟨fun hfirst => ?_,
      hspeaks.names key hpresent fun hmem => hkey (List.contains_iff_mem.mpr hmem)⟩
    by_cases hlines : connectionLines header = []
    · obtain rfl := (namedFirst_of_lines_eq_nil hlines key).mp hfirst
      exact absurd (hspeaks.empty hlines) hpresent
    · exact named_of_namedFirst hlines hfirst
  rw [Bool.eq_iff_iff.mpr hiff]

/-- **When the removal is exact**: for every header, exactly when the first line of `Connection`
speaks for all of them. -/
theorem removesExactly_iff (header : Header) : RemovesExactly header ↔ FirstLineSpeaks header := by
  refine ⟨fun hexact => ⟨fun key hpresent hkey hnamed => ?_, fun hlines => ?_⟩,
    FirstLineSpeaks.removesExactly⟩
  · have h := hexact key
    have hcontains : hopByHopHeaders.contains key = false := by simpa using hkey
    rw [lookup_removeHopByHop, hnamed, Bool.or_true, if_pos rfl, hcontains, Bool.false_or] at h
    by_contra hfirst
    rw [if_neg hfirst] at h
    exact hpresent h
  · have h := hexact []
    have hnamed : named header [] = false := by rw [named, hlines]; rfl
    rw [lookup_removeHopByHop, (namedFirst_of_lines_eq_nil hlines []).mpr rfl, Bool.or_true,
      if_pos rfl, hnamed, if_neg (by decide)] at h
    exact h.symm

/-- **One line is read in full**: where `Connection` has one line, and the names of the fields are
canonical tokens, the removal is exact. -/
theorem removesExactly_of_single {header : Header} {line : GoString}
    (hline : connectionLines header = [line])
    (hkeys : ∀ key, header.lookup key ≠ none →
      canonicalHeaderKey key = key ∧ key.all isTokenByte = true) :
    RemovesExactly header := by
  refine FirstLineSpeaks.removesExactly ⟨fun key hpresent _ hnamed => ?_, fun hnil => ?_⟩
  · obtain ⟨hcanonical, htoken⟩ := hkeys key hpresent
    rw [named, hline, List.any_cons, List.any_nil, Bool.or_false] at hnamed
    obtain ⟨e, he, hlower⟩ := List.any_eq_true.mp hnamed
    rw [namedFirst, hline]
    refine List.any_eq_true.mpr ⟨e, he, decide_eq_true ?_⟩
    rw [canonicalHeaderKey_of_lower_eq (of_decide_eq_true hlower) htoken, hcanonical]
  · rw [hline] at hnil
    exact absurd hnil (List.cons_ne_nil line [])

/-- A header whose second line of `Connection` names a field. -/
def twoLines : Header :=
  [(ascii "Connection", [ascii "close", ascii "X-Internal"]), (ascii "X-Internal", [ascii "1"])]

/-- The field that the second line names is still there. -/
theorem removeHopByHop_twoLines : twoLines.Canonical ∧ named twoLines (ascii "X-Internal") = true ∧
    (removeHopByHop twoLines).lookup (ascii "X-Internal") = some [ascii "1"] ∧
    ¬ RemovesExactly twoLines := by
  have hkept : (removeHopByHop twoLines).lookup (ascii "X-Internal") = some [ascii "1"] := by
    decide +kernel
  have hnamed : named twoLines (ascii "X-Internal") = true := by decide +kernel
  refine ⟨by unfold Header.Canonical; decide +kernel, hnamed, hkept, fun hexact => ?_⟩
  have h := hexact (ascii "X-Internal")
  rw [hkept, hnamed, Bool.or_true, if_pos rfl] at h
  exact Option.some_ne_none _ h

end Serve
end ForwardProxy
