import ForwardProxy.Core.GoString

/-!
# HTTP header fields (`http.Header`)

A header is a map from canonical field names to lists of values.  It is kept as a list of
entries, of which the first with a given name counts; the order of the entries means nothing,
as in a Go map.  `Header.lookup` is the index expression `header[key]`, which does not
canonicalise its key; `get`, `set`, `add` and `del` do, as in `net/textproto`.
-/

namespace ForwardProxy
namespace Core

/-! ## Canonical names -/

/-- The bytes of a token (RFC 7230). -/
def isTokenByte (b : UInt8) : Bool :=
  (65 ≤ b && b ≤ 90) || (97 ≤ b && b ≤ 122) || (48 ≤ b && b ≤ 57) ||
    b ∈ ascii "!#$%&'*+-.^_`|~"

/-- Letter by letter: upper case at the start and after a hyphen, lower case elsewhere. -/
def canonicalBytes : Bool → GoString → GoString
  | _, [] => []
  | upper, b :: s => (if upper then upperByte b else lowerByte b) :: canonicalBytes (b == 45) s

/-- `http.CanonicalHeaderKey`.  A name with a byte that no name may have is left alone. -/
def canonicalHeaderKey (key : GoString) : GoString :=
  if key.all isTokenByte then canonicalBytes true key else key

/-! ## Headers -/

/-- `http.Header`. -/
abbrev Header := List (GoString × List GoString)

namespace Header

/-- `header[key]`. -/
def lookup (h : Header) (key : GoString) : Option (List GoString) :=
  (h.find? fun e => e.1 == key).map Prod.snd

/-- Remove the entries of a name. -/
def remove (h : Header) (key : GoString) : Header := h.filter fun e => e.1 != key

/-- `header[key] = values`. -/
def insert (h : Header) (key : GoString) (values : List GoString) : Header :=
  (key, values) :: h.remove key

/-- `header.Get`. -/
def get (h : Header) (key : GoString) : GoString :=
  ((h.lookup (canonicalHeaderKey key)).getD []).headD []

/-- `header.Set`. -/
def set (h : Header) (key value : GoString) : Header := h.insert (canonicalHeaderKey key) [value]

/-- `header.Add`. -/
def add (h : Header) (key value : GoString) : Header :=
  h.insert (canonicalHeaderKey key) ((h.lookup (canonicalHeaderKey key)).getD [] ++ [value])

/-- `header.Del`. -/
def del (h : Header) (key : GoString) : Header := h.remove (canonicalHeaderKey key)

/-- Every name is canonical, as the server leaves it. -/
def Canonical (h : Header) : Prop := ∀ e ∈ h, canonicalHeaderKey e.1 = e.1

/-- The header has a field of this canonical name, in whatever spelling. -/
def Carries (h : Header) (key : GoString) : Prop := ∃ e ∈ h, canonicalHeaderKey e.1 = key

/-- `for k, v := range other { header[k] = v }`. -/
def overlay (h other : Header) : Header := other.foldr (fun e h => h.insert e.1 e.2) h

/-! ### What an entry is after another was set -/

theorem lookup_insert_self (h : Header) (key : GoString) (values : List GoString) :
    (h.insert key values).lookup key = some values := by
  simp [insert, lookup]

theorem lookup_remove_of_ne (h : Header) {key name : GoString} (hne : name ≠ key) :
    (h.remove name).lookup key = h.lookup key := by
  rw [lookup, remove, List.find?_filter, lookup]
  congr 2
  funext e
  by_cases he : e.1 = key
  · simp [he, hne.symm]
  · simp [he]

theorem lookup_insert_of_ne (h : Header) {key name : GoString} (hne : name ≠ key)
    (values : List GoString) : (h.insert name values).lookup key = h.lookup key := by
  rw [← lookup_remove_of_ne h hne, lookup, insert, List.find?_cons_of_neg
    (by simpa using hne), lookup]

theorem lookup_remove_self (h : Header) (key : GoString) : (h.remove key).lookup key = none := by
  simp [lookup, remove]

theorem lookup_cons_of_ne (h : Header) {e : GoString × List GoString} {key : GoString}
    (hne : e.1 ≠ key) : Header.lookup (e :: h) key = h.lookup key := by
  rw [lookup, List.find?_cons_of_neg (by simpa using hne), lookup]

/-- One header over another. -/
theorem lookup_overlay (h other : Header) (key : GoString) :
    (h.overlay other).lookup key = (other.lookup key).or (h.lookup key) := by
  induction other with
  | nil => rfl
  | cons e other ih =>
    rw [overlay, List.foldr_cons]
    by_cases he : e.1 = key
    · rw [he, lookup_insert_self, lookup, List.find?_cons_of_pos (by simpa using he)]
      rfl
    · rw [lookup_insert_of_ne _ he]
      refine ih.trans ?_
      rw [lookup_cons_of_ne other he]

/-- The fields whose names have a property. -/
theorem lookup_filter (h : Header) (p : GoString → Prop) [DecidablePred p] (key : GoString) :
    Header.lookup (h.filter fun e => p e.1) key = if p key then h.lookup key else none := by
  rw [lookup, List.find?_filter, lookup]
  by_cases hkey : p key
  · rw [if_pos hkey]
    congr 2
    funext e
    by_cases he : e.1 = key
    · simp [he, hkey]
    · simp [he]
  · rw [if_neg hkey, List.find?_eq_none.mpr, Option.map_none]
    intro e he
    by_cases hname : e.1 = key
    · simp [hname, hkey]
    · simp [hname]

/-- What is left after some names were deleted. -/
theorem lookup_foldl_del (names : List GoString) (h : Header) (key : GoString) :
    (names.foldl del h).lookup key =
      if ∃ name ∈ names, canonicalHeaderKey name = key then none else h.lookup key := by
  induction names generalizing h with
  | nil => simp
  | cons name names ih =>
    rw [List.foldl_cons, ih, del]
    by_cases hname : canonicalHeaderKey name = key
    · have hex : ∃ n ∈ name :: names, canonicalHeaderKey n = key :=
        ⟨name, List.mem_cons_self, hname⟩
      rw [if_pos hex, hname, lookup_remove_self, ite_self]
    · rw [lookup_remove_of_ne h hname]
      simp [hname]

/-! ### Fields, whatever their spelling -/

theorem Canonical.remove {h : Header} (hc : h.Canonical) (key : GoString) :
    (h.remove key).Canonical :=
  fun e he => hc e (List.mem_filter.mp he).1

theorem Canonical.foldl_del {h : Header} (hc : h.Canonical) {α : Type} (f : α → GoString)
    (l : List α) : (l.foldl (fun h a => h.del (f a)) h).Canonical := by
  induction l generalizing h with
  | nil => exact hc
  | cons a l ih => exact ih (hc.remove _)

theorem Carries.of_remove {h : Header} {key name : GoString} (hr : (h.remove name).Carries key) :
    h.Carries key := by
  obtain ⟨e, he, hkey⟩ := hr
  exact ⟨e, (List.mem_filter.mp he).1, hkey⟩

theorem Canonical.not_carries_remove {h : Header} (hc : h.Canonical) (key : GoString) :
    ¬ (h.remove key).Carries key := by
  rintro ⟨e, he, hkey⟩
  obtain ⟨hmem, hne⟩ := List.mem_filter.mp he
  have hname : e.1 = key := (hc e hmem).symm.trans hkey
  exact absurd hname (by simpa using hne)

theorem carries_insert_iff {h : Header} {key name : GoString} {values : List GoString} :
    (h.insert name values).Carries key ↔
      canonicalHeaderKey name = key ∨ (h.remove name).Carries key := by
  simp [Carries, insert]

theorem Carries.of_foldl_del {h : Header} {key : GoString} {names : List GoString}
    (hd : (names.foldl del h).Carries key) : h.Carries key := by
  induction names generalizing h with
  | nil => exact hd
  | cons name names ih => exact Carries.of_remove (ih hd)

/-- A field is gone once its name has been deleted, whatever else is. -/
theorem Canonical.not_carries_foldl_del {h : Header} (hc : h.Canonical) {name : GoString}
    {names : List GoString} (hmem : name ∈ names) :
    ¬ (names.foldl del h).Carries (canonicalHeaderKey name) := by
  induction names generalizing h with
  | nil => cases hmem
  | cons n names ih =>
    rcases List.mem_cons.mp hmem with rfl | hin
    · exact fun hd => hc.not_carries_remove _ (Carries.of_foldl_del hd)
    · exact ih (hc.remove _) hin

end Header

end Core
end ForwardProxy
