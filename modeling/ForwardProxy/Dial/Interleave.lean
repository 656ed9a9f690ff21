import ForwardProxy.Core.AddrText
import ForwardProxy.Dial.Safety

/-!
# The order of the candidates

Two pieces of code put the candidates of the two families into an order.  `interleaveTCPAddresses`
sorts a whole list of addresses at once: it splits the list by family, and then takes one address of
each family in turn.  The feed hands them out one by one (`popLocked`), each time by what it has
left and by the family of the last one.

`alternate` is the order that both are meant to produce: the first list goes first, and the lists
change places after every element.  Both do (`interleaveTCPAddresses_eq`, `popOrder_of_pop`), if the
text of an address shows its family to either of them, which it does for the addresses that a lookup
can return (`familyByte_joinHostPort`).
-/

namespace ForwardProxy
namespace Dial

open ForwardProxy.Core Acl

/-! ## The code -/

/-- The family of an address as `interleaveTCPAddresses` reads it: whether it is IPv4, and `none`
for an address that is left out. -/
def addressV4 (address : GoString) : Option Bool :=
  match splitHostPort address with
  | .error _ => none
  | .ok (host, _) => (parseIP host).map fun ip => ip.to4.isSome

/-- The body of the first loop of `interleaveTCPAddresses`: `primary`, `fallback` and
`primaryV4`. -/
def sortAddress (network : Network) (acc : List GoString × List GoString × Bool)
    (address : GoString) : List GoString × List GoString × Bool :=
  let (primary, fallback, primaryV4) := acc
  match addressV4 address with
  | none => acc
  | some v4 =>
    if network.excludes v4 then acc
    else
      let primaryV4 := if primary.isEmpty then v4 else primaryV4
      if v4 = primaryV4 then (primary ++ [address], fallback, primaryV4)
      else (primary, fallback ++ [address], primaryV4)

/-- The second loop of `interleaveTCPAddresses`. -/
def mergeAddresses (primary fallback : List GoString) : List GoString :=
  (List.range (max primary.length fallback.length)).flatMap fun i =>
    primary[i]?.toList ++ fallback[i]?.toList

/-- `interleaveTCPAddresses`. -/
def interleaveTCPAddresses (network : Network) (addresses : List GoString) : List GoString :=
  let (primary, fallback, _) := addresses.foldl (sortAddress network) ([], [], false)
  mergeAddresses primary fallback

/-! ## Taking turns -/

section Alternate

variable {α : Type*}

/-- The elements of two lists in turn, and then the rest of the longer one. -/
def alternate : List α → List α → List α
  | [], q => q
  | a :: p, q => a :: alternate q p
termination_by p q => p.length + q.length
decreasing_by
  simp only [List.length_cons]
  omega

@[simp] theorem alternate_nil_left (q : List α) : alternate [] q = q := by
  rw [alternate]

@[simp] theorem alternate_cons (a : α) (p q : List α) :
    alternate (a :: p) q = a :: alternate q p := by
  rw [alternate]

@[simp] theorem alternate_nil_right (p : List α) : alternate p [] = p := by
  cases p with
  | nil => rw [alternate_nil_left]
  | cons a p => rw [alternate_cons, alternate_nil_left]

/-- Taking turns loses and adds nothing. -/
theorem alternate_perm (p q : List α) : (alternate p q).Perm (p ++ q) := by
  induction p, q using alternate.induct with
  | case1 q => rw [alternate_nil_left, List.nil_append]
  | case2 a p q ih =>
    rw [alternate_cons, List.cons_append]
    exact (ih.trans List.perm_append_comm).cons a

/-- Each of the two lists can be read off the result, if something tells their elements apart. -/
theorem filter_alternate {P : α → Bool} {p q : List α} {b : Bool} (hp : ∀ a ∈ p, P a = b)
    (hq : ∀ a ∈ q, P a = !b) : (alternate p q).filter P = if b then p else q := by
  induction p, q using alternate.induct generalizing b with
  | case1 q =>
    rw [alternate_nil_left]
    cases b with
    | true => exact List.filter_eq_nil_iff.mpr fun a ha => by simp [hq a ha]
    | false => exact List.filter_eq_self.mpr fun a ha => by simp [hq a ha]
  | case2 a p q ih =>
    -- the lists change places, and so do the two values of `P`
    have hrest := ih hq fun x hx => by rw [Bool.not_not]; exact hp x (List.mem_cons_of_mem _ hx)
    have ha := hp a List.mem_cons_self
    rw [alternate_cons]
    cases b with
    | true => rw [List.filter_cons_of_pos ha, hrest]; rfl
    | false => rw [List.filter_cons_of_neg (by simp [ha]), hrest]; rfl

/-- Every element is of another kind than the one before it, unless all that is left is of that
kind; `last` is the kind before the first. -/
def TakesTurns {β : Type*} (kind : α → β) : β → List α → Prop
  | _, [] => True
  | last, a :: l => (kind a = last → ∀ x ∈ l, kind x = last) ∧ TakesTurns kind (kind a) l

theorem takesTurns_of_forall {β : Type*} {kind : α → β} {k : β} {l : List α}
    (h : ∀ x ∈ l, kind x = k) (last : β) : TakesTurns kind last l := by
  induction l generalizing last with
  | nil => trivial
  | cons a l ih =>
    have hrest : ∀ x ∈ l, kind x = k := fun x hx => h x (List.mem_cons_of_mem _ hx)
    refine ⟨?_, ih hrest _⟩
    rintro rfl x hx
    rw [hrest x hx, h a List.mem_cons_self]

/-- The lists take turns until one of them is used up. -/
theorem takesTurns_alternate {β : Type*} {kind : α → β} {p q : List α} {i j last : β}
    (hp : ∀ a ∈ p, kind a = i) (hq : ∀ a ∈ q, kind a = j) (hij : i ≠ j) (hlast : i ≠ last) :
    TakesTurns kind last (alternate p q) := by
  induction p, q using alternate.induct generalizing i j last with
  | case1 q =>
    rw [alternate_nil_left]
    exact takesTurns_of_forall hq last
  | case2 a p q ih =>
    have ha : kind a = i := hp a List.mem_cons_self
    rw [alternate_cons]
    refine ⟨fun h => absurd (ha.symm.trans h) hlast, ?_⟩
    rw [ha]
    exact ih hq (fun x hx => hp x (List.mem_cons_of_mem _ hx)) hij.symm hij.symm

theorem range_flatMap_getElem? (l : List α) {n : ℕ} (h : l.length ≤ n) :
    ((List.range n).flatMap fun i => l[i]?.toList) = l := by
  induction l generalizing n with
  | nil => simp
  | cons a l ih =>
    obtain ⟨n, rfl⟩ : ∃ m, n = m + 1 := Nat.exists_eq_succ_of_ne_zero (by simp at h; omega)
    rw [List.range_succ_eq_map, List.flatMap_cons, List.flatMap_map]
    simp only [List.getElem?_cons_zero, Option.toList_some, List.getElem?_cons_succ]
    rw [ih (by simpa using h)]
    rfl

end Alternate

theorem mergeAddresses_eq (primary fallback : List GoString) :
    mergeAddresses primary fallback = alternate primary fallback := by
  unfold mergeAddresses
  induction primary generalizing fallback with
  | nil => simpa using range_flatMap_getElem? fallback le_rfl
  | cons a primary ih =>
    cases fallback with
    | nil => simpa using range_flatMap_getElem? (a :: primary) le_rfl
    | cons b fallback =>
      have hmax : max (a :: primary).length (b :: fallback).length =
          max primary.length fallback.length + 1 := by
        simp only [List.length_cons]
        omega
      rw [hmax, List.range_succ_eq_map, List.flatMap_cons, List.flatMap_map]
      simp only [List.getElem?_cons_zero, Option.toList_some, List.getElem?_cons_succ, ih,
        alternate_cons]
      rfl

/-! ## The first loop -/

/-- Addresses of the family that is already there go to the first list. -/
theorem foldl_sortAddress_primary {network : Network} {v4 : Bool}
    (hnet : network.excludes v4 = false) {addresses primary fallback : List GoString}
    (h : ∀ a ∈ addresses, addressV4 a = some v4) (hne : primary ≠ []) :
    addresses.foldl (sortAddress network) (primary, fallback, v4) =
      (primary ++ addresses, fallback, v4) := by
  induction addresses generalizing primary with
  | nil => rw [List.foldl_nil, List.append_nil]
  | cons a addresses ih =>
    have hstep : sortAddress network (primary, fallback, v4) a =
        (primary ++ [a], fallback, v4) := by
      simp [sortAddress, h a List.mem_cons_self, hnet]
    rw [List.foldl_cons, hstep, ih (fun b hb => h b (List.mem_cons_of_mem _ hb)) (by simp),
      List.append_assoc]
    rfl

/-- The first addresses decide about the family of the first list. -/
theorem foldl_sortAddress_first {network : Network} {v4 : Bool} (hnet : network.excludes v4 = false)
    {addresses : List GoString} (h : ∀ a ∈ addresses, addressV4 a = some v4) (hne : addresses ≠ [])
    (primaryV4 : Bool) :
    addresses.foldl (sortAddress network) ([], [], primaryV4) = (addresses, [], v4) := by
  cases addresses with
  | nil => exact absurd rfl hne
  | cons a addresses =>
    have hstep : sortAddress network ([], [], primaryV4) a = ([a], [], v4) := by
      simp [sortAddress, h a List.mem_cons_self, hnet]
    rw [List.foldl_cons, hstep, foldl_sortAddress_primary hnet
      (fun b hb => h b (List.mem_cons_of_mem _ hb)) (by simp)]
    rfl

/-- Addresses of the other family go to the second list. -/
theorem foldl_sortAddress_fallback {network : Network} {v4 : Bool}
    (hnet : network.excludes v4 = false) {addresses primary fallback : List GoString}
    (h : ∀ a ∈ addresses, addressV4 a = some v4) (hne : primary ≠ []) :
    addresses.foldl (sortAddress network) (primary, fallback, !v4) =
      (primary, fallback ++ addresses, !v4) := by
  induction addresses generalizing fallback with
  | nil => rw [List.foldl_nil, List.append_nil]
  | cons a addresses ih =>
    have hstep : sortAddress network (primary, fallback, !v4) a =
        (primary, fallback ++ [a], !v4) := by
      simp [sortAddress, h a List.mem_cons_self, hnet, hne]
    rw [List.foldl_cons, hstep, ih fun b hb => h b (List.mem_cons_of_mem _ hb), List.append_assoc]
    rfl

/-- **The static order.**  Addresses of one family in front of addresses of the other come out in
turn, the family in front first. -/
theorem interleaveTCPAddresses_eq {network : Network} {v4 : Bool} {front back : List GoString}
    (hfront : ∀ a ∈ front, addressV4 a = some v4) (hback : ∀ a ∈ back, addressV4 a = some (!v4))
    (hnetFront : front ≠ [] → network.excludes v4 = false)
    (hnetBack : back ≠ [] → network.excludes (!v4) = false) :
    interleaveTCPAddresses network (front ++ back) = alternate front back := by
  unfold interleaveTCPAddresses
  rw [List.foldl_append]
  by_cases hf : front = []
  · by_cases hb : back = []
    · rw [hf, hb]
      simp [mergeAddresses]
    · rw [hf, List.foldl_nil, foldl_sortAddress_first (hnetBack hb) hback hb]
      simp only [mergeAddresses_eq, alternate_nil_right, alternate_nil_left]
  · rw [foldl_sortAddress_first (hnetFront hf) hfront hf]
    by_cases hb : back = []
    · rw [hb, List.foldl_nil]
      exact mergeAddresses_eq front []
    · have hrest : back.foldl (sortAddress network) (front, [], !!v4) = (front, [] ++ back, !!v4) :=
        foldl_sortAddress_fallback (hnetBack hb) hback hf
      rw [Bool.not_not, List.nil_append] at hrest
      rw [hrest]
      exact mergeAddresses_eq front back

/-! ## The order of the feed -/

/-- The order in which `popLocked` will hand out what is queued, given the family of the last
address. -/
def popOrder (lastFamily : UInt8) (f : Feed) : List GoString :=
  if lastFamily = 0 ∨ lastFamily = 4 then alternate f.v6 f.v4 else alternate f.v4 f.v6

/-- What `familyByte` says about the addresses of a family. -/
def familyOf (isV6 : Bool) : UInt8 := if isV6 then 6 else 4

theorem popOrder_eq_nil_iff {lastFamily : UInt8} {f : Feed} :
    popOrder lastFamily f = [] ↔ f.isEmpty = true := by
  have hnil : ∀ p q : List GoString, alternate p q = [] ↔ p = [] ∧ q = [] := by
    intro p q
    cases p with
    | nil => simp
    | cons a p => simp
  unfold popOrder Feed.isEmpty
  split_ifs
  · simp [hnil, and_comm]
  · simp [hnil]

/-- Behind an address of one family it is the turn of the other. -/
theorem popOrder_familyOf (isV6 : Bool) (f : Feed) :
    popOrder (familyOf isV6) f = alternate (f.queue (!isV6)) (f.queue isV6) := by
  cases isV6 <;> rfl

/-- With one queue empty, the other comes out whatever was last. -/
theorem popOrder_of_queue_nil {f : Feed} {isV6 : Bool} (h : f.queue (!isV6) = [])
    (lastFamily : UInt8) : popOrder lastFamily f = f.queue isV6 := by
  unfold popOrder
  cases isV6 with
  | true =>
    have h4 : f.v4 = [] := h
    rw [h4, alternate_nil_left, alternate_nil_right, ite_self, Feed.queue_true]
  | false =>
    have h6 : f.v6 = [] := h
    rw [h6, alternate_nil_left, alternate_nil_right, ite_self, Feed.queue_false]

/-- **The order of the feed.**  What is taken from a feed heads the order, and the rest keeps it. -/
theorem popOrder_of_pop {f : Feed} (h : f.isEmpty = false) (lastFamily : UInt8) :
    ∃ isV6 addr rest, f.queue isV6 = addr :: rest ∧
      f.popLocked lastFamily = ((addr, true), f.setQueue isV6 rest) ∧
      popOrder lastFamily f = addr :: popOrder (familyOf isV6) (f.setQueue isV6 rest) := by
  obtain ⟨isV6, addr, rest, hq, hpop, hturn⟩ := Feed.popLocked_of_not_isEmpty h lastFamily
  refine ⟨isV6, addr, rest, hq, hpop, ?_⟩
  have hother : (f.setQueue isV6 rest).queue (!isV6) = f.queue (!isV6) :=
    f.queue_setQueue_of_ne (Bool.not_ne_self isV6) rest
  have horder : popOrder lastFamily f = alternate (f.queue isV6) (f.queue (!isV6)) := by
    by_cases hnil : f.queue (!isV6) = []
    · rw [popOrder_of_queue_nil hnil, hnil, alternate_nil_right]
    · unfold popOrder
      cases isV6 with
      | true => rw [if_pos ((hturn hnil).mp rfl)]; rfl
      | false => rw [if_neg fun h6 => Bool.false_ne_true ((hturn hnil).mpr h6)]; rfl
  rw [horder, hq, alternate_cons, popOrder_familyOf, hother, Feed.queue_setQueue]

/-! ## The family of an address -/

/-- Every address of an answer has one of the two lengths of a `net.IP`. -/
def Regular : Answer → Prop
  | .error _ => True
  | .ok addrs => ∀ ip, some ip ∈ addrs → ip.length = 4 ∨ ip.length = 16

/-- An address that a lookup can return is read back. -/
theorem splitHostPort_joinHostPort_string {ip : IP} (hlen : ip.length = 4 ∨ ip.length = 16)
    {port : GoString} (hport : PortText port) :
    splitHostPort (joinHostPort ip.string port) = .ok (ip.string, port) ∧
      ∃ ip', parseIP ip.string = some ip' ∧ ip'.to4.isSome = ip.to4.isSome := by
  obtain ⟨hl, hr⟩ := bracket_notMem_string hlen
  refine ⟨splitHostPort_joinHostPort hl hr hport, ?_⟩
  obtain ⟨ip', hip'⟩ : ∃ ip', ip.to16 = some ip' := by
    unfold IP.to16
    rcases hlen with h | h
    · exact ⟨_, if_pos h⟩
    · exact ⟨ip, by rw [if_neg (by omega), if_pos h]⟩
  exact ⟨ip', (parseIP_string hlen).trans hip', IP.isSome_to4_to16 hip'⟩

theorem familyByte_joinHostPort {ip : IP} (hlen : ip.length = 4 ∨ ip.length = 16) {port : GoString}
    (hport : PortText port) :
    familyByte (joinHostPort ip.string port) = familyOf (!ip.to4.isSome) := by
  obtain ⟨hsplit, ip', hparse, hfam⟩ := splitHostPort_joinHostPort_string hlen hport
  rw [familyByte, hsplit]
  dsimp only
  rw [hparse]
  dsimp only
  rw [hfam]
  cases ip.to4.isSome <;> rfl

theorem addressV4_joinHostPort {ip : IP} (hlen : ip.length = 4 ∨ ip.length = 16) {port : GoString}
    (hport : PortText port) : addressV4 (joinHostPort ip.string port) = some ip.to4.isSome := by
  obtain ⟨hsplit, ip', hparse, hfam⟩ := splitHostPort_joinHostPort_string hlen hport
  rw [addressV4, hsplit]
  dsimp only
  rw [hparse, Option.map_some, hfam]

/-- What both pieces of code see of a candidate. -/
theorem family_of_mem_candidates {c : Config} (hport : PortText c.port) {isV6 : Bool}
    {answer : Answer} (hregular : Regular answer) {addr : GoString}
    (h : addr ∈ candidates c isV6 answer) :
    familyByte addr = familyOf isV6 ∧ addressV4 addr = some (!isV6) ∧
      c.network.excludes (!isV6) = false := by
  obtain ⟨addrs, ip, rfl, hmem, -, hfam, hnet, rfl⟩ := mem_candidates h
  have hlen := hregular ip hmem
  have hv4 : ip.to4.isSome = !isV6 := by
    cases hs : ip.to4.isSome <;> cases isV6 <;> simp_all
  rw [hv4] at hnet
  refine ⟨?_, ?_, hnet⟩
  · rw [familyByte_joinHostPort hlen hport, hv4, Bool.not_not]
  · rw [addressV4_joinHostPort hlen hport, hv4]

end Dial
end ForwardProxy
