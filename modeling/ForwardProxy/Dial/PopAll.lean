import ForwardProxy.Core.Networks
import ForwardProxy.Dial.Interleave

/-!
# Emptying a feed

`interleaveTCPAddresses` orders addresses that are known as a whole.  `popLocked` chooses one
address at a time, by what is queued and by the family of the last one.  When nothing is admitted in
between, taking addresses until none is left (`popAll`) gives the order of `interleaveTCPAddresses`,
with that family in front whose turn it is.

A single pop takes the head of the order that is due and leaves the rest of it due
(`popOrder_of_pop`), so the loop follows this order to its end (`popAll_eq`).  What holds for two
lists that take turns then holds for the addresses that come out.

The queues have to hold addresses of their families (`Feed.Sorted`), in a text that `net.ParseIP`
reads.  An IPv6 address with a zone is not one of these: `interleaveTCPAddresses` leaves it out.  In
the race there is none, for what is queued was written by `IP.String` (`sorted_of_reaches`).
-/

namespace ForwardProxy
namespace Dial

open ForwardProxy.Core Acl

/-! ## Addresses of a family -/

/-- A text of the form `host:port` whose host is an address of this family. -/
def AddressOf (isV6 : Bool) (address : GoString) : Prop :=
  ∃ host port ip, splitHostPort address = .ok (host, port) ∧ parseIP host = some ip ∧
    if isV6 then ip.IsIPv6 else ip.IsIPv4

/-- Both queues hold addresses of their family. -/
def Feed.Sorted (f : Feed) : Prop := ∀ isV6, ∀ a ∈ f.queue isV6, AddressOf isV6 a

/-- The addresses of a family are those that `interleaveTCPAddresses` takes for such. -/
theorem addressOf_iff {isV6 : Bool} {address : GoString} :
    AddressOf isV6 address ↔ addressV4 address = some (!isV6) := by
  constructor
  · rintro ⟨host, port, ip, hsplit, hparse, hfam⟩
    rw [addressV4, hsplit]
    dsimp only
    rw [hparse, Option.map_some]
    cases isV6 with
    | true => rw [hfam.1]; rfl
    | false => rw [Option.isSome_iff_ne_none.mpr hfam]; rfl
  · intro h
    rw [addressV4] at h
    cases hsplit : splitHostPort address with
    | error err =>
      rw [hsplit] at h
      exact absurd h (by simp)
    | ok r =>
      rw [hsplit] at h
      obtain ⟨ip, hparse, hv4⟩ := Option.map_eq_some_iff.mp h
      refine ⟨r.1, r.2, ip, hsplit, hparse, ?_⟩
      cases isV6 with
      | true =>
        have hnone : ip.to4 = none := Option.not_isSome_iff_eq_none.mp (Bool.eq_false_iff.mp hv4)
        exact IP.isIPv6_of_length hnone (Or.inr (length_of_parseIP hparse))
      | false => exact Option.isSome_iff_ne_none.mp hv4

instance (isV6 : Bool) (address : GoString) : Decidable (AddressOf isV6 address) :=
  decidable_of_iff _ addressOf_iff.symm

instance (f : Feed) : Decidable f.Sorted :=
  inferInstanceAs (Decidable (∀ isV6, ∀ a ∈ f.queue isV6, AddressOf isV6 a))

theorem AddressOf.familyByte_eq {isV6 : Bool} {address : GoString} (h : AddressOf isV6 address) :
    familyByte address = familyOf isV6 := by
  obtain ⟨host, port, ip, hsplit, hparse, hfam⟩ := h
  rw [familyByte, hsplit]
  dsimp only
  rw [hparse]
  dsimp only
  cases isV6 with
  | true => rw [hfam.1]; rfl
  | false => rw [Option.isSome_iff_ne_none.mpr hfam]; rfl

/-- What is left of a queue holds addresses of its family. -/
theorem Feed.Sorted.setQueue {f : Feed} (hf : f.Sorted) {isV6 : Bool} {addr : GoString}
    {rest : List GoString} (hq : f.queue isV6 = addr :: rest) : (f.setQueue isV6 rest).Sorted := by
  intro b a ha
  by_cases hb : b = isV6
  · rw [hb, Feed.queue_setQueue] at ha
    rw [hb]
    exact hf isV6 a (hq ▸ List.mem_cons_of_mem _ ha)
  · rw [Feed.queue_setQueue_of_ne f hb] at ha
    exact hf b a ha

/-! ## The loop -/

/-- Take addresses from a feed until it has none, with `familyByte` of each as the last family of
the next: what comes out and the feed that is left, or `none` if the bound on the number of calls of
`popLocked` is too small. -/
def popAll : ℕ → Feed → UInt8 → Option (List GoString × Feed)
  | 0, _, _ => none
  | n + 1, f, lastFamily =>
    match f.popLocked lastFamily with
    | ((_, false), f') => some ([], f')
    | ((addr, true), f') => (popAll n f' (familyByte addr)).map fun r => (addr :: r.1, r.2)

/-- The feed without its addresses. -/
def Feed.emptied (f : Feed) : Feed := { f with v4 := [], v6 := [] }

theorem Feed.emptied_setQueue (f : Feed) (isV6 : Bool) (q : List GoString) :
    (f.setQueue isV6 q).emptied = f.emptied := by
  cases isV6 <;> rfl

theorem Feed.emptied_of_isEmpty {f : Feed} (h : f.isEmpty = true) : f.emptied = f := by
  rw [Feed.isEmpty_iff] at h
  cases f with
  | mk v4 v6 seen closed wake errV4 errV6 passedACL =>
    obtain rfl : v4 = [] := h false
    obtain rfl : v6 = [] := h true
    rfl

theorem Feed.length_setQueue {f : Feed} {isV6 : Bool} {addr : GoString} {rest : List GoString}
    (hq : f.queue isV6 = addr :: rest) :
    (f.setQueue isV6 rest).v4.length + (f.setQueue isV6 rest).v6.length + 1 =
      f.v4.length + f.v6.length := by
  cases isV6 with
  | true =>
    have h6 : f.v6 = addr :: rest := hq
    rw [h6, List.length_cons]
    rfl
  | false =>
    have h4 : f.v4 = addr :: rest := hq
    rw [h4, List.length_cons]
    exact Nat.add_right_comm ..

theorem popLocked_of_isEmpty {f : Feed} (h : f.isEmpty = true) (lastFamily : UInt8) :
    f.popLocked lastFamily = (([], false), f) := if_pos h

/-- **The loop follows the order that is due.**  One call more than there are addresses is
enough. -/
theorem popAll_eq {f : Feed} (hf : f.Sorted) (lastFamily : UInt8) {n : ℕ}
    (hn : f.v4.length + f.v6.length < n) :
    popAll n f lastFamily = some (popOrder lastFamily f, f.emptied) := by
  induction n generalizing f lastFamily with
  | zero => exact absurd hn (Nat.not_lt_zero _)
  | succ n ih =>
    rw [popAll]
    cases hempty : f.isEmpty with
    | true =>
      rw [popLocked_of_isEmpty hempty, popOrder_eq_nil_iff.mpr hempty,
        Feed.emptied_of_isEmpty hempty]
    | false =>
      obtain ⟨isV6, addr, rest, hq, hpop, horder⟩ := popOrder_of_pop hempty lastFamily
      have hfam : familyByte addr = familyOf isV6 :=
        (hf isV6 addr (hq ▸ List.mem_cons_self)).familyByte_eq
      have hlen := Feed.length_setQueue hq
      rw [hpop]
      dsimp only
      rw [ih (hf.setQueue hq) _ (by omega), hfam, horder, Feed.emptied_setQueue]
      rfl

/-! ## The main result -/

/-- The order that is due is the static one. -/
theorem popOrder_eq_interleave {f : Feed} (hf : f.Sorted) (lastFamily : UInt8) :
    popOrder lastFamily f = interleaveTCPAddresses .tcp
      (if lastFamily = 0 ∨ lastFamily = 4 then f.v6 ++ f.v4 else f.v4 ++ f.v6) := by
  have hv6 : ∀ a ∈ f.v6, addressV4 a = some false := fun a ha => addressOf_iff.mp (hf true a ha)
  have hv4 : ∀ a ∈ f.v4, addressV4 a = some true := fun a ha => addressOf_iff.mp (hf false a ha)
  unfold popOrder
  split_ifs with h
  · exact (interleaveTCPAddresses_eq hv6 hv4 (fun _ => rfl) fun _ => rfl).symm
  · exact (interleaveTCPAddresses_eq hv4 hv6 (fun _ => rfl) fun _ => rfl).symm

/-- The order that is due takes from the two queues in turn, and does not start with the last
family. -/
theorem popOrder_cases (lastFamily : UInt8) (f : Feed) :
    (lastFamily ≠ 6 ∧ popOrder lastFamily f = alternate f.v6 f.v4) ∨
      (lastFamily ≠ 4 ∧ popOrder lastFamily f = alternate f.v4 f.v6) := by
  by_cases h : lastFamily = 0 ∨ lastFamily = 4
  · refine Or.inl ⟨?_, if_pos h⟩
    rintro rfl
    exact absurd h (by decide)
  · exact Or.inr ⟨fun h4 => h (Or.inr h4), if_neg h⟩

theorem popOrder_perm (lastFamily : UInt8) (f : Feed) :
    (popOrder lastFamily f).Perm (f.v4 ++ f.v6) := by
  rcases popOrder_cases lastFamily f with ⟨-, h⟩ | ⟨-, h⟩
  · rw [h]
    exact (alternate_perm ..).trans List.perm_append_comm
  · rw [h]
    exact alternate_perm ..

/-- The addresses of one family come out in the order of its queue. -/
theorem filter_popOrder {f : Feed} (hf : f.Sorted) (lastFamily : UInt8) (isV6 : Bool) :
    (popOrder lastFamily f).filter (fun a => familyByte a = familyOf isV6) = f.queue isV6 := by
  have hv6 : ∀ a ∈ f.v6, decide (familyByte a = familyOf isV6) = isV6 := by
    intro a ha
    rw [(hf true a ha).familyByte_eq]
    cases isV6 <;> decide
  have hv4 : ∀ a ∈ f.v4, decide (familyByte a = familyOf isV6) = !isV6 := by
    intro a ha
    rw [(hf false a ha).familyByte_eq]
    cases isV6 <;> decide
  rcases popOrder_cases lastFamily f with ⟨-, h⟩ | ⟨-, h⟩
  · rw [h, filter_alternate hv6 hv4]
    rfl
  · rw [h, filter_alternate hv4 fun a ha => (hv6 a ha).trans (Bool.not_not _).symm]
    cases isV6 <;> rfl

theorem takesTurns_popOrder {f : Feed} (hf : f.Sorted) (lastFamily : UInt8) :
    TakesTurns familyByte lastFamily (popOrder lastFamily f) := by
  have hv6 : ∀ a ∈ f.v6, familyByte a = 6 := fun a ha => (hf true a ha).familyByte_eq
  have hv4 : ∀ a ∈ f.v4, familyByte a = 4 := fun a ha => (hf false a ha).familyByte_eq
  rcases popOrder_cases lastFamily f with ⟨hne, h⟩ | ⟨hne, h⟩
  · rw [h]
    exact takesTurns_alternate hv6 hv4 (by decide) hne.symm
  · rw [h]
    exact takesTurns_alternate hv4 hv6 (by decide) hne.symm

/-- **The lazy order is the static order.**  Whatever family was last, emptying a feed comes to an
end, and the addresses come out in the order of `interleaveTCPAddresses`: all of them, those of each
family in the order of the queue, and in turn until one family is used up. -/
theorem popAll_eq_interleave (f : Feed) (hf : f.Sorted) (lastFamily : UInt8) :
    ∃ pops, (∀ n, f.v4.length + f.v6.length < n →
        popAll n f lastFamily = some (pops, { f with v4 := [], v6 := [] })) ∧
      pops = interleaveTCPAddresses .tcp
        (if lastFamily = 0 ∨ lastFamily = 4 then f.v6 ++ f.v4 else f.v4 ++ f.v6) ∧
      pops.Perm (f.v4 ++ f.v6) ∧
      pops.filter (fun a => familyByte a = 4) = f.v4 ∧
      pops.filter (fun a => familyByte a = 6) = f.v6 ∧
      TakesTurns familyByte lastFamily pops :=
  ⟨popOrder lastFamily f, fun _ hn => popAll_eq hf lastFamily hn,
    popOrder_eq_interleave hf lastFamily, popOrder_perm lastFamily f,
    filter_popOrder hf lastFamily false, filter_popOrder hf lastFamily true,
    takesTurns_popOrder hf lastFamily⟩

/-- A feed with one IPv6 address and three IPv4 addresses. -/
def continuationFeed : Feed :=
  { v4 := [ascii "192.0.2.10:1", ascii "192.0.2.11:1", ascii "192.0.2.12:1"]
    v6 := [ascii "[2001:db8::10]:1"] }

/-- The IPv6 address comes out first, and after an IPv6 address second. -/
theorem popAll_eq_interleave_continuation :
    continuationFeed.Sorted ∧
    (∃ pops, popAll 5 continuationFeed 0 = some (pops, {}) ∧
      pops = interleaveTCPAddresses .tcp (continuationFeed.v6 ++ continuationFeed.v4) ∧
      pops = [ascii "[2001:db8::10]:1", ascii "192.0.2.10:1", ascii "192.0.2.11:1",
        ascii "192.0.2.12:1"]) ∧
    ∃ pops, popAll 5 continuationFeed 6 = some (pops, {}) ∧
      pops = interleaveTCPAddresses .tcp (continuationFeed.v4 ++ continuationFeed.v6) ∧
      pops = [ascii "192.0.2.10:1", ascii "[2001:db8::10]:1", ascii "192.0.2.11:1",
        ascii "192.0.2.12:1"] := by
  have hsorted : continuationFeed.Sorted := by decide +kernel
  obtain ⟨pops₀, hrun₀, horder₀, -⟩ := popAll_eq_interleave continuationFeed hsorted 0
  obtain ⟨pops₆, hrun₆, horder₆, -⟩ := popAll_eq_interleave continuationFeed hsorted 6
  refine ⟨hsorted, ⟨pops₀, hrun₀ 5 (by decide), horder₀, ?_⟩, pops₆,
    hrun₆ 5 (by decide), horder₆, ?_⟩
  · rw [horder₀]
    decide +kernel
  · rw [horder₆]
    decide +kernel

/-! ## The feed of the race -/

/-- An admitted candidate is an address of its family. -/
theorem addressOf_of_mem_candidates {c : Config} (hport : PortText c.port) {isV6 : Bool}
    {answer : Answer} (hregular : Regular answer) {addr : GoString}
    (h : addr ∈ candidates c isV6 answer) : AddressOf isV6 addr :=
  addressOf_iff.mpr (family_of_mem_candidates hport hregular h).2.1

/-- At every moment of the race the queues hold addresses of their families, so that the order of
what is queued is the static one. -/
theorem sorted_of_reaches {c : Config} (hport : PortText c.port) {s : State} (h : Reaches c s)
    (hregular : ∀ isV6 answer, (s.resolver isV6).answer = some answer → Regular answer) :
    s.feed.Sorted := by
  intro isV6 addr haddr
  obtain ⟨pops, hpops⟩ := exists_popped h
  obtain ⟨answer, hanswer, hcand⟩ :=
    Resolver.mem_admittedFrom (hpops.mem_admittedFrom_of_queue haddr)
  exact addressOf_of_mem_candidates hport (hregular isV6 answer hanswer) hcand

end Dial
end ForwardProxy
