import ForwardProxy.ConnectUdp.Admission
import Mathlib.Combinatorics.Enumerative.DoubleCounting

/-!
# The admission counters are right

Two invariants of the machine of `ConnectUdp.Admission`.

* `Accounts` relates the counters to the associations: `connectUDPActive` is the number of
  outstanding ones, `connectUDPByClient` counts their clients, both within the maxima, and the
  identifiers are the positions of the associations, counted from one.
* `Custody` relates the associations and the sockets to the requests: a request that has an
  association is the one it was admitted for, and nobody has released it; an association
  admitted for a request is still with that request or has been released; an open socket
  belongs to a request that has an association.

A step concerns one party only, a request or the callers outside, and leaves the associations of
all others alone (`Local`); that is enough for `Custody` (`Custody.of_local`, the frame rule).

## Main results

* `admission_accounting`: in every reachable state the counters are right, within their maxima,
  a refusal has a reason and changes nothing, identifiers are not reused, open sockets are
  covered by active associations, and a request that has ended has released its association.
-/

namespace ForwardProxy
namespace ConnectUdp

open ForwardProxy.Core Prog CountMap Acl Dial Serve State

/-! ## The counters and the associations -/

/-- The clients of the outstanding associations. -/
def clients (as : List Admitted) : List GoString :=
  (as.filter Admitted.outstanding).map Admitted.client

/-- The number of outstanding associations of a client. -/
def share (as : List Admitted) (client : GoString) : ℕ :=
  as.countP fun a => a.outstanding && a.client = client

theorem occurrences_clients (as : List Admitted) (client : GoString) :
    occurrences (clients as) client = share as client := by
  rw [clients, occurrences, List.countP_map, List.countP_filter]
  refine List.countP_congr fun a _ => ?_
  simp [and_comm]

theorem length_clients (as : List Admitted) :
    (clients as).length = as.countP Admitted.outstanding := by
  rw [clients, List.length_map, List.countP_eq_length_filter]

/-- A predicate that does not tell an entry from its replacement counts the same. -/
theorem countP_set_of_eq {α : Type*} {as : List α} {k : ℕ} {a a' : α} (ha : as[k]? = some a)
    {p : α → Bool} (hp : p a' = p a) : (as.set k a').countP p = as.countP p := by
  obtain ⟨hk, hget⟩ := List.getElem?_eq_some_iff.mp ha
  rw [List.countP_set hk, hget, hp]
  have hpos : p a = true → 0 < as.countP p :=
    fun h => List.countP_pos_iff.mpr ⟨a, List.mem_of_getElem? ha, h⟩
  cases hpa : p a with
  | true =>
    have := hpos hpa
    simp only [if_true]
    omega
  | false => simp

/-- A predicate that the replacement does not have any more counts one less. -/
theorem countP_set_of_not {α : Type*} {as : List α} {k : ℕ} {a : α} (ha : as[k]? = some a)
    (a' : α) {p : α → Bool} (hp' : p a' = false) :
    as.countP p = (as.set k a').countP p + if p a then 1 else 0 := by
  obtain ⟨hk, hget⟩ := List.getElem?_eq_some_iff.mp ha
  rw [List.countP_set hk, hget, hp']
  have hpos : p a = true → 0 < as.countP p :=
    fun h => List.countP_pos_iff.mpr ⟨a, List.mem_of_getElem? ha, h⟩
  cases hpa : p a with
  | true =>
    have := hpos hpa
    simp only [if_true, Bool.false_eq_true, if_false]
    omega
  | false => simp

/-- The counters are right for these associations. -/
structure Accounts (h : Handler) (c : Counters) (as : List Admitted) : Prop where
  counts : c.byClient.Counts (clients as)
  active : c.active = (clients as).length
  active_le : c.active ≤ maxActive h
  share_le : ∀ client, (occurrences (clients as) client : ℤ) ≤ maxClient h
  nextID : c.nextID = UInt64.ofNat as.length
  ids : ∀ k a, as[k]? = some a → a.id = UInt64.ofNat (k + 1)

theorem maxActive_pos (h : Handler) : 0 < maxActive h := by
  unfold maxActive
  split_ifs with hle
  · decide
  · exact not_le.mp hle

theorem maxClient_pos (h : Handler) : 0 < maxClient h := by
  unfold maxClient
  split_ifs with hle
  · decide
  · exact not_le.mp hle

theorem accounts_empty (h : Handler) : Accounts h {} [] where
  counts := CountMap.counts_empty
  active := rfl
  active_le := (maxActive_pos h).le
  share_le := fun _ => (maxClient_pos h).le
  nextID := rfl
  ids := fun k a ha => absurd ha (by simp)

/-- What `acquireConnectUDP` does: it refuses, at one of the maxima and changing nothing, or it
admits below both. -/
theorem acquireConnectUDP_cases (h : Handler) (c : Counters) (client : GoString) :
    (c.acquireConnectUDP h client = (c, none) ∧
      (maxActive h ≤ c.active ∨ maxClient h ≤ c.byClient.get client)) ∨
    (c.acquireConnectUDP h client =
      ({ active := c.active + 1, byClient := c.byClient.increment client, nextID := c.nextID + 1 },
        some (c.nextID + 1)) ∧
      c.active < maxActive h ∧ c.byClient.get client < maxClient h) := by
  unfold Counters.acquireConnectUDP
  split_ifs with hactive hclient
  · exact Or.inl ⟨rfl, Or.inl hactive⟩
  · exact Or.inl ⟨rfl, Or.inr hclient⟩
  · exact Or.inr ⟨rfl, not_le.mp hactive, not_le.mp hclient⟩

/-- An admitted association is counted. -/
theorem Accounts.acquired {h : Handler} {c : Counters} {as : List Admitted} (hacc : Accounts h c as)
    {client : GoString} {request : Option ℕ} (hactive : c.active < maxActive h)
    (hclient : c.byClient.get client < maxClient h) :
    Accounts h
      { active := c.active + 1, byClient := c.byClient.increment client, nextID := c.nextID + 1 }
      (as ++ [{ client, id := c.nextID + 1, request }]) := by
  have hclients : clients (as ++ [{ client, id := c.nextID + 1, request }]) =
      clients as ++ [client] := by
    rw [clients, List.filter_append, List.map_append]
    rfl
  have hcount := occurrences_append_singleton (clients as) client
  refine ⟨?_, ?_, hactive, ?_, ?_, ?_⟩
  · rw [hclients]
    exact hacc.counts.increment hcount
  · rw [hclients, List.length_append, hacc.active]
    push_cast
    rfl
  · intro b
    rw [hclients, hcount]
    by_cases hb : b = client
    · rw [hacc.counts.get] at hclient
      rw [if_pos hb, hb]
      push_cast
      omega
    · rw [if_neg hb, Nat.add_zero]
      exact hacc.share_le b
  · show c.nextID + 1 = _
    rw [hacc.nextID, List.length_append]
    exact (UInt64.ofNat_add ..).symm
  · intro k a ha
    rw [List.getElem?_append] at ha
    split_ifs at ha with hk
    · exact hacc.ids k a ha
    · have hmem := List.mem_singleton.mp (List.mem_of_getElem? ha)
      obtain ⟨hlt, -⟩ := List.getElem?_eq_some_iff.mp ha
      rw [List.length_singleton] at hlt
      rw [hmem, hacc.nextID, show k = as.length by omega]
      exact (UInt64.ofNat_add ..).symm

/-- Replacing an entry by one of the same identifier keeps the identifiers. -/
theorem ids_set {as : List Admitted} (hids : ∀ k a, as[k]? = some a → a.id = UInt64.ofNat (k + 1))
    {k : ℕ} {a a' : Admitted} (ha : as[k]? = some a) (hid : a'.id = a.id) :
    ∀ j b, (as.set k a')[j]? = some b → b.id = UInt64.ofNat (j + 1) := by
  intro j b hb
  rw [List.getElem?_set] at hb
  split_ifs at hb with hkj
  · subst hkj
    rw [← Option.some_inj.mp hb, hid]
    exact hids k a ha
  · exact hids j b hb

/-- As long as the function has not run, the association is counted. -/
theorem Accounts.setOnce {h : Handler} {c : Counters} {as : List Admitted} (hacc : Accounts h c as)
    {k : ℕ} {a : Admitted} (ha : as[k]? = some a) (hidle : a.once = .idle) :
    Accounts h c (as.set k { a with once := .running }) := by
  have hout : a.outstanding = true := by rw [Admitted.outstanding, hidle]; rfl
  have hcount : ∀ b, occurrences (clients (as.set k { a with once := .running })) b =
      occurrences (clients as) b := by
    intro b
    rw [occurrences_clients, occurrences_clients, share, share]
    refine countP_set_of_eq ha ?_
    rw [hout]
    rfl
  have hlength : (clients (as.set k { a with once := .running })).length = (clients as).length := by
    rw [length_clients, length_clients]
    exact countP_set_of_eq ha hout.symm
  refine ⟨hacc.counts.of_count hcount, ?_, hacc.active_le, ?_, ?_, ids_set hacc.ids ha rfl⟩
  · rw [hlength]
    exact hacc.active
  · intro b
    rw [hcount]
    exact hacc.share_le b
  · rw [List.length_set]
    exact hacc.nextID

/-- A released association is not counted any more. -/
theorem Accounts.release {h : Handler} {c : Counters} {as : List Admitted} (hacc : Accounts h c as)
    {k : ℕ} {a : Admitted} (ha : as[k]? = some a) (hout : a.outstanding = true) :
    Accounts h (c.release a.client) (as.set k { a with once := .done }) := by
  have hcount : ∀ b, occurrences (clients as) b =
      occurrences (clients (as.set k { a with once := .done })) b +
        if b = a.client then 1 else 0 := by
    intro b
    have hnot := countP_set_of_not ha { a with once := .done }
      (p := fun a => a.outstanding && a.client = b) rfl
    rw [occurrences_clients, occurrences_clients, share, share, hnot, hout, Bool.true_and,
      if_congr (decide_eq_true_iff.trans eq_comm) rfl rfl]
  have hlength : (clients as).length =
      (clients (as.set k { a with once := .done })).length + 1 := by
    have hnot := countP_set_of_not ha { a with once := .done }
      (p := Admitted.outstanding) rfl
    rw [length_clients, length_clients, hnot, if_pos hout]
  have hle : ∀ b, occurrences (clients (as.set k { a with once := .done })) b ≤
      occurrences (clients as) b := by
    intro b
    rw [hcount b]
    exact Nat.le_add_right ..
  refine ⟨hacc.counts.decrement hcount, ?_, ?_, ?_, ?_, ids_set hacc.ids ha rfl⟩
  · show c.active - 1 = _
    rw [hacc.active, hlength]
    push_cast
    exact add_sub_cancel_right ..
  · exact (Int.sub_le_self _ (by decide)).trans hacc.active_le
  · intro b
    exact (Int.ofNat_le.mpr (hle b)).trans (hacc.share_le b)
  · rw [List.length_set]
    exact hacc.nextID

/-! ## The associations, the sockets and the requests -/

/-- How far the `release` of the association has come that a request in this stage has. -/
def Stage.once : Stage → Once
  | .releasing _ => .running
  | _ => .idle

/-- What holds of request `i`. -/
structure Own (s : State) (i : ℕ) : Prop where
  keeps : ∀ q, s.requests i = some q →
    Keeps (fun _ stage => stage.association = none) q.stage q.prog
  holds : ∀ q k, s.requests i = some q → q.stage.association = some k →
    ∃ a, s.associations[k]? = some a ∧ a.request = some i ∧ a.once = q.stage.once
  owned : ∀ k a, s.associations[k]? = some a → a.request = some i → a.once = .done ∨
    ∃ q, s.requests i = some q ∧ q.stage.association = some k

/-- The invariant: associations and sockets are with the requests that got them. -/
structure Custody (s : State) : Prop where
  own : ∀ i, Own s i
  sockets : ∀ udp ∈ s.sockets, ∃ i q, s.requests i = some q ∧ q.stage.socket = some udp
  nodup : s.sockets.Nodup
  lt_dialled : ∀ udp ∈ s.sockets, udp < s.dialled

/-- What a step of one party may do: everything about the other requests and their associations
stays as it is, and a socket that is open afterwards was open and not the party's, or belongs
to a request. -/
structure Local (party : Option ℕ) (s s' : State) : Prop where
  requests : ∀ j, some j ≠ party → s'.requests j = s.requests j
  associations : ∀ (k : ℕ) (a : Admitted), a.request ≠ party →
    (s'.associations[k]? = some a ↔ s.associations[k]? = some a)
  sockets : ∀ udp ∈ s'.sockets,
    (udp ∈ s.sockets ∧ ∀ i q, party = some i → s.requests i = some q → q.stage.socket ≠ some udp) ∨
      ∃ i q, s'.requests i = some q ∧ q.stage.socket = some udp

/-- **The frame rule.** -/
theorem Custody.of_local {party : Option ℕ} {s s' : State} (h : Custody s) (hl : Local party s s')
    (hown : ∀ i, party = some i → Own s' i) (hnodup : s'.sockets.Nodup)
    (hlt : ∀ udp ∈ s'.sockets, udp < s'.dialled) : Custody s' := by
  refine ⟨?_, ?_, hnodup, hlt⟩
  · intro j
    by_cases hj : some j = party
    · exact hown j hj.symm
    · refine ⟨?_, ?_, ?_⟩
      · rw [hl.requests j hj]
        exact (h.own j).keeps
      · intro q k hq hk
        rw [hl.requests j hj] at hq
        obtain ⟨a, ha, hreq, honce⟩ := (h.own j).holds q k hq hk
        exact ⟨a, (hl.associations k a (hreq ▸ hj)).mpr ha, hreq, honce⟩
      · intro k a ha hreq
        rw [hl.requests j hj]
        exact (h.own j).owned k a ((hl.associations k a (hreq ▸ hj)).mp ha) hreq
  · intro udp hudp
    rcases hl.sockets udp hudp with ⟨hold, hnot⟩ | hheld
    · obtain ⟨j, q, hq, hsocket⟩ := h.sockets udp hold
      have hj : some j ≠ party := fun hj => hnot j q hj.symm hq hsocket
      exact ⟨j, q, by rw [hl.requests j hj, hq], hsocket⟩
    · exact hheld

/-- The others keep their associations when one of the party's is replaced. -/
theorem getElem?_set_iff {as : List Admitted} {k : ℕ} {a a' : Admitted} {party : Option ℕ}
    (ha : as[k]? = some a) (hreq : a.request = party) (hreq' : a'.request = party) (j : ℕ)
    (b : Admitted) (hb : b.request ≠ party) : (as.set k a')[j]? = some b ↔ as[j]? = some b := by
  by_cases hkj : k = j
  · subst hkj
    rw [List.getElem?_set_self (List.getElem?_eq_some_iff.mp ha).1, ha]
    constructor
    · intro heq
      exact absurd (Option.some_inj.mp heq ▸ hreq') hb
    · intro heq
      exact absurd (Option.some_inj.mp heq ▸ hreq) hb
  · rw [List.getElem?_set_ne hkj]

/-- The others keep their associations when the party gets one. -/
theorem getElem?_append_iff {as : List Admitted} {a : Admitted} {party : Option ℕ}
    (hreq : a.request = party) (j : ℕ) (b : Admitted) (hb : b.request ≠ party) :
    (as ++ [a])[j]? = some b ↔ as[j]? = some b := by
  rw [List.getElem?_append]
  split_ifs with hj
  · exact Iff.rfl
  · rw [List.getElem?_eq_none (not_lt.mp hj)]
    refine iff_of_false (fun heq => ?_) (by simp)
    rw [List.mem_singleton.mp (List.mem_of_getElem? heq)] at hb
    exact hb hreq

/-! ## The callers outside -/

/-- What the callers outside do leaves every request alone. -/
theorem Custody.of_outside {s s' : State} (h : Custody s) (hreq : s'.requests = s.requests)
    (hsockets : s'.sockets = s.sockets) (hdialled : s'.dialled = s.dialled)
    (hassoc : ∀ (k : ℕ) (a : Admitted), a.request ≠ none →
      (s'.associations[k]? = some a ↔ s.associations[k]? = some a)) : Custody s' := by
  have hlocal : Local none s s' := by
    refine ⟨fun j _ => by rw [hreq], hassoc, ?_⟩
    intro udp hudp
    rw [hsockets] at hudp
    exact Or.inl ⟨hudp, fun i q hi => absurd hi (by simp)⟩
  refine h.of_local hlocal (fun i hi => absurd hi (by simp)) (hsockets ▸ h.nodup) ?_
  rw [hsockets, hdialled]
  exact h.lt_dialled

/-- What an acquisition changes: nothing but the counters if it is refused, and else an
association is added. -/
theorem acquire_cases (h : Handler) (s : State) (client : GoString) (request : Option ℕ) :
    ((s.counters.acquireConnectUDP h client).2 = none ∧ s.acquire h client request = s) ∨
    (s.counters.acquireConnectUDP h client).2 = some (s.counters.nextID + 1) ∧
      s.counters.active < maxActive h ∧ s.counters.byClient.get client < maxClient h ∧
      s.acquire h client request = { s with
        counters := { active := s.counters.active + 1,
                      byClient := s.counters.byClient.increment client,
                      nextID := s.counters.nextID + 1 }
        associations := s.associations ++ [{ client, id := s.counters.nextID + 1, request }] } := by
  unfold State.acquire
  rcases acquireConnectUDP_cases h s.counters client with ⟨heq, -⟩ | ⟨heq, hactive, hclient⟩
  · rw [heq]
    exact Or.inl ⟨rfl, rfl⟩
  · rw [heq]
    exact Or.inr ⟨rfl, hactive, hclient, rfl⟩

/-! ## The requests -/

section Request

variable {s : State} {i : ℕ}

/-- What has to be shown of a step that leads request `i` to `q'`, and the rest of the state to
`t`. -/
theorem Custody.of_step (h : Custody s) {t : State} {q' : Served} (hreq : t.requests = s.requests)
    (hkeeps : Keeps (fun _ stage => stage.association = none) q'.stage q'.prog)
    (hassoc : ∀ (k : ℕ) (a : Admitted), a.request ≠ some i →
      (t.associations[k]? = some a ↔ s.associations[k]? = some a))
    (hsockets : ∀ udp ∈ t.sockets, q'.stage.socket = some udp ∨
      udp ∈ s.sockets ∧ ∀ q, s.requests i = some q → q.stage.socket ≠ some udp)
    (hholds : ∀ k, q'.stage.association = some k →
      ∃ a, t.associations[k]? = some a ∧ a.request = some i ∧ a.once = q'.stage.once)
    (howned : ∀ k a, t.associations[k]? = some a → a.request = some i →
      a.once = .done ∨ q'.stage.association = some k)
    (hnodup : t.sockets.Nodup) (hlt : ∀ udp ∈ t.sockets, udp < t.dialled) :
    Custody (t.setRequest i q') := by
  have hself : (t.setRequest i q').requests i = some q' := Function.update_self ..
  have hlocal : Local (some i) s (t.setRequest i q') := by
    refine ⟨?_, hassoc, ?_⟩
    · intro j hj
      rw [← hreq]
      exact Function.update_of_ne (fun hji => hj (congrArg some hji)) ..
    · intro udp hudp
      rcases hsockets udp hudp with hown | ⟨hold, hnot⟩
      · exact Or.inr ⟨i, q', hself, hown⟩
      · refine Or.inl ⟨hold, ?_⟩
        rintro j q ⟨⟩ hq
        exact hnot q hq
  refine h.of_local hlocal ?_ hnodup hlt
  rintro j ⟨⟩
  refine ⟨?_, ?_, ?_⟩
  · intro q hq
    rwa [← Option.some_inj.mp (hself.symm.trans hq)]
  · intro q k hq hk
    rw [← Option.some_inj.mp (hself.symm.trans hq)] at hk ⊢
    exact hholds k hk
  · intro k a ha hreq
    exact (howned k a ha hreq).imp_right fun hk => ⟨q', hself, hk⟩

/-- A request arrives. -/
theorem Custody.arrive (h : Custody s) {q : Served} (hi : s.requests i = none)
    (hkeeps : Keeps (fun _ stage => stage.association = none) q.stage q.prog)
    (hstage : q.stage.association = none) : Custody (s.setRequest i q) := by
  refine h.of_step rfl hkeeps (fun _ _ _ => Iff.rfl) ?_ ?_ ?_ h.nodup h.lt_dialled
  · intro udp hudp
    exact Or.inr ⟨hudp, fun q₁ hq₁ => absurd (hi.symm.trans hq₁) (by simp)⟩
  · intro k hk
    exact absurd (hstage.symm.trans hk) (by simp)
  · intro k a ha hreq
    refine ((h.own i).owned k a ha hreq).imp_right ?_
    rintro ⟨q₁, hq₁, -⟩
    exact absurd (hi.symm.trans hq₁) (by simp)

variable {q : Served} (hi : s.requests i = some q)
include hi

/-- The sockets that are open are the request's own, or belong to others. -/
theorem socket_or {udp : ℕ} (hudp : udp ∈ s.sockets) :
    q.stage.socket = some udp ∨
      udp ∈ s.sockets ∧ ∀ q, s.requests i = some q → q.stage.socket ≠ some udp := by
  by_cases hown : q.stage.socket = some udp
  · exact Or.inl hown
  · refine Or.inr ⟨hudp, ?_⟩
    intro q₁ hq₁
    rwa [← Option.some_inj.mp (hi.symm.trans hq₁)]

/-- An association of the request is released or in its hands. -/
theorem Custody.done_or (h : Custody s) {k : ℕ} {a : Admitted} (ha : s.associations[k]? = some a)
    (hreq : a.request = some i) : a.once = .done ∨ q.stage.association = some k := by
  refine ((h.own i).owned k a ha hreq).imp_right ?_
  rintro ⟨q₁, hq₁, hk⟩
  rwa [Option.some_inj.mp (hi.symm.trans hq₁)]

/-- A request that goes on with the same association and the same socket. -/
theorem Custody.same (h : Custody s) (q' : Served)
    (hkeeps : Keeps (fun _ stage => stage.association = none) q'.stage q'.prog)
    (hassoc : q'.stage.association = q.stage.association) (honce : q'.stage.once = q.stage.once)
    (hsocket : q'.stage.socket = q.stage.socket) : Custody (s.setRequest i q') := by
  refine h.of_step rfl hkeeps (fun _ _ _ => Iff.rfl) ?_ ?_ ?_ h.nodup h.lt_dialled
  · intro udp hudp
    rw [hsocket]
    exact socket_or hi hudp
  · intro k hk
    rw [honce]
    exact (h.own i).holds q k hi (hassoc ▸ hk)
  · intro k a ha hreq
    rw [hassoc]
    exact h.done_or hi ha hreq

/-- A request is admitted. -/
theorem Custody.acquired (h : Custody s) {q' : Served} {a : Admitted} {counters : Counters}
    (hkeeps : Keeps (fun _ stage => stage.association = none) q'.stage q'.prog)
    (hstage : q.stage = .fresh) (hstage' : q'.stage = .holding s.associations.length)
    (hreq : a.request = some i) (honce : a.once = .idle) :
    Custody
      ({ s with counters := counters, associations := s.associations ++ [a] }.setRequest i q') := by
  refine h.of_step rfl hkeeps (getElem?_append_iff hreq) ?_ ?_ ?_ h.nodup h.lt_dialled
  · intro udp hudp
    refine Or.inr ((socket_or hi hudp).resolve_left ?_)
    rw [hstage]
    exact (Option.some_ne_none udp).symm
  · rw [hstage']
    rintro k ⟨⟩
    exact ⟨a, List.getElem?_concat_length, hreq, honce⟩
  · intro k b hb hreqb
    rw [List.getElem?_append] at hb
    split_ifs at hb with hk
    · refine (h.done_or hi hb hreqb).imp_right fun hassoc => ?_
      rw [hstage] at hassoc
      exact absurd hassoc (by simp [Stage.association])
    · refine Or.inr ?_
      obtain ⟨hlt, -⟩ := List.getElem?_eq_some_iff.mp hb
      rw [List.length_singleton] at hlt
      rw [hstage', show k = s.associations.length by omega]
      rfl

/-- The `release` of the request's association moves on. -/
theorem Custody.setOnce (h : Custody s) (counters : Counters) {q' : Served} {k : ℕ} {a : Admitted}
    {once : Once}
    (hkeeps : Keeps (fun _ stage => stage.association = none) q'.stage q'.prog)
    (ha : s.associations[k]? = some a) (hreq : a.request = some i)
    (hsocket : q.stage.socket = none) (hassoc : q.stage.association = some k)
    (hmoves : once = .done ∧ q'.stage.association = none ∨
      once = q'.stage.once ∧ q'.stage.association = some k) :
    Custody ({ s.setOnce k a once with counters := counters }.setRequest i q') := by
  have hset : (s.associations.set k { a with once := once })[k]? = some { a with once := once } :=
    List.getElem?_set_self (List.getElem?_eq_some_iff.mp ha).1
  refine h.of_step rfl hkeeps (getElem?_set_iff ha hreq hreq) ?_ ?_ ?_ h.nodup h.lt_dialled
  · intro udp hudp
    refine Or.inr ((socket_or hi hudp).resolve_left ?_)
    rw [hsocket]
    exact (Option.some_ne_none udp).symm
  · intro j hj
    rcases hmoves with ⟨-, hnone⟩ | ⟨honce, hsome⟩
    · exact absurd (hnone.symm.trans hj) (by simp)
    · obtain rfl := Option.some_inj.mp (hsome.symm.trans hj)
      exact ⟨_, hset, hreq, honce⟩
  · intro j b hb hreqb
    by_cases hkj : k = j
    · subst hkj
      rw [show b = { a with once := once } from Option.some_inj.mp (hb.symm.trans hset)]
      exact hmoves.imp And.left And.right
    · have hb' : s.associations[j]? = some b := (List.getElem?_set_ne hkj).symm.trans hb
      refine (h.done_or hi hb' hreqb).imp_right fun hj => ?_
      exact absurd (Option.some_inj.mp (hassoc.symm.trans hj)) hkj

/-- A socket is opened. -/
theorem Custody.connect (h : Custody s) {q' : Served} {k : ℕ}
    (hkeeps : Keeps (fun _ stage => stage.association = none) q'.stage q'.prog)
    (hstage : q.stage = .holding k) (hstage' : q'.stage = .connected k s.dialled) :
    Custody ({ s with sockets := s.dialled :: s.sockets,
                      dialled := s.dialled + 1 }.setRequest i q') := by
  refine h.of_step rfl hkeeps (fun _ _ _ => Iff.rfl) ?_ ?_ ?_ ?_ ?_
  · intro udp hudp
    rcases List.mem_cons.mp hudp with rfl | hudp
    · exact Or.inl (by rw [hstage']; rfl)
    · refine Or.inr ((socket_or hi hudp).resolve_left ?_)
      rw [hstage]
      exact (Option.some_ne_none udp).symm
  · intro j hj
    rw [hstage'] at hj ⊢
    have hold := (h.own i).holds q j hi (by rw [hstage]; exact hj)
    rwa [hstage] at hold
  · intro j a ha hreq
    refine (h.done_or hi ha hreq).imp_right fun hj => ?_
    rw [hstage] at hj
    rw [hstage']
    exact hj
  · exact List.nodup_cons.mpr ⟨fun hmem => Nat.lt_irrefl _ (h.lt_dialled _ hmem), h.nodup⟩
  · intro udp hudp
    rcases List.mem_cons.mp hudp with rfl | hudp
    · exact Nat.lt_succ_self _
    · exact (h.lt_dialled udp hudp).trans (Nat.lt_succ_self _)

/-- A socket is closed, for the first time or again. -/
theorem Custody.close (h : Custody s) {q' : Served} {k udp : ℕ}
    (hkeeps : Keeps (fun _ stage => stage.association = none) q'.stage q'.prog)
    (hstage : q.stage = .connected k udp ∨ q.stage = .closed k udp)
    (hstage' : q'.stage = .closed k udp) :
    Custody ({ s with sockets := s.sockets.erase udp }.setRequest i q') := by
  have hassoc : q'.stage.association = q.stage.association := by
    rw [hstage']
    rcases hstage with hstage | hstage
    · rw [hstage]; rfl
    · rw [hstage]
  have honce : q'.stage.once = q.stage.once := by
    rw [hstage']
    rcases hstage with hstage | hstage
    · rw [hstage]; rfl
    · rw [hstage]
  refine h.of_step rfl hkeeps (fun _ _ _ => Iff.rfl) ?_ ?_ ?_ (h.nodup.erase udp)
    (fun v hv => h.lt_dialled v (List.mem_of_mem_erase hv))
  · intro v hv
    obtain ⟨hne, hv⟩ := h.nodup.mem_erase_iff.mp hv
    refine Or.inr ((socket_or hi hv).resolve_left ?_)
    rcases hstage with hstage | hstage
    · rw [hstage]
      exact fun heq => hne (Option.some_inj.mp heq).symm
    · rw [hstage]
      exact (Option.some_ne_none v).symm
  · intro j hj
    rw [honce]
    exact (h.own i).holds q j hi (hassoc ▸ hj)
  · intro j a ha hreq
    rw [hassoc]
    exact h.done_or hi ha hreq

end Request

/-! ## Every step keeps the invariants -/

/-- Both invariants. -/
structure Inv (h : Handler) (s : State) : Prop where
  accounts : Accounts h s.counters s.associations
  custody : Custody s

/-- An operation that is neither about the counters nor about the sockets. -/
theorem Inv.passive {h : Handler} {s : State} {i : ℕ} {q : Served}
    {p : Prog Resp (Request × Option ServeError)} (hinv : Inv h s) (hi : s.requests i = some q)
    (hkeeps : Keeps (fun _ stage => stage.association = none) q.stage p) :
    Inv h (s.setRequest i ⟨p, q.stage⟩) :=
  ⟨hinv.accounts, hinv.custody.same hi ⟨p, q.stage⟩ hkeeps rfl rfl rfl⟩

theorem inv_of_perform {h : Handler} {s : State} {i : ℕ} {o : Op} {r : Resp o} {q : Served}
    {p : Prog Resp (Request × Option ServeError)} (hinv : Inv h s) (hi : s.requests i = some q)
    (hp : q.prog.advance ⟨o, r⟩ = some p) (hr : s.possible h o r = true) :
    Inv h ((s.effect h i o r).setRequest i ⟨p, q.stage.next o r⟩) := by
  obtain ⟨hallow, hkeeps⟩ := ((hinv.custody.own i).keeps q hi).advance hp
  cases o with
  | acquire client =>
    have hfresh : q.stage = .fresh := hallow
    have hr : r = (s.counters.acquireConnectUDP h client).2.map fun id =>
      (s.associations.length, id) := of_decide_eq_true hr
    show Inv h ((s.acquire h client (some i)).setRequest i _)
    rcases acquire_cases h s client (some i) with ⟨hnone, heq⟩ | ⟨hsome, hactive, hclient, heq⟩
    · rw [hnone] at hr
      subst hr
      rw [heq]
      refine ⟨hinv.accounts, hinv.custody.same hi _ hkeeps ?_ ?_ ?_⟩
      · rw [hfresh]; rfl
      · rw [hfresh]; rfl
      · rw [hfresh]; rfl
    · rw [hsome] at hr
      subst hr
      rw [heq]
      exact ⟨hinv.accounts.acquired hactive hclient,
        hinv.custody.acquired hi hkeeps hfresh rfl rfl rfl⟩
  | beginRelease k reason =>
    have hstage : q.stage.association = some k ∧ q.stage.once = .idle ∧ q.stage.socket = none := by
      rcases hallow with hstage | ⟨udp, hstage⟩
      · rw [hstage]; exact ⟨rfl, rfl, rfl⟩
      · rw [hstage]; exact ⟨rfl, rfl, rfl⟩
    obtain ⟨a, ha, hreq, honce⟩ := (hinv.custody.own i).holds q k hi hstage.1
    rw [hstage.2.1] at honce
    simp only [State.possible, ha, honce] at hr
    cases r with
    | false => exact absurd hr (by simp)
    | true =>
      show Inv h (((s.associations[k]?).elim s fun a => s.setOnce k a .running).setRequest i _)
      rw [ha]
      exact ⟨hinv.accounts.setOnce ha honce, hinv.custody.setOnce hi s.counters hkeeps
        ha hreq hstage.2.2 hstage.1 (Or.inr ⟨rfl, rfl⟩)⟩
  | release k =>
    have hstage : q.stage = .releasing k := hallow
    obtain ⟨a, ha, hreq, honce⟩ := (hinv.custody.own i).holds q k hi (by rw [hstage]; rfl)
    rw [hstage] at honce
    show Inv h (((s.associations[k]?).elim s fun a => s.release k a).setRequest i _)
    rw [ha]
    refine ⟨hinv.accounts.release ha ?_, hinv.custody.setOnce hi _ hkeeps ha hreq ?_ ?_
      (Or.inl ⟨rfl, rfl⟩)⟩
    · rw [Admitted.outstanding, honce]; rfl
    · rw [hstage]; rfl
    · rw [hstage]; rfl
  | dial address =>
    obtain ⟨k, hstage⟩ : ∃ k, q.stage = .holding k := hallow
    obtain ⟨_ | udp, err⟩ := r
    · exact hinv.passive hi hkeeps
    · have hudp : udp = s.dialled ∧ err = none := by simpa [State.possible] using hr
      obtain ⟨rfl, rfl⟩ := hudp
      have hnext : q.stage.next (.dial address) (some s.dialled, none) =
          .connected k s.dialled := by
        rw [hstage]; rfl
      exact ⟨hinv.accounts, hinv.custody.connect hi hkeeps hstage hnext⟩
  | closeUDP udp =>
    obtain ⟨k, hstage⟩ : ∃ k, q.stage = .connected k udp ∨ q.stage = .closed k udp := hallow
    have hnext : q.stage.next (.closeUDP udp) r = .closed k udp := by
      rcases hstage with hstage | hstage
      · rw [hstage]; rfl
      · rw [hstage]; rfl
    exact ⟨hinv.accounts, hinv.custody.close hi hkeeps hstage hnext⟩
  | lookupIP | capabilities | receivedSettings | settings | writeHeader | httpStream | awaitResult
  | cancelStream | awaitPumps | closeStream => exact hinv.passive hi hkeeps

theorem inv_of_move {lib : Lib} {h : Handler} {s s' : State} {e : Event} (hinv : Inv h s)
    (hm : Move lib h s e s') : Inv h s' := by
  cases hm with
  | request hi =>
    exact ⟨hinv.accounts, hinv.custody.arrive hi (keeps_serveConnectUDP lib h _) rfl⟩
  | perform hi hp hr => exact inv_of_perform hinv hi hp hr
  | @acquire client =>
    rcases acquire_cases h s client none with ⟨-, heq⟩ | ⟨-, hactive, hclient, heq⟩
    · rw [heq]
      exact hinv
    · rw [heq]
      exact ⟨hinv.accounts.acquired hactive hclient,
        hinv.custody.of_outside rfl rfl rfl (getElem?_append_iff rfl)⟩
  | beginRelease ha hreq honce =>
    exact ⟨hinv.accounts.setOnce ha honce,
      hinv.custody.of_outside rfl rfl rfl (getElem?_set_iff ha hreq hreq)⟩
  | releaseAgain => exact hinv
  | release ha hreq honce =>
    refine ⟨hinv.accounts.release ha ?_,
      hinv.custody.of_outside rfl rfl rfl (getElem?_set_iff ha hreq hreq)⟩
    rw [Admitted.outstanding, honce]; rfl

theorem inv_of_reachable {lib : Lib} {h : Handler} {s : State}
    (hs : Reachable (step lib h) {} s) : Inv h s := by
  refine hs.induction_on_step ⟨accounts_empty h, ?_⟩ fun s e s' hinv hstep =>
    inv_of_move hinv (move_of_step hstep)
  refine ⟨fun i => ⟨?_, ?_, ?_⟩, ?_, List.nodup_nil, ?_⟩
  · exact fun q hq => absurd hq (by simp)
  · exact fun q k hq => absurd hq (by simp)
  · exact fun k a ha => absurd ha (by simp)
  · exact fun udp hudp => absurd hudp (by simp)
  · exact fun udp hudp => absurd hudp (by simp)

/-! ## The main result -/

/-- The positions of the outstanding associations. -/
def outstandingPositions (as : List Admitted) : Finset ℕ :=
  (Finset.range as.length).filter fun k => (as[k]?).any Admitted.outstanding = true

theorem card_outstandingPositions (as : List Admitted) :
    (outstandingPositions as).card = as.countP Admitted.outstanding := by
  induction as using List.reverseRecOn with
  | nil => rfl
  | append_singleton as a ih =>
    have hpos : outstandingPositions (as ++ [a]) = if a.outstanding = true then
        insert as.length (outstandingPositions as) else outstandingPositions as := by
      have hold : (Finset.range as.length).filter
          (fun k => ((as ++ [a])[k]?).any Admitted.outstanding = true) =
            outstandingPositions as := by
        refine Finset.filter_congr fun k hk => ?_
        rw [List.getElem?_append_left (Finset.mem_range.mp hk)]
      rw [outstandingPositions, List.length_append, List.length_singleton, Finset.range_add_one,
        Finset.filter_insert, hold, List.getElem?_concat_length]
      rfl
    rw [hpos, List.countP_append, List.countP_singleton, ← ih]
    split_ifs with hout
    · refine Finset.card_insert_of_notMem fun hmem => ?_
      exact Finset.notMem_range_self (Finset.mem_filter.mp hmem).1
    · rfl

/-- A stage with a socket has an association with it. -/
theorem Stage.exists_of_socket {stage : Stage} {udp : ℕ} (h : stage.socket = some udp) :
    ∃ k, stage = .connected k udp := by
  cases stage with
  | connected k udp' => exact ⟨k, congrArg _ (Option.some_inj.mp h)⟩
  | _ => exact absurd h (by simp [Stage.socket])

/-- **Every open socket is covered by an outstanding association of its own.** -/
theorem Custody.length_sockets_le {s : State} (h : Custody s) :
    s.sockets.length ≤ s.associations.countP Admitted.outstanding := by
  rw [← card_outstandingPositions, ← List.toFinset_card_of_nodup h.nodup]
  refine Finset.card_le_card_of_forall_subsingleton
    (fun udp k => ∃ i q, s.requests i = some q ∧ q.stage = .connected k udp) ?_ ?_
  · intro udp hudp
    obtain ⟨i, q, hq, hsocket⟩ := h.sockets udp (List.mem_toFinset.mp hudp)
    obtain ⟨k, hstage⟩ := Stage.exists_of_socket hsocket
    obtain ⟨a, ha, -, honce⟩ := (h.own i).holds q k hq (by rw [hstage]; rfl)
    refine ⟨k, ?_, i, q, hq, hstage⟩
    have hout : a.outstanding = true := by rw [Admitted.outstanding, honce, hstage]; rfl
    rw [outstandingPositions, Finset.mem_filter, Finset.mem_range, ha]
    exact ⟨(List.getElem?_eq_some_iff.mp ha).1, hout⟩
  · -- one association is with one request, which has one socket
    rintro k - udp ⟨-, i, q, hq, hstage⟩ udp' ⟨-, i', q', hq', hstage'⟩
    obtain ⟨a, ha, hreq, -⟩ := (h.own i).holds q k hq (by rw [hstage]; rfl)
    obtain ⟨a', ha', hreq', -⟩ := (h.own i').holds q' k hq' (by rw [hstage']; rfl)
    obtain rfl := Option.some_inj.mp (ha.symm.trans ha')
    obtain rfl := Option.some_inj.mp (hreq.symm.trans hreq')
    obtain rfl := Option.some_inj.mp (hq.symm.trans hq')
    exact (Stage.connected.inj (hstage.symm.trans hstage')).2

/-- Identifiers come around after 2^64 admissions only. -/
theorem Accounts.eq_of_id_eq {h : Handler} {c : Counters} {as : List Admitted}
    (hacc : Accounts h c as) (hlen : as.length ≤ 2 ^ 64) {j k : ℕ} {a b : Admitted}
    (ha : as[j]? = some a) (hb : as[k]? = some b) (hid : a.id = b.id) : j = k := by
  have hj := (List.getElem?_eq_some_iff.mp ha).1
  have hk := (List.getElem?_eq_some_iff.mp hb).1
  rw [hacc.ids j a ha, hacc.ids k b hb] at hid
  have hmod := congrArg UInt64.toNat hid
  rw [UInt64.toNat_ofNat', UInt64.toNat_ofNat'] at hmod
  omega

/-- **The admission counters are right.**  In every state that any number of requests and
callers can reach, in any order of their steps:

* `connectUDPActive` is the number of associations that were admitted and not released, and the
  sum of `connectUDPByClient`;
* `connectUDPByClient` has each client's share, and no entry for a client without one;
* both are within their maxima;
* a refused acquisition changes nothing, and one of the maxima is reached;
* no identifier is given twice, up to 2^64 admissions;
* there are at most as many open UDP sockets as active associations;
* what was admitted for a request that has ended, on whichever path, is released. -/
theorem admission_accounting {lib : Lib} {h : Handler} {s : State}
    (hs : Reachable (step lib h) {} s) :
    s.counters.active = s.associations.countP Admitted.outstanding ∧
    s.counters.byClient.total = s.counters.active ∧
    (∀ client, s.counters.byClient.lookup client =
      if share s.associations client = 0 then none else some (share s.associations client : ℤ)) ∧
    s.counters.active ≤ maxActive h ∧
    (∀ client, (share s.associations client : ℤ) ≤ maxClient h) ∧
    (∀ client request, (s.counters.acquireConnectUDP h client).2 = none →
      s.acquire h client request = s ∧
        (s.counters.active = maxActive h ∨ share s.associations client = maxClient h)) ∧
    (s.associations.length ≤ 2 ^ 64 → ∀ (j k : ℕ) (a b : Admitted), s.associations[j]? = some a →
      s.associations[k]? = some b → a.id = b.id → j = k) ∧
    (s.sockets.length : ℤ) ≤ s.counters.active ∧
    ∀ i q res, s.requests i = some q → q.prog = .ret res → ∀ (k : ℕ) (a : Admitted),
      s.associations[k]? = some a → a.request = some i → a.outstanding = false := by
  obtain ⟨hacc, hcus⟩ := inv_of_reachable hs
  have hactive : s.counters.active = s.associations.countP Admitted.outstanding := by
    rw [hacc.active, length_clients]
  have hshare : ∀ client, (share s.associations client : ℤ) ≤ maxClient h := by
    intro client
    rw [← occurrences_clients]
    exact hacc.share_le client
  refine ⟨hactive, ?_, ?_, hacc.active_le, hshare, ?_, ?_, ?_, ?_⟩
  · rw [hacc.counts.total, hacc.active]
  · intro client
    rw [← occurrences_clients]
    exact hacc.counts client
  · intro client request hnone
    constructor
    · rcases acquire_cases h s client request with ⟨-, heq⟩ | ⟨hsome, -⟩
      · exact heq
      · exact absurd (hnone.symm.trans hsome) (by simp)
    · rcases acquireConnectUDP_cases h s.counters client with ⟨-, hmax⟩ | ⟨heq, -⟩
      · rw [hacc.counts.get, occurrences_clients] at hmax
        exact hmax.imp (le_antisymm hacc.active_le) (le_antisymm (hshare client))
      · rw [heq] at hnone
        exact absurd hnone (by simp)
  · exact fun hlen j k a b ha hb hid => hacc.eq_of_id_eq hlen ha hb hid
  · rw [hactive]
    exact_mod_cast hcus.length_sockets_le
  · intro i q res hq hret k a ha hreq
    have hnone := (hcus.own i).keeps q hq
    rw [hret] at hnone
    rcases hcus.done_or hq ha hreq with hdone | hassoc
    · rw [Admitted.outstanding, hdone]; rfl
    · exact absurd (hassoc.symm.trans hnone) (by simp)

/-! ### A run

One association may be active.  A request is admitted and gets a socket; then another client is
refused. -/

/-- A handler with room for one association. -/
def roomForOne : Handler := { aclRules := [.all true], connectUDPMaxActive := 1 }

/-- A request for `192.0.2.1:443`. -/
def udpRequest : Request :=
  { method := ascii "CONNECT"
    url := { scheme := ascii "https", host := ascii "proxy.example",
             path := ascii "/.well-known/masque/udp/192.0.2.1/443/" }
    proto := ascii "connect-udp", protoMajor := 3, protoMinor := 0
    header := [(ascii "Capsule-Protocol", [ascii "?1"])]
    host := ascii "proxy.example", remoteAddr := ascii "198.51.100.7:50000" }

/-- The request is admitted and its socket is opened. -/
def oneAdmitted : List Event :=
  [.request 0 udpRequest, .perform 0 ⟨.acquire (ascii "198.51.100.7"), some (0, 1)⟩,
    .perform 0 ⟨.lookupIP (ascii "192.0.2.1"), .ok [some [192, 0, 2, 1]]⟩,
    .perform 0 ⟨.capabilities, true⟩, .perform 0 ⟨.receivedSettings, none⟩,
    .perform 0 ⟨.settings, some true⟩, .perform 0 ⟨.dial (ascii "192.0.2.1:443"), (some 0, none)⟩]

/-- The state after it. -/
def stateAdmitted : State := (runFrom (step asciiLib roomForOne) {} oneAdmitted).getD {}

theorem admission_accounting_oneAdmitted :
    stateAdmitted.sockets = [0] ∧ stateAdmitted.counters.active = 1 ∧
      (stateAdmitted.counters.acquireConnectUDP roomForOne (ascii "203.0.113.9")).2 = none ∧
      stateAdmitted.acquire roomForOne (ascii "203.0.113.9") none = stateAdmitted := by
  -- the run is evaluated once, for all that is read from the state after it
  have hrun : (runFrom (step asciiLib roomForOne) {} oneAdmitted).map (fun s =>
      (s.sockets, s.counters.active,
        (s.counters.acquireConnectUDP roomForOne (ascii "203.0.113.9")).2)) =
      some ([0], 1, none) := by decide +kernel
  obtain ⟨s, hs, hread⟩ := Option.map_eq_some_iff.mp hrun
  obtain ⟨hsockets, hread⟩ := Prod.ext_iff.mp hread
  obtain ⟨hactive, hnone⟩ := Prod.ext_iff.mp hread
  have hstate : stateAdmitted = s := by rw [stateAdmitted, hs, Option.getD_some]
  have hreach : Reachable (step asciiLib roomForOne) {} s := ⟨oneAdmitted, hs⟩
  rw [hstate]
  exact ⟨hsockets, hactive, hnone, ((admission_accounting hreach).2.2.2.2.2.1 _ none hnone).1⟩

end ConnectUdp
end ForwardProxy
