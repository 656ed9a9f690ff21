import ForwardProxy.ConnectUdp.Accounting
import ForwardProxy.Core.AddrText
import ForwardProxy.Core.Networks

/-!
# The budget of an address (`native_udp_association.go`)

`acquireConnectUDP` counts by a text, which `clientAddressKey` makes of the remote address of the
request.  What is limited is meant to be something else: the associations of one IP address, from
whichever port its requests come and however the address is written, and the associations of no
other.  The texts do that: requests from one address get one text, and requests from two addresses
get two (`clientAddressKey_eq_iff`), because what `IP.String` writes can be read again.

The associations of an address are read off the events of the run (`requestOf`), not off the state
of the handler: the handler does not keep the address of a request.

## Main results

* `budget_per_address`: no address ever has more than its share, and a request is refused only when
  the whole or the share of its own address is used up.
-/

namespace ForwardProxy
namespace ConnectUdp

open ForwardProxy.Core Prog Acl Dial Serve State

/-! ## The key of an address -/

/-- The IP address in a remote address. -/
def remoteIP (remoteAddress : GoString) : Option IP :=
  match splitHostPort remoteAddress with
  | .error _ => none
  | .ok (host, _) => parseIP host

/-- The key is what the library writes for the address. -/
theorem clientAddressKey_of_remoteIP (lib : Lib) {remoteAddress : GoString} {ip : IP}
    (h : remoteIP remoteAddress = some ip) : clientAddressKey lib remoteAddress = ip.string := by
  cases hsplit : splitHostPort remoteAddress with
  | error err =>
    rw [remoteIP, hsplit] at h
    cases h
  | ok parts =>
    obtain ⟨host, port⟩ := parts
    have hparse : parseIP host = some ip := by simpa only [remoteIP, hsplit] using h
    have hhost : host ≠ [] := by
      rintro rfl
      have hnil : parseIP [] = none := by decide
      rw [hnil] at hparse
      cases hparse
    simp only [clientAddressKey, hsplit, if_neg hhost, hparse]

theorem length_of_remoteIP {remoteAddress : GoString} {ip : IP}
    (h : remoteIP remoteAddress = some ip) : ip.length = 16 := by
  unfold remoteIP at h
  split at h
  · cases h
  · exact length_of_parseIP h

/-- **Two requests have the same key exactly when they come from the same address.** -/
theorem clientAddressKey_eq_iff (lib : Lib) {a b : GoString} {x y : IP} (ha : remoteIP a = some x)
    (hb : remoteIP b = some y) : clientAddressKey lib a = clientAddressKey lib b ↔ x = y := by
  rw [clientAddressKey_of_remoteIP lib ha, clientAddressKey_of_remoteIP lib hb]
  constructor
  · intro heq
    have hread : ∀ z : IP, z.length = 16 → parseIP z.string = some z := by
      intro z hz
      rw [parseIP_string (Or.inr hz), IP.to16, if_neg (by omega), if_pos hz]
    have hxy := congrArg parseIP heq
    rw [hread x (length_of_remoteIP ha), hread y (length_of_remoteIP hb)] at hxy
    exact Option.some_inj.mp hxy
  · exact congrArg IP.string

/-! ## What a request acquires -/

/-- The operation acquires for no other client. -/
def AcquiresFor (client : GoString) (o : Op) : Prop := ∀ c, o = .acquire c → c = client

theorem Stage.next_ne_fresh {stage : Stage} (h : stage ≠ .fresh) (o : Op) (r : Resp o) :
    stage.next o r ≠ .fresh := by
  cases o with
  | acquire c =>
    rcases r with _ | ⟨k, id⟩
    · exact nofun
    · exact nofun
  | dial address =>
    obtain ⟨_ | udp, _ | err⟩ := r
    · exact h
    · exact h
    · cases stage <;> first | exact absurd rfl h | exact nofun
    · exact h
  | closeUDP udp => cases stage <;> first | exact absurd rfl h | exact nofun
  | beginRelease k reason => cases r <;> exact nofun
  | release k => exact nofun
  | _ => exact h

/-- A request that is past its acquisition does not acquire again. -/
theorem only_of_keeps {α : Type} {Q : α → Stage → Prop} {stage : Stage} {p : Prog Resp α}
    (client : GoString) (h : Keeps Q stage p) (hstage : stage ≠ .fresh) :
    Follows (only (AcquiresFor client)) (fun _ _ => True) () p := by
  induction p generalizing stage with
  | ret a => trivial
  | op o k ih =>
    refine ⟨?_, fun r => ih r (h.2 r) (Stage.next_ne_fresh hstage o r)⟩
    rintro c rfl
    exact absurd h.1 hstage

/-- `serveConnectUDP` acquires for the key of its remote address. -/
theorem only_serveConnectUDP (lib : Lib) (h : Handler) (r : Request) :
    Follows (only (AcquiresFor (clientAddressKey lib r.remoteAddr))) (fun _ _ => True) ()
      (serveConnectUDP lib h r) := by
  have hkeeps := keeps_serveConnectUDP lib h r
  revert hkeeps
  unfold serveConnectUDP
  split
  · exact fun _ => trivial
  · split_ifs
    · exact fun _ => trivial
    · intro hkeeps
      refine ⟨fun c hc => (Op.acquire.inj hc).symm, fun answer => ?_⟩
      refine only_of_keeps _ (hkeeps.2 answer) ?_
      rcases answer with _ | ⟨k, id⟩
      · exact nofun
      · exact nofun

/-! ## The addresses of the associations -/

/-- The request that arrives and gets the number `i`. -/
def Event.arrival (i : ℕ) : Event → Option Request
  | .request j r => if j = i then some r else none
  | _ => none

/-- The request that got the number `i`. -/
def requestOf (es : List Event) (i : ℕ) : Option Request := es.findSome? (Event.arrival i)

theorem requestOf_concat (es : List Event) (e : Event) (i : ℕ) :
    requestOf (es ++ [e]) i = (requestOf es i).or (e.arrival i) := by
  rw [requestOf, List.findSome?_append, List.findSome?_singleton]
  rfl

/-- A number is given once, so what was read off the events stays. -/
theorem requestOf_concat_of_some {es : List Event} {i : ℕ} {r : Request}
    (h : requestOf es i = some r) (e : Event) : requestOf (es ++ [e]) i = some r := by
  rw [requestOf_concat, h]
  rfl

/-- The address for which an association is held. -/
def Admitted.address (es : List Event) (a : Admitted) : Option IP :=
  a.request.bind fun i => (requestOf es i).bind fun r => remoteIP r.remoteAddr

/-- The number of outstanding associations of an address. -/
def held (es : List Event) (s : State) (ip : IP) : ℕ :=
  s.associations.countP fun a => a.outstanding && a.address es = some ip

/-- Requests and associations go back to the events. -/
structure Ascribed (lib : Lib) (es : List Event) (s : State) : Prop where
  absent : ∀ i, s.requests i = none → requestOf es i = none
  requests : ∀ i q, s.requests i = some q → ∃ r, requestOf es i = some r ∧
    Follows (only (AcquiresFor (clientAddressKey lib r.remoteAddr))) (fun _ _ => True) () q.prog
  associations : ∀ a ∈ s.associations, ∃ i r, a.request = some i ∧ requestOf es i = some r ∧
    a.client = clientAddressKey lib r.remoteAddr

/-- An operation keeps the clients of the associations, and adds at most the one it acquires for. -/
theorem mem_effect_associations {h : Handler} {s : State} {i : ℕ} {o : Op} {r : Resp o}
    {a : Admitted} (ha : a ∈ (s.effect h i o r).associations) :
    (∃ b ∈ s.associations, a.request = b.request ∧ a.client = b.client) ∨
      o = .acquire a.client ∧ a.request = some i := by
  have hset : ∀ {k : ℕ} {b : Admitted} {once : Once}, s.associations[k]? = some b →
      a ∈ s.associations.set k { b with once := once } →
      ∃ b ∈ s.associations, a.request = b.request ∧ a.client = b.client := by
    intro k b once hb hmem
    rcases List.mem_or_eq_of_mem_set hmem with hmem | rfl
    · exact ⟨a, hmem, rfl, rfl⟩
    · exact ⟨b, List.mem_of_getElem? hb, rfl, rfl⟩
  cases o with
  | acquire client =>
    have ha : a ∈ (s.acquire h client (some i)).associations := ha
    rcases acquire_cases h s client (some i) with ⟨-, heq⟩ | ⟨-, -, -, heq⟩
    · rw [heq] at ha
      exact .inl ⟨a, ha, rfl, rfl⟩
    · rw [heq] at ha
      rcases List.mem_append.mp ha with ha | ha
      · exact .inl ⟨a, ha, rfl, rfl⟩
      · rw [List.mem_singleton.mp ha]
        exact .inr ⟨rfl, rfl⟩
  | beginRelease k reason =>
    cases r with
    | false => exact .inl ⟨a, ha, rfl, rfl⟩
    | true =>
      have ha : a ∈ ((s.associations[k]?).elim s fun a => s.setOnce k a .running).associations := ha
      cases hk : s.associations[k]? with
      | none =>
        rw [hk] at ha
        exact .inl ⟨a, ha, rfl, rfl⟩
      | some b =>
        rw [hk] at ha
        exact .inl (hset hk ha)
  | release k =>
    have ha : a ∈ ((s.associations[k]?).elim s fun a => s.release k a).associations := ha
    cases hk : s.associations[k]? with
    | none =>
      rw [hk] at ha
      exact .inl ⟨a, ha, rfl, rfl⟩
    | some b =>
      rw [hk] at ha
      exact .inl (hset hk ha)
  | dial address =>
    obtain ⟨_ | udp, err⟩ := r
    · exact .inl ⟨a, ha, rfl, rfl⟩
    · exact .inl ⟨a, ha, rfl, rfl⟩
  | _ => exact .inl ⟨a, ha, rfl, rfl⟩

theorem requests_effect (h : Handler) (s : State) (i : ℕ) (o : Op) (r : Resp o) :
    (s.effect h i o r).requests = s.requests := by
  cases o with
  | acquire client =>
    show (s.acquire h client (some i)).requests = s.requests
    rcases acquire_cases h s client (some i) with ⟨-, heq⟩ | ⟨-, -, -, heq⟩
    · rw [heq]
    · rw [heq]
  | beginRelease k reason =>
    cases r with
    | false => rfl
    | true =>
      show ((s.associations[k]?).elim s fun a => s.setOnce k a .running).requests = s.requests
      cases s.associations[k]? <;> rfl
  | release k =>
    show ((s.associations[k]?).elim s fun a => s.release k a).requests = s.requests
    cases s.associations[k]? <;> rfl
  | dial address => obtain ⟨_ | udp, err⟩ := r <;> rfl
  | _ => rfl

/-- A step of request `i`: what it leaves of the others is ascribed already. -/
theorem Ascribed.of_step {lib : Lib} {es : List Event} {s t : State} {e : Event} {i : ℕ}
    {q : Served} {r : Request} (ha : Ascribed lib es s) (hreq : t.requests = s.requests)
    (hothers : ∀ j ≠ i, e.arrival j = none) (hr : requestOf (es ++ [e]) i = some r)
    (hq : Follows (only (AcquiresFor (clientAddressKey lib r.remoteAddr)))
      (fun _ _ => True) () q.prog)
    (hassoc : ∀ a ∈ t.associations,
      (∃ b ∈ s.associations, a.request = b.request ∧ a.client = b.client) ∨
        a.request = some i ∧ a.client = clientAddressKey lib r.remoteAddr) :
    Ascribed lib (es ++ [e]) (t.setRequest i q) := by
  have hself : (t.setRequest i q).requests i = some q := Function.update_self ..
  have hother : ∀ j ≠ i, (t.setRequest i q).requests j = s.requests j := fun j hj =>
    (Function.update_of_ne hj ..).trans (congrFun hreq j)
  refine ⟨?_, ?_, ?_⟩
  · intro j hj
    have hji : j ≠ i := by
      rintro rfl
      exact absurd (hself.symm.trans hj) (Option.some_ne_none q)
    rw [requestOf_concat, ha.absent j ((hother j hji).symm.trans hj), hothers j hji]
    rfl
  · intro j q' hj
    by_cases hji : j = i
    · subst hji
      obtain rfl := Option.some_inj.mp (hself.symm.trans hj)
      exact ⟨r, hr, hq⟩
    · obtain ⟨r', hr', hq'⟩ := ha.requests j q' ((hother j hji).symm.trans hj)
      exact ⟨r', requestOf_concat_of_some hr' e, hq'⟩
  · intro a hmem
    rcases hassoc a hmem with ⟨b, hb, hreq, hclient⟩ | ⟨hreq, hclient⟩
    · obtain ⟨j, r', hreq', hr', hclient'⟩ := ha.associations b hb
      exact ⟨j, r', hreq.trans hreq', requestOf_concat_of_some hr' e, hclient.trans hclient'⟩
    · exact ⟨i, r, hreq, hr, hclient⟩

/-- A request arrives. -/
theorem Ascribed.arrive {lib : Lib} {h : Handler} {es : List Event} {s : State} {i : ℕ}
    (ha : Ascribed lib es s) (hi : s.requests i = none) (r : Request) :
    Ascribed lib (es ++ [.request i r]) (s.setRequest i ⟨serveConnectUDP lib h r, .fresh⟩) := by
  refine ha.of_step rfl (fun j hj => if_neg (Ne.symm hj)) (r := r) ?_ (only_serveConnectUDP lib h r)
    fun a hmem => .inl ⟨a, hmem, rfl, rfl⟩
  rw [requestOf_concat, ha.absent i hi, Event.arrival, if_pos rfl]
  rfl

/-- A request goes on. -/
theorem Ascribed.perform {lib : Lib} {h : Handler} {es : List Event} {s : State} {i : ℕ} {o : Op}
    {r : Resp o} {q : Served} {p : Prog Resp (Request × Option ServeError)} (ha : Ascribed lib es s)
    (hi : s.requests i = some q) (hp : q.prog.advance ⟨o, r⟩ = some p) (stage : Stage) :
    Ascribed lib (es ++ [.perform i ⟨o, r⟩]) ((s.effect h i o r).setRequest i ⟨p, stage⟩) := by
  obtain ⟨r₀, hr₀, honly⟩ := ha.requests i q hi
  obtain ⟨hfor, hrest⟩ := honly.advance hp
  refine ha.of_step (requests_effect h s i o r) (fun _ _ => rfl)
    (requestOf_concat_of_some hr₀ _) hrest fun a hmem => ?_
  rcases mem_effect_associations hmem with hold | ⟨rfl, hreq⟩
  · exact .inl hold
  · exact .inr ⟨hreq, hfor _ rfl⟩

theorem ascribed_init (lib : Lib) : Ascribed lib [] {} := by
  refine ⟨fun _ _ => rfl, fun i q hq => ?_, fun a ha => ?_⟩
  · exact absurd hq (by simp)
  · exact absurd ha (by simp)

/-- Every run in which nobody but the requests acquires. -/
theorem ascribed_of_run {lib : Lib} {h : Handler} {es : List Event} {s : State}
    (hrun : runFrom (step lib h) {} es = some s) (halone : ∀ client, Event.acquire client ∉ es) :
    Ascribed lib es s := by
  revert halone
  refine runFrom_history (P := fun es s => (∀ client, Event.acquire client ∉ es) →
    Ascribed lib es s) (fun _ => ascribed_init lib) ?_ hrun
  intro es s e s' _ ih hstep halone
  have ha := ih fun client hmem => halone client (List.mem_append_left _ hmem)
  cases move_of_step hstep with
  | request hi => exact ha.arrive hi _
  | perform hi hp hr => exact ha.perform hi hp _
  | @acquire client => exact absurd (List.mem_concat_self) (halone client)
  | @beginRelease k a hk hreq =>
    obtain ⟨i, r, hi, -⟩ := ha.associations a (List.mem_of_getElem? hk)
    exact absurd (hreq.symm.trans hi) nofun
  | releaseAgain =>
    refine ⟨?_, ?_, ?_⟩
    · intro i hi
      rw [requestOf_concat, ha.absent i hi]
      rfl
    · intro i q hq
      obtain ⟨r, hr, honly⟩ := ha.requests i q hq
      exact ⟨r, requestOf_concat_of_some hr _, honly⟩
    · intro a hmem
      obtain ⟨i, r, hreq, hr, hclient⟩ := ha.associations a hmem
      exact ⟨i, r, hreq, requestOf_concat_of_some hr _, hclient⟩
  | @release k a hk hreq =>
    obtain ⟨i, r, hi, -⟩ := ha.associations a (List.mem_of_getElem? hk)
    exact absurd (hreq.symm.trans hi) nofun

/-! ## The budget -/

section Budget

variable {lib : Lib} {es : List Event} {s : State}

/-- An association that is held for an address is counted under its key. -/
theorem Ascribed.client_eq (ha : Ascribed lib es s) {a : Admitted} (hmem : a ∈ s.associations)
    {ip : IP} (haddress : a.address es = some ip) : a.client = ip.string := by
  obtain ⟨i, r, hreq, hr, hclient⟩ := ha.associations a hmem
  rw [Admitted.address, hreq, Option.bind_some, hr, Option.bind_some] at haddress
  rw [hclient, clientAddressKey_of_remoteIP lib haddress]

theorem Ascribed.held_le (ha : Ascribed lib es s) (ip : IP) :
    held es s ip ≤ share s.associations ip.string := by
  refine List.countP_mono_left fun a hmem hheld => ?_
  simp only [Bool.and_eq_true, decide_eq_true_eq] at hheld ⊢
  exact ⟨hheld.1, ha.client_eq hmem hheld.2⟩

/-- If all requests come from IP addresses, nothing else is counted under the key. -/
theorem Ascribed.held_eq (ha : Ascribed lib es s)
    (hips : ∀ i r, requestOf es i = some r → (remoteIP r.remoteAddr).isSome = true)
    {remoteAddress : GoString} {ip : IP} (hip : remoteIP remoteAddress = some ip) :
    held es s ip = share s.associations (clientAddressKey lib remoteAddress) := by
  refine List.countP_congr fun a hmem => ?_
  simp only [Bool.and_eq_true, decide_eq_true_eq]
  refine and_congr_right fun _ => ?_
  obtain ⟨i, r, hreq, hr, hclient⟩ := ha.associations a hmem
  obtain ⟨y, hy⟩ := Option.isSome_iff_exists.mp (hips i r hr)
  rw [Admitted.address, hreq, Option.bind_some, hr, Option.bind_some, hy, hclient,
    clientAddressKey_eq_iff lib hy hip, Option.some_inj]

/-- The addresses of the associations stay what they are. -/
theorem Ascribed.address_concat (ha : Ascribed lib es s) {a : Admitted} (hmem : a ∈ s.associations)
    (e : Event) : a.address (es ++ [e]) = a.address es := by
  obtain ⟨i, r, hreq, hr, -⟩ := ha.associations a hmem
  rw [Admitted.address, Admitted.address, hreq, Option.bind_some, Option.bind_some, hr,
    requestOf_concat_of_some hr e]

/-- An association more is one more for the address of its request. -/
theorem Ascribed.held_concat (ha : Ascribed lib es s) (e : Event) {s' : State} {a : Admitted}
    {ip : IP} (hassoc : s'.associations = s.associations ++ [a]) (hout : a.outstanding = true)
    (haddress : a.address (es ++ [e]) = some ip) (y : IP) :
    held (es ++ [e]) s' y = held es s y + if y = ip then 1 else 0 := by
  have hold : s.associations.countP (fun a => a.outstanding && a.address (es ++ [e]) = some y) =
      held es s y := by
    refine List.countP_congr fun b hb => ?_
    rw [ha.address_concat hb e]
  rw [held, hassoc, List.countP_append, hold, List.countP_singleton, hout, haddress, Bool.true_and]
  simp only [Option.some_inj, decide_eq_true_eq, eq_comm (a := ip)]

end Budget

/-- **The budget of an address.**  In every run of requests from IP addresses, in any order of their
steps:

* an address has at most `connectUDPMaxClientActive` associations, whatever the ports and spellings
  of its requests;
* a request is refused only when `connectUDPMaxActive` is reached, or when that many associations
  are held for its own address: what another address does costs it nothing else;
* a request that is admitted is counted for its own address and for no other. -/
theorem budget_per_address {lib : Lib} {h : Handler} {es : List Event} {s : State}
    (hrun : runFrom (step lib h) {} es = some s) (halone : ∀ client, Event.acquire client ∉ es)
    (hips : ∀ i r, requestOf es i = some r → (remoteIP r.remoteAddr).isSome = true) :
    (∀ ip, (held es s ip : ℤ) ≤ maxClient h) ∧
    (∀ i r ip client s', requestOf es i = some r → remoteIP r.remoteAddr = some ip →
      step lib h s (.perform i ⟨.acquire client, none⟩) = some s' →
      s.counters.active = maxActive h ∨ (held es s ip : ℤ) = maxClient h) ∧
    ∀ i r ip client admitted s', requestOf es i = some r → remoteIP r.remoteAddr = some ip →
      step lib h s (.perform i ⟨.acquire client, some admitted⟩) = some s' →
      ∀ y, held (es ++ [.perform i ⟨.acquire client, some admitted⟩]) s' y =
        held es s y + if y = ip then 1 else 0 := by
  have hinv := inv_of_reachable ⟨es, hrun⟩
  have ha := ascribed_of_run hrun halone
  have hshare : ∀ client, (share s.associations client : ℤ) ≤ maxClient h := fun client =>
    occurrences_clients s.associations client ▸ hinv.accounts.share_le client
  refine ⟨fun ip => ?_, ?_, ?_⟩
  · exact (Int.ofNat_le.mpr (ha.held_le ip)).trans (hshare _)
  · intro i r ip client s' hr hip hstep
    cases move_of_step hstep with
    | perform hi hp hposs =>
      obtain ⟨r₀, hr₀, honly⟩ := ha.requests i _ hi
      obtain rfl := Option.some_inj.mp (hr.symm.trans hr₀)
      have hclient : client = clientAddressKey lib r.remoteAddr := (honly.advance hp).1 client rfl
      have hnone : (s.counters.acquireConnectUDP h client).2 = none := by
        simpa [State.possible] using hposs
      rcases acquireConnectUDP_cases h s.counters client with ⟨-, hmax⟩ | ⟨heq, -⟩
      · rw [hinv.accounts.counts.get, occurrences_clients] at hmax
        rw [ha.held_eq hips hip, ← hclient]
        exact hmax.imp (le_antisymm hinv.accounts.active_le) (le_antisymm (hshare client))
      · rw [heq] at hnone
        cases hnone
  · intro i r ip client admitted s' hr hip hstep y
    cases move_of_step hstep with
    | perform hi hp hposs =>
      have hsome : some admitted = (s.counters.acquireConnectUDP h client).2.map fun id =>
        (s.associations.length, id) := of_decide_eq_true hposs
      rcases acquire_cases h s client (some i) with ⟨hnone, -⟩ | ⟨-, -, -, heq⟩
      · rw [hnone] at hsome
        cases hsome
      · refine ha.held_concat _ (congrArg State.associations heq) rfl ?_ y
        rw [Admitted.address, Option.bind_some, requestOf_concat_of_some hr, Option.bind_some, hip]

/-! ### A run

One client has room for one association.  Its second request comes from another port, and with
another spelling of the address. -/

/-- A handler with room for one association of each client. -/
def roomForOneEach : Handler := { aclRules := [.all true], connectUDPMaxClientActive := 1 }

/-- The request of `udpRequest` from this remote address. -/
def requestFrom (remoteAddr : GoString) : Request := { udpRequest with remoteAddr := remoteAddr }

/-- The first request is admitted, the second arrives. -/
def twoSpellings : List Event :=
  [.request 0 (requestFrom (ascii "[2001:DB8::1]:50000")),
    .request 1 (requestFrom (ascii "[2001:db8:0:0::1]:50001")),
    .perform 0 ⟨.acquire (ascii "2001:db8::1"), some (0, 1)⟩]

theorem budget_per_address_twoSpellings :
    ∃ s s' ip, runFrom (step asciiLib roomForOneEach) {} twoSpellings = some s ∧
      remoteIP (ascii "[2001:DB8::1]:50000") = some ip ∧
      remoteIP (ascii "[2001:db8:0:0::1]:50001") = some ip ∧
      step asciiLib roomForOneEach s (.perform 1 ⟨.acquire (ascii "2001:db8::1"), none⟩) = some s' ∧
      s.counters.active ≠ maxActive roomForOneEach ∧ held twoSpellings s ip = 1 := by
  have hrun : ((runFrom (step asciiLib roomForOneEach) {} twoSpellings).bind fun s =>
      (step asciiLib roomForOneEach s (.perform 1 ⟨.acquire (ascii "2001:db8::1"), none⟩)).map
        fun _ => s.counters.active) = some 1 := by decide +kernel
  obtain ⟨s, hs, hstep⟩ := Option.bind_eq_some_iff.mp hrun
  obtain ⟨s', hs', hactive⟩ := Option.map_eq_some_iff.mp hstep
  have hne : s.counters.active ≠ maxActive roomForOneEach := by
    rw [hactive]
    decide
  have halone : ∀ client, Event.acquire client ∉ twoSpellings := by
    intro client
    simp [twoSpellings]
  have hips : ∀ i r, requestOf twoSpellings i = some r → (remoteIP r.remoteAddr).isSome = true := by
    intro i r hr
    rcases i with _ | _ | i
    · obtain rfl : requestFrom (ascii "[2001:DB8::1]:50000") = r := Option.some_inj.mp hr
      decide +kernel
    · obtain rfl : requestFrom (ascii "[2001:db8:0:0::1]:50001") = r := Option.some_inj.mp hr
      decide +kernel
    · exact absurd hr (by simp [requestOf, twoSpellings, Event.arrival])
  obtain ⟨-, hrefused, -⟩ := budget_per_address hs halone hips
  have hip : remoteIP (ascii "[2001:db8:0:0::1]:50001") =
      some [32, 1, 13, 184, 0, 0, 0, 0, 0, 0, 0, 0, 0, 0, 0, 1] := by decide +kernel
  refine ⟨s, s', _, hs, ?_, hip, hs', hne, ?_⟩
  · decide +kernel
  · have hheld := (hrefused 1 _ _ _ s' rfl hip hs').resolve_left hne
    have hmax : maxClient roomForOneEach = 1 := by decide
    exact_mod_cast hheld.trans hmax

end ConnectUdp
end ForwardProxy
