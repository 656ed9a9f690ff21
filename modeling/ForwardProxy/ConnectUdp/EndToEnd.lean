import ForwardProxy.ConnectUdp.LifeRelay

/-!
# A client, an association and a server that echoes (`cmd/m4-rfc9298-client`)

The client of the interoperability tests sends a payload through an association to a server that
returns every packet, and compares what comes back.  Here the three are one system.  Between them is
a network that may lose, double, delay and reorder what it carries, but does not make anything up:
what arrives was sent, at some time, by the party before (`delivers`).  The association is the one
of `Lifecycle`, with all its goroutines, so that the actions of the client and of the server fall
anywhere between theirs.

## Main results

* `echo_honest`: whatever the client receives is a payload that it has sent, so its comparison never
  fails.
-/

namespace ForwardProxy
namespace ConnectUdp
namespace EndToEnd

open ForwardProxy.Core Pump Lifecycle

/-! ## The client and the server -/

/-- The verb `%x` for bytes. -/
def hexText (data : List UInt8) : GoString :=
  data.flatMap fun c => [hexDigit (c.toNat / 16), hexDigit (c.toNat % 16)]

/-- `echo` of the client from the datagram that it has received on: the text of its error, if
any. -/
def echoError (payload datagram : List UInt8) : Option GoString :=
  match InteropClient.decode datagram with
  | .error err => some err
  | .ok got =>
    if got = payload then none
    else some (ascii "echo mismatch: got " ++ hexText got ++ ascii " want " ++ hexText payload)

/-- A turn of the server that `startEcho` starts: what it sends back. -/
def echoPacket (packet : List UInt8) : List UInt8 := packet.take 65535

/-! ## The system -/

/-- The state of the system: the association, and what the others have done. -/
structure State where
  association : Lifecycle.State
  /-- The payloads that the client has sent. -/
  asked : List (List UInt8) := []
  /-- The packets that the server has sent back. -/
  echoed : List (List UInt8) := []
  /-- The datagrams that the client has received. -/
  received : List (List UInt8) := []

/-- One action of one party. -/
inductive Event where
  /-- The client sends a payload. -/
  | ask (payload : List UInt8)
  /-- An action in the association. -/
  | proxy (e : Lifecycle.Event)
  /-- The server receives a packet and sends it back. -/
  | echo (packet : List UInt8)
  /-- The client receives a datagram. -/
  | receive (datagram : List UInt8)

/-- The calls of a pump: what `udp.Write` or `SendDatagram` were given. -/
def State.calls (s : State) (d : Direction) : List (List UInt8) := (s.association.pump d).st.sent

/-- What the association receives has been sent to it. -/
def delivers (s : State) : Lifecycle.Event → Bool
  | .input .h3ToUDP (.ok datagram) => s.asked.any fun payload =>
    InteropClient.encode payload = datagram
  | .input .udpToH3 (.ok packet) => s.echoed.any fun echoed => echoed = packet
  | _ => true

/-- One step.  `none` means that the action is not enabled. -/
def step (a : Association) (idleTimeout : ℕ) (s : State) : Event → Option State
  | .ask payload => some { s with asked := s.asked ++ [payload] }
  | .proxy e =>
    if delivers s e then
      (Lifecycle.step a idleTimeout s.association e).map fun t => { s with association := t }
    else none
  | .echo packet =>
    if (s.calls .h3ToUDP).any fun sent => sent = packet then
      some { s with echoed := s.echoed ++ [echoPacket packet] }
    else none
  | .receive datagram =>
    if (s.calls .udpToH3).any fun sent => sent = datagram then
      some { s with received := s.received ++ [datagram] }
    else none

/-- The state when the association begins. -/
def init (now : ℕ) : State := { association := Lifecycle.init now }

/-! ## The invariant -/

/-- A payload that the client has sent, and that fits into a packet. -/
structure Asked (asked : List (List UInt8)) (payload : List UInt8) : Prop where
  mem : payload ∈ asked
  le : payload.length ≤ connectUDPMaxUDPPayload

/-- Wherever a payload is, it is one of the client's. -/
structure Honest (s : State) : Prop where
  buffered : s.association.Buffered
  toUDP : ∀ payload ∈ (s.association.pump .h3ToUDP).handed, Asked s.asked payload
  echoed : ∀ packet ∈ s.echoed, Asked s.asked packet
  toH3 : ∀ datagram ∈ (s.association.pump .udpToH3).handed,
    ∃ payload, Asked s.asked payload ∧ datagram = InteropClient.encode payload
  received : ∀ datagram ∈ s.received,
    ∃ payload, Asked s.asked payload ∧ datagram = InteropClient.encode payload

variable {a : Association} {idleTimeout : ℕ} {s s' : State}

theorem honest_init (now : ℕ) : Honest (init now) :=
  ⟨fun _ => rfl, nofun, nofun, nofun, nofun⟩

/-- What the client has sent stays. -/
theorem Asked.ask {p payload : List UInt8} (h : Asked s.asked p) :
    Asked (s.asked ++ [payload]) p :=
  ⟨List.mem_append_left _ h.mem, h.le⟩

/-- What a pump has called is among what it has handed on. -/
theorem mem_handed_of_mem_calls {d : Direction} {x : List UInt8} (h : x ∈ s.calls d) :
    x ∈ (s.association.pump d).handed := List.mem_append_left _ h

/-- What arrives at the proxy from the client. -/
theorem asked_of_relayable {datagram payload : List UInt8}
    (hdelivers : delivers s (.input .h3ToUDP (.ok datagram)) = true)
    (hpayload : relayable a datagram = some payload) : Asked s.asked payload := by
  obtain ⟨asked, hasked, heq⟩ := List.any_eq_true.mp hdelivers
  obtain rfl := of_decide_eq_true heq
  obtain ⟨hdecode, hle⟩ := Option.filter_eq_some_iff.mp hpayload
  rw [← encodeConnectUDPDatagram_eq, decode_encode] at hdecode
  obtain rfl := Option.some_inj.mp hdecode
  exact ⟨hasked, by simpa using hle⟩

/-- What arrives at the proxy from the server. -/
theorem asked_of_echoed {packet : List UInt8} (h : Honest s)
    (hdelivers : delivers s (.input .udpToH3 (.ok packet)) = true) : Asked s.asked packet := by
  obtain ⟨echoed, hechoed, heq⟩ := List.any_eq_true.mp hdelivers
  obtain rfl := of_decide_eq_true heq
  exact h.echoed echoed hechoed

theorem Honest.proxy {e : Lifecycle.Event} {t : Lifecycle.State} (h : Honest s)
    (hdelivers : delivers s e = true) (ht : Lifecycle.step a idleTimeout s.association e = some t) :
    Honest { s with association := t } := by
  have hstep := handed_step h.buffered ht
  refine ⟨fun d => (hstep d).2.trans (h.buffered d), fun payload hmem => ?_, h.echoed,
    fun datagram hmem => ?_, h.received⟩
  · rw [(hstep .h3ToUDP).1, List.mem_append] at hmem
    refine hmem.elim (h.toUDP payload) fun hnew => ?_
    obtain ⟨datagram, hreceipt, hrelayed⟩ := Option.bind_eq_some_iff.mp (Option.mem_toList.mp hnew)
    obtain rfl := eq_input_of_receipt hreceipt
    exact asked_of_relayable hdelivers hrelayed
  · rw [(hstep .udpToH3).1, List.mem_append] at hmem
    refine hmem.elim (h.toH3 datagram) fun hnew => ?_
    obtain ⟨packet, hreceipt, hrelayed⟩ := Option.bind_eq_some_iff.mp (Option.mem_toList.mp hnew)
    obtain rfl := eq_input_of_receipt hreceipt
    have hasked := asked_of_echoed h hdelivers
    refine ⟨packet, hasked, ?_⟩
    rw [← Option.some_inj.mp hrelayed, datagramOf, List.take_of_length_le hasked.le,
      encodeConnectUDPDatagram_eq]

theorem Honest.step {e : Event} (h : Honest s) (hs : step a idleTimeout s e = some s') :
    Honest s' := by
  cases e with
  | ask payload =>
    obtain rfl := Option.some_inj.mp hs
    refine ⟨h.buffered, fun p hp => (h.toUDP p hp).ask, fun p hp => (h.echoed p hp).ask,
      fun datagram hmem => ?_, fun datagram hmem => ?_⟩
    · obtain ⟨p, hp, heq⟩ := h.toH3 datagram hmem
      exact ⟨p, hp.ask, heq⟩
    · obtain ⟨p, hp, heq⟩ := h.received datagram hmem
      exact ⟨p, hp.ask, heq⟩
  | proxy e =>
    obtain ⟨hdelivers, hs⟩ := Option.ite_none_right_eq_some.mp hs
    obtain ⟨t, ht, rfl⟩ := Option.map_eq_some_iff.mp hs
    exact h.proxy hdelivers ht
  | echo packet =>
    obtain ⟨hany, hs⟩ := Option.ite_none_right_eq_some.mp hs
    obtain rfl := Option.some_inj.mp hs
    obtain ⟨sent, hsent, heq⟩ := List.any_eq_true.mp hany
    obtain rfl := of_decide_eq_true heq
    have hasked := h.toUDP sent (mem_handed_of_mem_calls hsent)
    refine ⟨h.buffered, h.toUDP, fun p hp => ?_, h.toH3, h.received⟩
    rcases List.mem_append.mp hp with hp | hp
    · exact h.echoed p hp
    · rw [List.mem_singleton.mp hp, echoPacket, List.take_of_length_le
        (show sent.length ≤ 65535 from hasked.le)]
      exact hasked
  | receive datagram =>
    obtain ⟨hany, hs⟩ := Option.ite_none_right_eq_some.mp hs
    obtain rfl := Option.some_inj.mp hs
    obtain ⟨sent, hsent, heq⟩ := List.any_eq_true.mp hany
    obtain rfl := of_decide_eq_true heq
    refine ⟨h.buffered, h.toUDP, h.echoed, h.toH3, fun datagram hmem => ?_⟩
    rcases List.mem_append.mp hmem with hmem | hmem
    · exact h.received datagram hmem
    · rw [List.mem_singleton.mp hmem]
      exact h.toH3 sent (mem_handed_of_mem_calls hsent)

/-! ## The main result -/

/-- **An echo is honest.**  However the client, the server and the goroutines of the association
interleave, and whatever the network loses, doubles, delays or reorders: each datagram that the
client receives decodes to a payload that it has sent before, of at most `connectUDPMaxUDPPayload`
bytes; and a client that has sent one payload only, as `echo` does, finds no fault with it. -/
theorem echo_honest (a : Association) (idleTimeout now : ℕ) {s : State}
    (h : Reachable (step a idleTimeout) (init now) s) {datagram : List UInt8}
    (hmem : datagram ∈ s.received) :
    (∃ payload ∈ s.asked, InteropClient.decode datagram = .ok payload ∧
      payload.length ≤ connectUDPMaxUDPPayload) ∧
    ∀ payload, (∀ p ∈ s.asked, p = payload) → echoError payload datagram = none := by
  have hinv : Honest s := h.induction_on_step (honest_init now) fun _ _ _ h hs => h.step hs
  obtain ⟨payload, hasked, heq⟩ := hinv.received datagram hmem
  have hdecode : InteropClient.decode datagram = .ok payload :=
    InteropClient.decode_eq_ok_iff.mpr heq
  refine ⟨⟨payload, hasked.mem, hdecode, hasked.le⟩, fun p hp => ?_⟩
  rw [echoError, hdecode]
  exact if_pos (hp payload hasked.mem)

/-- A payload goes to the server and back. -/
def roundTrip : List Event :=
  [.ask [65], .proxy .newTimer, .proxy (.input .h3ToUDP (.ok [0, 65])), .proxy (.call .h3ToUDP),
    .echo [65], .proxy (.input .udpToH3 (.ok [65])), .proxy (.call .udpToH3), .receive [0, 65]]

theorem echo_honest_roundTrip :
    ∃ s, runFrom (step firstAssociation 30) (init 0) roundTrip = some s ∧ s.asked = [[65]] ∧
      s.received = [[0, 65]] ∧ echoError [65] [0, 65] = none := by
  have hrun : ((runFrom (step firstAssociation 30) (init 0) roundTrip).map fun s =>
      (s.asked, s.received)) = some ([[65]], [[0, 65]]) := by decide +kernel
  obtain ⟨s, hs, hend⟩ := Option.map_eq_some_iff.mp hrun
  obtain ⟨hasked, hreceived⟩ := Prod.mk.inj hend
  have hmem : [0, 65] ∈ s.received := by rw [hreceived]; exact List.mem_singleton_self _
  refine ⟨s, hs, hasked, hreceived,
    (echo_honest firstAssociation 30 0 ⟨_, hs⟩ hmem).2 [65] fun p hp => ?_⟩
  rw [hasked] at hp
  exact List.mem_singleton.mp hp

end EndToEnd
end ConnectUdp
end ForwardProxy
