import ForwardProxy.ConnectUdp.Datagram
import ForwardProxy.Core.GoString
import ForwardProxy.Core.Loop

/-!
# The pumps of an association (`native_udp_association.go`)

`pumpH3ToUDP` takes datagrams from the stream of the request and writes their payloads to the UDP
socket; `pumpUDPToH3` takes packets from the socket and sends them as datagrams.  Neither keeps a
queue: a datagram is handed on, once, before the next one is asked for.

A pump runs for as long as it is given something, so the model runs over the answers it has been
given so far: the result is what it has done by then, and the error if it has returned.  The turns
of the loops are split where they wait for an answer.

## Main results

* `datagram_relay`: what the pumps hand on is what they were given, in order, each once, up to the
  first failure.
-/

namespace ForwardProxy
namespace ConnectUdp
namespace Pump

open ForwardProxy.Core

/-! ## The model -/

/-- The fields of `connectUDPAssociationCounters`. -/
inductive Counter where
  | malformedContext
  | oversize
  | udpReadError
  | udpWriteError
  | h3ReadError
  | h3WriteError
  deriving DecidableEq, Repr

/-- The entries that `logEvent` writes. -/
structure LogEntry where
  associationID : UInt64
  reason : GoString
  count : UInt64
  bytes : ℕ
  deriving DecidableEq, Repr

/-- What the pumps use: of a `connectUDPAssociation` its identifier and whether it has a logger, and
the package for the context identifiers. -/
structure Association where
  id : UInt64
  logger : Bool
  varint : QuicVarint.Codec

/-- The first association of a process, without a logger. -/
def firstAssociation : Association := { id := 1, logger := false, varint := QuicVarint.codec }

/-- What a pump has done. -/
structure State where
  counters : Counter → UInt64 := fun _ => 0
  log : List LogEntry := []
  /-- The calls of `udp.Write` or of `stream.SendDatagram`. -/
  sent : List (List UInt8) := []
  /-- How often activity was notified. -/
  notified : ℕ := 0

/-- `countEvent`, with the `logEvent` in it. -/
def State.countEvent (st : State) (a : Association) (counter : Counter) (reason : GoString)
    (bytes : ℕ) : State :=
  let count := st.counters counter + 1
  { st with
    counters := Function.update st.counters counter count
    log := if count &&& (count - 1) = 0 ∧ a.logger then
        st.log ++ [{ associationID := a.id, reason := reason, count := count, bytes := bytes }]
      else st.log }

/-- A turn of `pumpH3ToUDP` up to the `udp.Write`, and the payload for it. -/
def receive (a : Association) (st : State) :
    Except IOErr (List UInt8) → Turn (State × Option (List UInt8)) (State × IOErr)
  | .error err => .done (st.countEvent a .h3ReadError (ascii "h3_read_error") 0, err)
  | .ok datagram =>
    let skip := st.countEvent a .malformedContext (ascii "malformed_context") datagram.length
    match decodeConnectUDPDatagram a.varint datagram with
    | none => .next (skip, none)
    | some payload =>
      if connectUDPMaxUDPPayload < payload.length then
        .next (skip, none)
      else .next (st, some payload)

/-- The rest of a turn of `pumpH3ToUDP`, after `udp.Write` has answered. -/
def afterWrite (a : Association) (st : State) (payload : List UInt8) :
    ℕ × Option IOErr → Turn State (State × IOErr)
  | (_, some err) =>
    .done (st.countEvent a .udpWriteError (ascii "udp_write_error") payload.length, err)
  | (n, none) =>
    if n ≠ payload.length then
      .done (st.countEvent a .udpWriteError (ascii "udp_short_write") payload.length, .shortWrite)
    else .next { st with notified := st.notified + 1 }

/-- `pumpH3ToUDP`, when `ReceiveDatagram` has given these answers; `udp` is what the socket answers
to each `Write`. -/
def pumpH3ToUDP (a : Association) (udp : ℕ → List UInt8 → ℕ × Option IOErr) :
    State → List (Except IOErr (List UInt8)) → State × Option IOErr
  | st, [] => (st, none)
  | st, r :: rs =>
    match receive a st r with
    | .done (st, err) => (st, some err)
    | .next (st, none) => pumpH3ToUDP a udp st rs
    | .next (st, some payload) =>
      match afterWrite a { st with sent := st.sent ++ [payload] } payload
          (udp st.sent.length payload) with
      | .done (st, err) => (st, some err)
      | .next st => pumpH3ToUDP a udp st rs

/-- The errors of `SendDatagram`, as `errors.As` tells them apart. -/
inductive SendError where
  | tooLarge
  | other (err : IOErr)
  deriving DecidableEq, Repr

/-- A turn of `pumpUDPToH3` up to the `SendDatagram`, and the datagram for it.  A packet that is
longer than the buffer is cut. -/
def read (a : Association) (st : State) (buffer : Buffer) :
    Except IOErr (List UInt8) → Turn (Buffer × List UInt8) (State × IOErr)
  | .error err => .done (st.countEvent a .udpReadError (ascii "udp_read_error") 0, err)
  | .ok packet =>
    let data := packet.take buffer.len
    let buffer := buffer.fill 0 data
    .next (buffer, encodeConnectUDPDatagram a.varint (buffer.take data.length))

/-- The rest of a turn of `pumpUDPToH3`, after `SendDatagram` has answered; `cause` is that of the
context, if it has ended. -/
def afterSend (a : Association) (st : State) (datagram : List UInt8) (cause : Option IOErr) :
    Option SendError → Turn State (State × IOErr)
  | some .tooLarge => .next (st.countEvent a .oversize (ascii "oversize") datagram.length)
  | some (.other err) =>
    .done (st.countEvent a .h3WriteError (ascii "h3_write_error") datagram.length, err)
  | none =>
    let st := { st with notified := st.notified + 1 }
    match cause with
    | some err => .done (st, err)
    | none => .next st

/-- `pumpUDPToH3` with this buffer, when `udp.Read` has given these answers; `h3` is what the stream
answers to each `SendDatagram`, and `ctx` the cause of the context after it. -/
def pumpUDPToH3 (a : Association) (h3 : ℕ → List UInt8 → Option SendError)
    (ctx : ℕ → Option IOErr) : State → Buffer → List (Except IOErr (List UInt8)) →
    State × Option IOErr
  | st, _, [] => (st, none)
  | st, buffer, r :: rs =>
    match read a st buffer r with
    | .done (st, err) => (st, some err)
    | .next (buffer, datagram) =>
      match afterSend a { st with sent := st.sent ++ [datagram] } datagram (ctx st.sent.length)
          (h3 st.sent.length datagram) with
      | .done (st, err) => (st, some err)
      | .next st => pumpUDPToH3 a h3 ctx st buffer rs

/-- The `buffer` of `pumpUDPToH3`. -/
def newBuffer : Buffer := { len := connectUDPMaxUDPPayload, get := fun _ => 0 }

/-! ## Calls up to the first failure -/

variable {α : Type}

/-- The calls up to and including the first that fails.  They are numbered from `k`, and
`failure k c` is what the pump returns because of call `c` with number `k`. -/
def upTo (failure : ℕ → α → Option IOErr) (k : ℕ) (calls : List α) : List α :=
  calls.take ((calls.zipIdx k).findIdx (fun c => (failure c.2 c.1).isSome) + 1)

/-- The first failure. -/
def firstFailure (failure : ℕ → α → Option IOErr) (k : ℕ) (calls : List α) : Option IOErr :=
  (calls.zipIdx k).findSome? fun c => failure c.2 c.1

variable {failure : ℕ → α → Option IOErr} {k : ℕ} {c : α} {calls : List α}

theorem upTo_cons_of_some {err : IOErr} (h : failure k c = some err) :
    upTo failure k (c :: calls) = [c] := by
  simp [upTo, List.zipIdx_cons, List.findIdx_cons, h]

theorem upTo_cons_of_none (h : failure k c = none) :
    upTo failure k (c :: calls) = c :: upTo failure (k + 1) calls := by
  simp [upTo, List.zipIdx_cons, List.findIdx_cons, h]

theorem firstFailure_cons_of_some {err : IOErr} (h : failure k c = some err) :
    firstFailure failure k (c :: calls) = some err := by
  simp [firstFailure, List.zipIdx_cons, h]

theorem firstFailure_cons_of_none (h : failure k c = none) :
    firstFailure failure k (c :: calls) = firstFailure failure (k + 1) calls := by
  simp [firstFailure, List.zipIdx_cons, h]

/-! ## From the stream to the socket -/

/-- The payload of a datagram that is handed on. -/
def relayable (a : Association) (datagram : List UInt8) : Option (List UInt8) :=
  (decodeConnectUDPDatagram a.varint datagram).filter fun payload =>
    payload.length ≤ connectUDPMaxUDPPayload

/-- What the pump returns because of the `k`-th `Write`, if that fails or is short. -/
def writeFailure (udp : ℕ → List UInt8 → ℕ × Option IOErr) (k : ℕ) (payload : List UInt8) :
    Option IOErr :=
  match udp k payload with
  | (_, some err) => some err
  | (n, none) => if n ≠ payload.length then some .shortWrite else none

/-- What is left of a state when a datagram is skipped. -/
def State.skip (st : State) (a : Association) (datagram : List UInt8) : State :=
  st.countEvent a .malformedContext (ascii "malformed_context") datagram.length

variable {a : Association} {st : State} {udp : ℕ → List UInt8 → ℕ × Option IOErr}
  {datagram payload : List UInt8} {rs : List (Except IOErr (List UInt8))}

theorem receive_of_none (h : relayable a datagram = none) :
    receive a st (.ok datagram) = .next (st.skip a datagram, none) := by
  unfold relayable at h
  cases hd : decodeConnectUDPDatagram a.varint datagram with
  | none => simp only [receive, hd, State.skip]
  | some payload =>
    have hlong : connectUDPMaxUDPPayload < payload.length := by simpa [hd, Option.filter] using h
    simp only [receive, hd, if_pos hlong, State.skip]

theorem receive_of_some (h : relayable a datagram = some payload) :
    receive a st (.ok datagram) = .next (st, some payload) := by
  obtain ⟨hd, hle⟩ := Option.filter_eq_some_iff.mp h
  have hshort : ¬ connectUDPMaxUDPPayload < payload.length := Nat.not_lt.mpr (by simpa using hle)
  simp only [receive, hd, if_neg hshort]

/-- A datagram that is malformed changes nothing but its counter, and perhaps the log. -/
theorem pumpH3ToUDP_skip (h : relayable a datagram = none) :
    pumpH3ToUDP a udp st (.ok datagram :: rs) = pumpH3ToUDP a udp (st.skip a datagram) rs := by
  rw [pumpH3ToUDP, receive_of_none h]

theorem afterWrite_of_some (a : Association) (st : State) {err : IOErr}
    (h : writeFailure udp k payload = some err) :
    ∃ st', afterWrite a st payload (udp k payload) = .done (st', err) ∧ st'.sent = st.sent ∧
      st'.counters .malformedContext = st.counters .malformedContext := by
  unfold writeFailure at h
  generalize udp k payload = answer at h ⊢
  obtain ⟨n, werr⟩ := answer
  cases werr with
  | some werr =>
    obtain rfl : werr = err := Option.some_inj.mp h
    exact ⟨_, rfl, rfl, rfl⟩
  | none =>
    dsimp only at h
    split_ifs at h with hne
    obtain rfl : IOErr.shortWrite = err := Option.some_inj.mp h
    exact ⟨_, if_pos hne, rfl, rfl⟩

theorem afterWrite_of_none (h : writeFailure udp k payload = none) :
    afterWrite a st payload (udp k payload) = .next { st with notified := st.notified + 1 } := by
  unfold writeFailure at h
  generalize udp k payload = answer at h ⊢
  obtain ⟨n, werr⟩ := answer
  cases werr with
  | some werr => exact absurd h nofun
  | none =>
    dsimp only at h
    split_ifs at h with hne
    exact if_neg hne

/-- A datagram whose `Write` fails is the last one. -/
theorem pumpH3ToUDP_fail (a : Association) (rs : List (Except IOErr (List UInt8))) {err : IOErr}
    (h : relayable a datagram = some payload)
    (hfail : writeFailure udp st.sent.length payload = some err) :
    ∃ st', pumpH3ToUDP a udp st (.ok datagram :: rs) = (st', some err) ∧
      st'.sent = st.sent ++ [payload] ∧
      st'.counters .malformedContext = st.counters .malformedContext := by
  obtain ⟨st', hafter, hsent, hcount⟩ :=
    afterWrite_of_some a { st with sent := st.sent ++ [payload] } hfail
  refine ⟨st', ?_, hsent, hcount⟩
  simp only [pumpH3ToUDP, receive_of_some h, hafter]

/-- After any other the pump goes on. -/
theorem pumpH3ToUDP_next (h : relayable a datagram = some payload)
    (htaken : writeFailure udp st.sent.length payload = none) :
    pumpH3ToUDP a udp st (.ok datagram :: rs) =
      pumpH3ToUDP a udp
        { st with sent := st.sent ++ [payload], notified := st.notified + 1 } rs := by
  simp only [pumpH3ToUDP, receive_of_some h, afterWrite_of_none htaken]

/-- What `pumpH3ToUDP` does with the datagrams it receives, and with the error after them, if there
is one: of the payloads it writes those up to the first failure, it returns because of that or of
the error, and the other datagrams are counted. -/
structure Relayed (a : Association) (udp : ℕ → List UInt8 → ℕ × Option IOErr)
    (ds : List (List UInt8)) (tail : Option IOErr) (st : State) (r : State × Option IOErr) :
    Prop where
  sent : r.1.sent = st.sent ++ upTo (writeFailure udp) st.sent.length (ds.filterMap (relayable a))
  err : r.2 = (firstFailure (writeFailure udp) st.sent.length (ds.filterMap (relayable a))).or tail
  /-- The first `m` of the datagrams were received. -/
  received : ∃ m ≤ ds.length, r.1.sent = st.sent ++ (ds.take m).filterMap (relayable a) ∧
    r.1.counters .malformedContext = st.counters .malformedContext +
      UInt64.ofNat ((ds.take m).countP fun d => (relayable a d).isNone)

/-- Nothing more is received. -/
theorem relayed_nil (tail : Option IOErr) (st : State) :
    Relayed a udp [] tail st (pumpH3ToUDP a udp st (tail.map .error).toList) := by
  cases tail with
  | none =>
    refine ⟨(List.append_nil _).symm, rfl, 0, le_rfl, (List.append_nil _).symm, ?_⟩
    simp [pumpH3ToUDP]
  | some err =>
    refine ⟨(List.append_nil _).symm, rfl, 0, le_rfl, (List.append_nil _).symm, ?_⟩
    simp [pumpH3ToUDP, receive, State.countEvent]

theorem Relayed.skip {d : List UInt8} {ds : List (List UInt8)} {tail : Option IOErr}
    {r : State × Option IOErr} (hd : relayable a d = none)
    (h : Relayed a udp ds tail (st.skip a d) r) :
    Relayed a udp (d :: ds) tail st r := by
  obtain ⟨hsent, herr, m, hm, htake, hcount⟩ := h
  have hskip : (st.skip a d).counters .malformedContext = st.counters .malformedContext + 1 := by
    simp [State.skip, State.countEvent]
  refine ⟨?_, ?_, m + 1, Nat.succ_le_succ hm, ?_, ?_⟩
  · rw [List.filterMap_cons_none hd]
    exact hsent
  · rw [List.filterMap_cons_none hd]
    exact herr
  · rw [List.take_succ_cons, List.filterMap_cons_none hd]
    exact htake
  · rw [hcount, hskip, List.take_succ_cons, List.countP_cons_of_pos (by rw [hd]; rfl),
      UInt64.ofNat_add, UInt64.add_assoc, UInt64.add_comm 1]
    rfl

theorem Relayed.fail {d : List UInt8} {ds : List (List UInt8)} {tail : Option IOErr} {st' : State}
    {err : IOErr} (hd : relayable a d = some payload)
    (hw : writeFailure udp st.sent.length payload = some err)
    (hsent : st'.sent = st.sent ++ [payload])
    (hcount : st'.counters .malformedContext = st.counters .malformedContext) :
    Relayed a udp (d :: ds) tail st (st', some err) := by
  refine ⟨?_, ?_, 1, Nat.succ_le_succ (Nat.zero_le _), ?_, ?_⟩
  · rw [List.filterMap_cons_some hd, upTo_cons_of_some hw]
    exact hsent
  · rw [List.filterMap_cons_some hd, firstFailure_cons_of_some hw]
    rfl
  · rw [List.take_succ_cons, List.take_zero, List.filterMap_cons_some hd]
    exact hsent
  · rw [List.take_succ_cons, List.take_zero, List.countP_cons_of_neg (by simp [hd])]
    simpa using hcount

theorem Relayed.next {d : List UInt8} {ds : List (List UInt8)} {tail : Option IOErr}
    {r : State × Option IOErr} {notified : ℕ} (hd : relayable a d = some payload)
    (hw : writeFailure udp st.sent.length payload = none)
    (h : Relayed a udp ds tail { st with sent := st.sent ++ [payload], notified := notified } r) :
    Relayed a udp (d :: ds) tail st r := by
  obtain ⟨hsent, herr, m, hm, htake, hcount⟩ := h
  rw [List.length_append, List.length_singleton, List.append_assoc] at hsent
  rw [List.length_append, List.length_singleton] at herr
  rw [List.append_assoc] at htake
  refine ⟨?_, ?_, m + 1, Nat.succ_le_succ hm, ?_, ?_⟩
  · rw [List.filterMap_cons_some hd, upTo_cons_of_none hw]
    exact hsent
  · rw [List.filterMap_cons_some hd, firstFailure_cons_of_none hw]
    exact herr
  · rw [List.take_succ_cons, List.filterMap_cons_some hd]
    exact htake
  · rw [List.take_succ_cons, List.countP_cons_of_neg (by simp [hd])]
    exact hcount

theorem relayed_pumpH3ToUDP (ds : List (List UInt8)) (tail : Option IOErr) (st : State) :
    Relayed a udp ds tail st (pumpH3ToUDP a udp st (ds.map .ok ++ (tail.map .error).toList)) := by
  -- by induction on the datagrams; each is skipped, or the last one, or handed on
  induction ds generalizing st with
  | nil => exact relayed_nil tail st
  | cons d ds ih =>
    rw [List.map_cons, List.cons_append]
    cases hd : relayable a d with
    | none =>
      rw [pumpH3ToUDP_skip hd]
      exact (ih (st.skip a d)).skip hd
    | some payload =>
      cases hw : writeFailure udp st.sent.length payload with
      | some err =>
        obtain ⟨st', hpump, hsent, hcount⟩ :=
          pumpH3ToUDP_fail a (ds.map .ok ++ (tail.map .error).toList) hd hw
        rw [hpump]
        exact .fail hd hw hsent hcount
      | none =>
        rw [pumpH3ToUDP_next hd hw]
        exact (ih { st with sent := st.sent ++ [payload], notified := st.notified + 1 }).next hd hw

/-! ## From the socket to the stream -/

/-- What the pump returns because of the `k`-th `SendDatagram`, or because its context has ended by
then. -/
def sendFailure (h3 : ℕ → List UInt8 → Option SendError) (ctx : ℕ → Option IOErr) (k : ℕ)
    (datagram : List UInt8) : Option IOErr :=
  match h3 k datagram with
  | some .tooLarge => none
  | some (.other err) => some err
  | none => ctx k

/-- The datagram for a packet. -/
def datagramOf (a : Association) (packet : List UInt8) : List UInt8 :=
  encodeConnectUDPDatagram a.varint (packet.take connectUDPMaxUDPPayload)

variable {h3 : ℕ → List UInt8 → Option SendError} {ctx : ℕ → Option IOErr} {buffer : Buffer}

/-- The buffer is used again for each packet, and nothing of the one before is left in the
datagram. -/
theorem read_ok (a : Association) (st : State) (packet : List UInt8)
    (hlen : buffer.len = connectUDPMaxUDPPayload) :
    ∃ buffer', read a st buffer (.ok packet) = .next (buffer', datagramOf a packet) ∧
      buffer'.len = connectUDPMaxUDPPayload := by
  refine ⟨buffer.fill 0 (packet.take connectUDPMaxUDPPayload), ?_, hlen⟩
  simp only [read, hlen, Buffer.take_fill_zero]
  rfl

theorem afterSend_of_some (a : Association) (st : State) {err : IOErr}
    (h : sendFailure h3 ctx k datagram = some err) :
    ∃ st', afterSend a st datagram (ctx k) (h3 k datagram) = .done (st', err) ∧
    st'.sent = st.sent := by
  unfold sendFailure at h
  generalize h3 k datagram = answer at h ⊢
  match answer with
  | some .tooLarge => exact absurd h nofun
  | some (.other serr) =>
    obtain rfl : serr = err := Option.some_inj.mp h
    exact ⟨_, rfl, rfl⟩
  | none =>
    simp only [afterSend, h]
    exact ⟨_, rfl, rfl⟩

theorem afterSend_of_none (a : Association) (st : State)
    (h : sendFailure h3 ctx k datagram = none) :
    ∃ st', afterSend a st datagram (ctx k) (h3 k datagram) = .next st' ∧ st'.sent = st.sent := by
  unfold sendFailure at h
  generalize h3 k datagram = answer at h ⊢
  match answer with
  | some .tooLarge => exact ⟨_, rfl, rfl⟩
  | some (.other serr) => exact absurd h nofun
  | none =>
    simp only [afterSend, h]
    exact ⟨_, rfl, rfl⟩

/-- What `pumpUDPToH3` does with the packets it reads, and with the error after them, if there is
one. -/
theorem pumpUDPToH3_spec (ps : List (List UInt8)) (tail : Option IOErr) (st : State)
    (hlen : buffer.len = connectUDPMaxUDPPayload) :
    (pumpUDPToH3 a h3 ctx st buffer (ps.map .ok ++ (tail.map .error).toList)).1.sent =
        st.sent ++ upTo (sendFailure h3 ctx) st.sent.length (ps.map (datagramOf a)) ∧
      (pumpUDPToH3 a h3 ctx st buffer (ps.map .ok ++ (tail.map .error).toList)).2 =
        (firstFailure (sendFailure h3 ctx) st.sent.length (ps.map (datagramOf a))).or tail := by
  induction ps generalizing st buffer with
  | nil =>
    cases tail with
    | none => exact ⟨(List.append_nil _).symm, rfl⟩
    | some err => exact ⟨(List.append_nil _).symm, rfl⟩
  | cons p ps ih =>
    obtain ⟨buffer', hread, hlen'⟩ := read_ok a st p hlen
    rw [List.map_cons, List.cons_append, List.map_cons]
    cases hs : sendFailure h3 ctx st.sent.length (datagramOf a p) with
    | some err =>
      obtain ⟨st', hafter, hsent⟩ :=
        afterSend_of_some a { st with sent := st.sent ++ [datagramOf a p] } hs
      rw [upTo_cons_of_some hs, firstFailure_cons_of_some hs]
      simp only [pumpUDPToH3, hread, hafter]
      exact ⟨hsent, rfl⟩
    | none =>
      obtain ⟨st', hafter, hsent⟩ :=
        afterSend_of_none a { st with sent := st.sent ++ [datagramOf a p] } hs
      have hrest := ih st' hlen'
      rw [hsent, List.length_append, List.length_singleton, List.append_assoc] at hrest
      rw [upTo_cons_of_none hs, firstFailure_cons_of_none hs]
      simp only [pumpUDPToH3, hread, hafter]
      exact hrest

/-! ## Both directions -/

/-- **The relay of datagrams.**  For every association:

* whatever datagrams the stream delivers, with an error after them or not, and whatever the socket
  answers, `pumpH3ToUDP` writes the payloads of those that decode to one of at most
  `connectUDPMaxUDPPayload` bytes, in order, each once, up to and including the first `Write` that
  fails or is short; it returns because of that or of the error of the stream; the other datagrams
  among the ones it has received are counted in `malformedContext`, and each of them changes nothing
  else but the log;
* whatever packets the socket delivers, and whatever the stream answers, `pumpUDPToH3` sends each
  once, in order, up to and including the first that is refused for another reason than its size, or
  after which the context has ended; it returns because of that or of the error of the socket; what
  it sends decodes to the packet. -/
theorem datagram_relay (a : Association) :
    (∀ udp ds tail,
      Relayed a udp ds tail {} (pumpH3ToUDP a udp {} (ds.map .ok ++ (tail.map .error).toList))) ∧
    (∀ udp st d rs, relayable a d = none → ∃ log,
      pumpH3ToUDP a udp st (.ok d :: rs) = pumpH3ToUDP a udp
        { st with
          counters := Function.update st.counters .malformedContext
            (st.counters .malformedContext + 1)
          log := log } rs) ∧
    (∀ h3 ctx (ps : List (List UInt8)) (tail : Option IOErr),
      (pumpUDPToH3 a h3 ctx {} newBuffer (ps.map .ok ++ (tail.map .error).toList)).1.sent =
          upTo (sendFailure h3 ctx) 0 (ps.map (datagramOf a)) ∧
        (pumpUDPToH3 a h3 ctx {} newBuffer (ps.map .ok ++ (tail.map .error).toList)).2 =
          (firstFailure (sendFailure h3 ctx) 0 (ps.map (datagramOf a))).or tail) ∧
    ∀ packet,
      decodeConnectUDPDatagram a.varint (datagramOf a packet) =
        some (packet.take connectUDPMaxUDPPayload) := by
  refine ⟨fun udp ds tail => relayed_pumpH3ToUDP ds tail {}, fun udp st d rs h => ?_,
    fun h3 ctx ps tail => ?_, fun packet => decode_encode a.varint _⟩
  · exact ⟨_, pumpH3ToUDP_skip h⟩
  · exact pumpUDPToH3_spec ps tail {} rfl

/-- A socket whose second `Write` fails. -/
def secondFails (k : ℕ) (payload : List UInt8) : ℕ × Option IOErr :=
  if k = 1 then (0, some (.other 7)) else (payload.length, none)

/-- The second datagram has another encoding of the context identifier, and is skipped; the last one
comes after the failure, and is not written. -/
theorem datagram_relay_secondFails :
    upTo (writeFailure secondFails) 0 [[65], [67], [68]] = [[65], [67]] ∧
    ∀ a, relayable a [64, 0, 66] = none ∧
      Relayed a secondFails [[0, 65], [64, 0, 66], [0, 67], [0, 68]] none {}
        (pumpH3ToUDP a secondFails {} [.ok [0, 65], .ok [64, 0, 66], .ok [0, 67], .ok [0, 68]]) ∧
      ∃ log, pumpH3ToUDP a secondFails {} [.ok [64, 0, 66]] =
        ({ counters := Function.update (fun _ => 0) .malformedContext 1, log := log }, none) := by
  refine ⟨by decide, fun a => ?_⟩
  have hskip : relayable a [64, 0, 66] = none := by
    refine Option.eq_none_iff_forall_ne_some.mpr fun payload hpayload => ?_
    have hdecode := decode_eq_some_iff.mp (Option.filter_eq_some_iff.mp hpayload).1
    rw [encodeConnectUDPDatagram_eq] at hdecode
    exact absurd (List.head_eq_of_cons_eq hdecode) (by decide)
  refine ⟨hskip, (datagram_relay a).1 _ [[0, 65], [64, 0, 66], [0, 67], [0, 68]] none, ?_⟩
  obtain ⟨log, hlog⟩ := (datagram_relay a).2.1 secondFails {} [64, 0, 66] [] hskip
  exact ⟨log, hlog⟩

end Pump
end ConnectUdp
end ForwardProxy
