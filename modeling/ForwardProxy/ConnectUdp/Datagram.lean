import ForwardProxy.Core.GoString
import ForwardProxy.Core.QuicVarint

/-!
# The datagrams of an association (`native_udp_protocol.go`)

An HTTP datagram of CONNECT-UDP is a context identifier, which is 0, and the UDP payload.  The
server reads the identifier as a variable-length integer, with the package `quicvarint`, and insists
on the shortest encoding; the client of the interoperability tests (`cmd/m4-rfc9298-client`) has a
codec of its own, which looks at one byte.

## Main results

* `datagram_codec`: the server decodes exactly what it encodes, and the client's codec is the same.
-/

namespace ForwardProxy
namespace ConnectUdp

open ForwardProxy.Core

variable (varint : QuicVarint.Codec)

/-- `connectUDPContextID`. -/
def connectUDPContextID : ℕ := 0

/-- `connectUDPMaxUDPPayload`. -/
def connectUDPMaxUDPPayload : ℕ := 65535

/-- `decodeConnectUDPDatagram`; the one error is `errConnectUDPMalformed`. -/
def decodeConnectUDPDatagram (datagram : List UInt8) : Option (List UInt8) :=
  match varint.parse datagram with
  | .error _ => none
  | .ok (contextID, consumed) =>
    if consumed ≠ varint.len contextID ∨ contextID ≠ connectUDPContextID then none
    else some (datagram.drop consumed)

/-- `encodeConnectUDPDatagram`. -/
def encodeConnectUDPDatagram (payload : List UInt8) : List UInt8 :=
  varint.append connectUDPContextID ++ payload

/-- What was encoded is decoded. -/
theorem decode_encode (payload : List UInt8) :
    decodeConnectUDPDatagram varint (encodeConnectUDPDatagram varint payload) = some payload := by
  have hparse := varint.parse_append (v := connectUDPContextID) (by decide) payload
  have hpayload := List.append_cancel_left (varint.eq_append_of_parse hparse)
  rw [decodeConnectUDPDatagram, encodeConnectUDPDatagram, hparse]
  dsimp only
  rw [if_neg (by simp), ← hpayload]

variable {varint}

/-- **Decoding undoes encoding, and nothing else is decoded.** -/
theorem decode_eq_some_iff {datagram payload : List UInt8} :
    decodeConnectUDPDatagram varint datagram = some payload ↔
      datagram = encodeConnectUDPDatagram varint payload := by
  constructor
  · intro h
    unfold decodeConnectUDPDatagram at h
    cases hparse : varint.parse datagram with
    | error err =>
      rw [hparse] at h
      exact absurd h (by simp)
    | ok r =>
      obtain ⟨contextID, consumed⟩ := r
      rw [hparse] at h
      dsimp only at h
      split_ifs at h with hbad
      obtain ⟨hlen, hzero⟩ := not_or.mp hbad
      rw [ne_eq, not_not] at hlen hzero
      rw [hlen] at hparse h
      have hshape := varint.eq_append_of_parse hparse
      rwa [Option.some_inj.mp h, hzero] at hshape
  · rintro rfl
    exact decode_encode varint payload

/-! ## The client of the interoperability tests -/

namespace InteropClient

/-- `encode` of the client. -/
def encode (payload : List UInt8) : List UInt8 := [0] ++ payload

/-- `decode` of the client, with the text of its error. -/
def decode (datagram : List UInt8) : Except GoString (List UInt8) :=
  if datagram.length = 0 ∨ datagram.head? ≠ some 0 then
    .error (ascii "non-canonical or unsupported Context ID")
  else .ok (datagram.drop 1)

theorem decode_eq_ok_iff {datagram payload : List UInt8} :
    decode datagram = .ok payload ↔ datagram = encode payload := by
  cases datagram with
  | nil => simp [decode, encode]
  | cons c datagram =>
    by_cases hc : c = 0
    · simp [decode, encode, hc]
    · simp [decode, encode, hc]

end InteropClient

/-- The server's encoding is the client's: the identifier is one zero byte. -/
theorem encodeConnectUDPDatagram_eq (payload : List UInt8) :
    encodeConnectUDPDatagram varint payload = InteropClient.encode payload := by
  rw [encodeConnectUDPDatagram, connectUDPContextID, varint.append_zero, InteropClient.encode]

/-- **The codec of datagrams.**  A datagram is decoded to a payload exactly when it is the encoding
of that payload.  So a truncated identifier, an identifier other than 0 and an encoding of 0 that is
not the shortest are all rejected; and the client accepts the same datagrams, with the same
payloads, and encodes the same way. -/
theorem datagram_codec (varint : QuicVarint.Codec) (datagram payload : List UInt8) :
    (decodeConnectUDPDatagram varint datagram = some payload ↔
      datagram = encodeConnectUDPDatagram varint payload) ∧
    (∀ err, varint.parse datagram = .error err → decodeConnectUDPDatagram varint datagram = none) ∧
    (∀ contextID consumed, varint.parse datagram = .ok (contextID, consumed) →
      contextID ≠ connectUDPContextID ∨ consumed ≠ varint.len contextID →
      decodeConnectUDPDatagram varint datagram = none) ∧
    InteropClient.encode payload = encodeConnectUDPDatagram varint payload ∧
    (InteropClient.decode datagram).toOption = decodeConnectUDPDatagram varint datagram := by
  refine ⟨decode_eq_some_iff, ?_, ?_, (encodeConnectUDPDatagram_eq payload).symm, ?_⟩
  · intro err hparse
    rw [decodeConnectUDPDatagram, hparse]
  · intro contextID consumed hparse hbad
    rw [decodeConnectUDPDatagram, hparse]
    exact if_pos hbad.symm
  · refine Option.ext fun p => ?_
    rw [decode_eq_some_iff, encodeConnectUDPDatagram_eq, ← InteropClient.decode_eq_ok_iff]
    cases InteropClient.decode datagram with
    | error err => simp [Except.toOption]
    | ok p' => simp [Except.toOption]

/-- In the format of QUIC: two bytes for the identifier 0, and one byte of the two that its length
promises. -/
theorem datagram_codec_overlong :
    (QuicVarint.codec.parse [0x40, 0] = .ok (0, 2) ∧
      decodeConnectUDPDatagram QuicVarint.codec [0x40, 0] = none) ∧
    QuicVarint.codec.parse [0x40] = .error .unexpectedEOF ∧
      decodeConnectUDPDatagram QuicVarint.codec [0x40] = none :=
  ⟨⟨rfl, (datagram_codec QuicVarint.codec [0x40, 0] []).2.2.1 0 2 rfl (Or.inr (by decide))⟩, rfl,
    (datagram_codec QuicVarint.codec [0x40] []).2.1 .unexpectedEOF rfl⟩

end ConnectUdp
end ForwardProxy
