import Mathlib.Data.List.Infix
import ForwardProxy.Padding.Copy

/-!
# The frames of naive padding

A frame is the length of its payload in two bytes, the size of its padding in one, the
payload, and the padding.  A stream that begins with frames is `encodeFrames fs ++ raw`.

One turn of the copy loop and one frame correspond.

* `turn_add`: a turn that adds padding turns what it read into a frame; a read that delivered
  nothing produces none.
* `turn_remove`: a turn that removes padding takes one frame from the stream and passes on
  its payload.  It takes the padding along only if the payload is not empty: the padding of a
  frame without a payload stays in the stream.
-/

namespace ForwardProxy
namespace Padding

open ForwardProxy.Core

/-- A frame: its lengths fit their fields. -/
structure Frame where
  payload : List UInt8
  padding : List UInt8
  payload_le : payload.length ≤ 65535
  padding_le : padding.length ≤ 255

/-- The length of the payload, high byte first, and the size of the padding. -/
def Frame.header (f : Frame) : List UInt8 :=
  [UInt8.ofNat (f.payload.length / 256), UInt8.ofNat (f.payload.length % 256),
    UInt8.ofNat f.padding.length]

/-- The bytes of a frame. -/
def Frame.encode (f : Frame) : List UInt8 := f.header ++ (f.payload ++ f.padding)

/-- The bytes of several frames. -/
def encodeFrames (fs : List Frame) : List UInt8 := fs.flatMap Frame.encode

/-- The payloads of several frames. -/
def payloads (fs : List Frame) : List UInt8 := fs.flatMap Frame.payload

@[simp] theorem encodeFrames_nil : encodeFrames [] = [] := rfl

@[simp] theorem encodeFrames_cons (f : Frame) (fs : List Frame) :
    encodeFrames (f :: fs) = f.encode ++ encodeFrames fs := rfl

@[simp] theorem payloads_nil : payloads [] = [] := rfl

@[simp] theorem payloads_cons (f : Frame) (fs : List Frame) :
    payloads (f :: fs) = f.payload ++ payloads fs := rfl

theorem Frame.length_encode (f : Frame) :
    f.encode.length = f.payload.length + (3 + f.padding.length) := by
  simp only [encode, header, List.length_cons, List.length_append, List.length_nil]
  omega

/-- The length field of a frame tells the length of its payload. -/
theorem Frame.length_field (f : Frame) :
    (UInt8.ofNat (f.payload.length / 256)).toNat * 256 +
      (UInt8.ofNat (f.payload.length % 256)).toNat = f.payload.length := by
  have h := f.payload_le
  simp only [UInt8.toNat_ofNat']
  omega

/-- The size field of a frame tells the size of its padding. -/
theorem Frame.size_field (f : Frame) :
    (UInt8.ofNat f.padding.length).toNat = f.padding.length := by
  have h := f.padding_le
  simp only [UInt8.toNat_ofNat']
  omega

/-! ## Adding -/

/-- The frame a read becomes. -/
def frameOf (p : List UInt8) (size : Fin 256) (hp : p.length ≤ 65536 - 3 - size - 3) : Frame where
  payload := p
  padding := List.replicate size 0
  payload_le := by omega
  padding_le := by
    rw [List.length_replicate]
    omega

theorem encode_frameOf (p : List UInt8) (size : Fin 256) (hp : p.length ≤ 65536 - 3 - size - 3) :
    (frameOf p size hp).encode = UInt8.ofNat (p.length / 256) :: UInt8.ofNat (p.length % 256) ::
      UInt8.ofNat size :: (p ++ List.replicate size 0) := by
  simp [Frame.encode, Frame.header, frameOf]

/-- A buffer into which a payload, a header and the padding were written. -/
def framed (b : Buffer) (p : List UInt8) (k : ℕ) (h₀ h₁ h₂ : UInt8) : Buffer :=
  { len := b.len
    get := fun i => if 3 + p.length ≤ i ∧ i < 3 + p.length + k then 0 else
      Function.update (Function.update (Function.update (b.fill 3 p).get 0 h₀) 1 h₁) 2 h₂ i }

theorem take_framed (b : Buffer) (p : List UInt8) (k : ℕ) (h₀ h₁ h₂ : UInt8) :
    (framed b p k h₀ h₁ h₂).take (h₀ :: h₁ :: h₂ :: (p ++ List.replicate k 0)).length =
      h₀ :: h₁ :: h₂ :: (p ++ List.replicate k 0) := by
  refine Buffer.take_eq_of_get ?_
  intro i hi
  simp only [framed]
  match i with
  | 0 => rw [if_neg (by omega)]; rfl
  | 1 => rw [if_neg (by omega)]; rfl
  | 2 => rw [if_neg (by omega)]; rfl
  | j + 3 =>
    have hj : j < (p ++ List.replicate k 0).length := by simpa using hi
    show _ = (p ++ List.replicate k 0)[j]
    by_cases hjp : j < p.length
    · rw [List.getElem_append_left hjp, if_neg (by omega), Function.update_of_ne (by omega),
        Function.update_of_ne (by omega), Function.update_of_ne (by omega)]
      simp [Buffer.fill, hjp]
    · rw [List.getElem_append_right (by omega), List.getElem_replicate]
      rw [List.length_append, List.length_replicate] at hj
      exact if_pos (by omega)

/-- A read that delivers something leaves a frame in the buffer. -/
theorem readAddPadding_eq {st : CopyState} (hlen : st.buf.len = bufferSize) (size : Fin 256)
    {p : List UInt8} {er : Option IOErr} {src : Source}
    (hread : st.src.read (65536 - 3 - size - 3) = ((p, er), src)) (hne : p ≠ [])
    (hp : p.length ≤ 65536 - 3 - size - 3) :
    readAddPadding size st = .ok (p.length + (3 + size), er,
      { st with
        buf := framed st.buf p size (UInt8.ofNat (p.length / 256)) (UInt8.ofNat (p.length % 256))
          (UInt8.ofNat size)
        src := src }) := by
  have hsize := size.isLt
  have hbuf : st.buf.len = 65536 := hlen
  have hpos : 0 < p.length := List.length_pos_iff.mpr hne
  simp only [readAddPadding, hread, if_pos hpos]
  refine bind_eq_ok.mpr ⟨_, Buffer.slice_eq_ok (by omega) (by omega), ?_⟩
  refine bind_eq_ok.mpr ⟨_, Buffer.set_eq_ok (by show 0 < st.buf.len; omega) _, ?_⟩
  refine bind_eq_ok.mpr ⟨_, Buffer.set_eq_ok (by show 1 < st.buf.len; omega) _, ?_⟩
  refine bind_eq_ok.mpr ⟨_, Buffer.set_eq_ok (by show 2 < st.buf.len; omega) _, ?_⟩
  refine bind_eq_ok.mpr ⟨_, Buffer.zero_eq_ok (by show 3 + p.length + size ≤ st.buf.len; omega), ?_⟩
  rfl

/-- A read that delivers something becomes a frame. -/
theorem reads_add {c : Copier} (hadd : c.paddingType = .addPadding) {st : CopyState}
    (hlen : st.buf.len = bufferSize) (hnum : st.numPadding < numFirstPaddings) {p : List UInt8}
    {er : Option IOErr} {src : Source}
    (hread : st.src.read (65536 - 3 - c.rand st.numPadding - 3) = ((p, er), src)) (hne : p ≠ [])
    (hp : p.length ≤ 65536 - 3 - c.rand st.numPadding - 3) :
    ∃ buf, Reads c st (frameOf p (c.rand st.numPadding) hp).encode er
      { st with numPadding := st.numPadding + 1, buf := buf, src := src } := by
  have hsize := (c.rand st.numPadding).isLt
  have hbuf : st.buf.len = 65536 := hlen
  have henc := encode_frameOf p (c.rand st.numPadding) hp
  have hlength : (frameOf p (c.rand st.numPadding) hp).encode.length =
      p.length + (3 + c.rand st.numPadding) := by
    rw [Frame.length_encode]
    simp [frameOf]
  have hturn := readAddPadding_eq (show ({ st with numPadding := st.numPadding + 1 } :
    CopyState).buf.len = bufferSize from hlen) _ hread hne hp
  refine ⟨framed st.buf p (c.rand st.numPadding) (UInt8.ofNat (p.length / 256))
    (UInt8.ofNat (p.length % 256)) (UInt8.ofNat (c.rand st.numPadding)), ?_, ?_, ?_, rfl,
      rfl, rfl, rfl⟩
  · rw [hlength]
    exact (if_pos ⟨hadd, hnum⟩).trans hturn
  · show _ ≤ st.buf.len
    omega
  · rw [henc]
    exact take_framed ..

/-- A read that delivers nothing becomes no frame. -/
theorem reads_add_nil {c : Copier} (hadd : c.paddingType = .addPadding) {st : CopyState}
    (hlen : st.buf.len = bufferSize) (hnum : st.numPadding < numFirstPaddings) {er : Option IOErr}
    {src : Source} (hread : st.src.read (65536 - 3 - c.rand st.numPadding - 3) = (([], er), src)) :
    Reads c st [] er
      { st with numPadding := st.numPadding + 1, buf := st.buf.fill 3 [], src := src } := by
  have hsize := (c.rand st.numPadding).isLt
  have hbuf : st.buf.len = 65536 := hlen
  refine ⟨?_, Nat.zero_le _, rfl, rfl, rfl, rfl, rfl⟩
  rw [readTurn, if_pos ⟨hadd, hnum⟩]
  simp only [readAddPadding, hread]
  exact bind_eq_ok.mpr ⟨_, Buffer.slice_eq_ok (by omega) (by omega), rfl⟩

/-- **A turn that adds padding** writes what it read as a frame. -/
theorem turn_add {c : Copier} (hdst : c.dst.Reliable) (hadd : c.paddingType = .addPadding)
    {st : CopyState} (hlen : st.buf.len = bufferSize) (hnum : st.numPadding < numFirstPaddings)
    {p : List UInt8} {er : Option IOErr} {src : Source}
    (hread : st.src.read (65536 - 3 - c.rand st.numPadding - 3) = ((p, er), src)) (hne : p ≠ [])
    (hp : p.length ≤ 65536 - 3 - c.rand st.numPadding - 3) :
    TurnSpec c st (frameOf p (c.rand st.numPadding) hp).encode er src (st.numPadding + 1) := by
  obtain ⟨buf, hreads⟩ := reads_add hadd hlen hnum hread hne hp
  exact turnSpec_of_reads hdst hreads

/-- A turn whose read delivers nothing writes nothing. -/
theorem turn_add_nil {c : Copier} (hdst : c.dst.Reliable) (hadd : c.paddingType = .addPadding)
    {st : CopyState} (hlen : st.buf.len = bufferSize) (hnum : st.numPadding < numFirstPaddings)
    {er : Option IOErr} {src : Source}
    (hread : st.src.read (65536 - 3 - c.rand st.numPadding - 3) = (([], er), src)) :
    TurnSpec c st [] er src (st.numPadding + 1) :=
  turnSpec_of_reads hdst (reads_add_nil hadd hlen hnum hread)

/-! ## Removing -/

/-- What a turn leaves in the stream of the padding of a frame: all of it if the payload is
empty, and nothing otherwise. -/
def Frame.leftover (f : Frame) : List UInt8 := if f.payload = [] then f.padding else []

/-- What is read of the rest of a frame, by the two fields of its header. -/
def restOfFrame (s : Source) (nr paddingSize : ℕ) : (List UInt8 × Option IOErr) × Source :=
  let r := s.readFull nr
  if 0 < r.1.1.length then
    ((r.1.1, (r.2.readFull paddingSize).1.2), (r.2.readFull paddingSize).2)
  else r

/-- The rest of a frame depends on the buffer through the header only. -/
theorem readPayload_eq_restOfFrame (st : CopyState) (hlen : st.buf.len = bufferSize)
    {nr paddingSize : ℕ} (hnr : (st.buf.get 0).toNat * 256 + (st.buf.get 1).toNat = nr)
    (hpad : (st.buf.get 2).toNat = paddingSize) :
    readPayload st = .ok ((restOfFrame st.src nr paddingSize).1.1.length,
      (restOfFrame st.src nr paddingSize).1.2,
      { st with
        buf := st.buf.fill 0 (restOfFrame st.src nr paddingSize).1.1
        src := (restOfFrame st.src nr paddingSize).2 }) := by
  have hbuf : st.buf.len = 65536 := hlen
  have h₀ := (st.buf.get 0).toNat_lt
  have h₁ := (st.buf.get 1).toNat_lt
  have hslice : st.buf.slice 0 nr = .ok () := Buffer.slice_eq_ok (Nat.zero_le _) (by omega)
  simp only [readPayload, hnr, hpad, restOfFrame]
  split_ifs
  · exact bind_eq_ok.mpr ⟨_, hslice, rfl⟩
  · exact bind_eq_ok.mpr ⟨_, hslice, rfl⟩

/-- What is read of the rest of a frame is what is there of its payload, and what is there of the
padding is dropped if there was a payload. -/
theorem restOfFrame_bytes (s : Source) (nr paddingSize : ℕ) :
    (restOfFrame s nr paddingSize).1.1 = s.bytes.take nr ∧
      (restOfFrame s nr paddingSize).2.bytes = if s.bytes.take nr = [] then s.bytes.drop nr
        else (s.bytes.drop nr).drop paddingSize := by
  obtain ⟨htake, hdrop, -⟩ := s.readFull_bytes nr
  obtain ⟨-, hjunk, -⟩ := (s.readFull nr).2.readFull_bytes paddingSize
  rw [restOfFrame, htake]
  by_cases hne : s.bytes.take nr = []
  · rw [if_neg (by simp [hne]), if_pos hne]
    exact ⟨htake, hdrop⟩
  · rw [if_pos (List.length_pos_iff.mpr hne), if_neg hne]
    exact ⟨rfl, by rw [hjunk, hdrop]⟩

/-- Without a payload there is no rest to be read, whatever the size of the padding. -/
theorem restOfFrame_zero (s : Source) (paddingSize : ℕ) :
    ∃ s', restOfFrame s 0 paddingSize = (([], none), s') ∧ s'.bytes = s.bytes ∧
      s'.final = s.final := by
  obtain ⟨s', heq, hbytes, hfinal, -⟩ := Source.readFull_of_le (Nat.zero_le s.bytes.length)
  refine ⟨s', ?_, hbytes, hfinal⟩
  rw [restOfFrame, heq]
  rfl

/-- A frame that is all there. -/
theorem restOfFrame_of_le {s : Source} {nr paddingSize : ℕ} (hpos : 0 < nr)
    (hle : nr + paddingSize ≤ s.bytes.length) : ∃ s', restOfFrame s nr paddingSize =
      ((s.bytes.take nr, none), s') ∧ s'.bytes = s.bytes.drop (nr + paddingSize) ∧
      s'.final = s.final := by
  have hload : nr ≤ s.bytes.length := by omega
  obtain ⟨s₁, heq, hbytes, hfinal, -⟩ := Source.readFull_of_le hload
  obtain ⟨s₂, heq₂, hbytes₂, hfinal₂, -⟩ := Source.readFull_of_le (s := s₁) (n := paddingSize)
    (by rw [hbytes, List.length_drop]; omega)
  refine ⟨s₂, ?_, ?_, hfinal₂.trans hfinal⟩
  · rw [restOfFrame, heq]
    dsimp only
    rw [if_pos (by rw [List.length_take_of_le hload]; exact hpos), heq₂]
  · rw [hbytes₂, hbytes, List.drop_drop]

/-- The rest of a frame, when the stream begins with it. -/
theorem restOfFrame_frame {s : Source} {f : Frame} {rest : List UInt8}
    (hbytes : s.bytes = f.payload ++ (f.padding ++ rest)) :
    ∃ s', restOfFrame s f.payload.length f.padding.length = ((f.payload, none), s') ∧
      s'.bytes = f.leftover ++ rest ∧ s'.final = s.final := by
  by_cases hne : f.payload = []
  · obtain ⟨s', heq, hsame, hfinal⟩ := restOfFrame_zero s f.padding.length
    refine ⟨s', ?_, ?_, hfinal⟩
    · rw [hne]
      exact heq
    · rw [hsame, hbytes, Frame.leftover, if_pos hne, hne, List.nil_append]
  · have hle : f.payload.length + f.padding.length ≤ s.bytes.length := by
      rw [hbytes, List.length_append, List.length_append]
      omega
    obtain ⟨s', heq, hrest, hfinal⟩ := restOfFrame_of_le (List.length_pos_iff.mpr hne) hle
    rw [hbytes, List.take_left] at heq
    rw [hbytes, ← List.drop_drop, List.drop_left, List.drop_left] at hrest
    exact ⟨s', heq, by rw [hrest, Frame.leftover, if_neg hne, List.nil_append], hfinal⟩

/-- Three bytes in front and the rest. -/
theorem exists_take_three {p : List UInt8} (hthree : 3 ≤ p.length) :
    ∃ h₀ h₁ h₂, p.take 3 = [h₀, h₁, h₂] ∧ p = h₀ :: h₁ :: h₂ :: p.drop 3 := by
  obtain ⟨h₀, h₁, h₂, htake⟩ := List.length_eq_three.mp (List.length_take_of_le hthree)
  refine ⟨h₀, h₁, h₂, htake, ?_⟩
  have hsplit := List.take_append_drop 3 p
  rw [htake] at hsplit
  exact hsplit.symm

/-- Three bytes are a header. -/
theorem exists_header {s : Source} (hthree : 3 ≤ s.bytes.length) :
    ∃ h₀ h₁ h₂ s', s.readFull 3 = (([h₀, h₁, h₂], none), s') ∧
      s.bytes = h₀ :: h₁ :: h₂ :: s'.bytes ∧ s'.final = s.final := by
  obtain ⟨s', hread, hbytes, hfinal, -⟩ := Source.readFull_of_le hthree
  obtain ⟨h₀, h₁, h₂, hheader, hsplit⟩ := exists_take_three hthree
  rw [hheader] at hread
  rw [← hbytes] at hsplit
  exact ⟨h₀, h₁, h₂, s', hread, hsplit, hfinal⟩

/-- **A read that removes padding**, when there is a header: its three bytes say all that is needed,
whatever the buffer held before. -/
theorem reads_remove_of_header {c : Copier} (hrem : c.paddingType = .removePadding) {st : CopyState}
    (hlen : st.buf.len = bufferSize) (hnum : st.numPadding < numFirstPaddings) {h₀ h₁ h₂ : UInt8}
    {src : Source} (hread : st.src.readFull 3 = (([h₀, h₁, h₂], none), src)) {nr paddingSize : ℕ}
    (hnr : h₀.toNat * 256 + h₁.toNat = nr) (hpad : h₂.toNat = paddingSize) :
    Reads c st (restOfFrame src nr paddingSize).1.1 (restOfFrame src nr paddingSize).1.2 { st with
      numPadding := st.numPadding + 1
      buf := (st.buf.fill 0 [h₀, h₁, h₂]).fill 0 (restOfFrame src nr paddingSize).1.1
      src := (restOfFrame src nr paddingSize).2 } := by
  have hbuf : st.buf.len = 65536 := hlen
  have hpayload := readPayload_eq_restOfFrame { st with
    numPadding := st.numPadding + 1, buf := st.buf.fill 0 [h₀, h₁, h₂], src := src } hlen hnr hpad
  refine ⟨?_, ?_, Buffer.take_fill_zero .., rfl, rfl, rfl, rfl⟩
  · rw [readTurn, if_neg (by simp [hrem]), if_pos ⟨hrem, hnum⟩]
    simp only [readRemovePadding, hread]
    exact bind_eq_ok.mpr ⟨_, Buffer.slice_eq_ok (Nat.zero_le _) (by omega), hpayload⟩
  · have h₀_lt := h₀.toNat_lt
    have h₁_lt := h₁.toNat_lt
    show _ ≤ st.buf.len
    rw [(restOfFrame_bytes src nr paddingSize).1, List.length_take]
    omega

/-- **A turn that removes padding** takes one frame, but for the padding of a frame without a
payload, and passes on the payload. -/
theorem turn_remove {c : Copier} (hdst : c.dst.Reliable) (hrem : c.paddingType = .removePadding)
    {st : CopyState} (hlen : st.buf.len = bufferSize) (hnum : st.numPadding < numFirstPaddings)
    {f : Frame} {rest : List UInt8} (hbytes : st.src.bytes = f.encode ++ rest) :
    ∃ src, TurnSpec c st f.payload none src (st.numPadding + 1) ∧
      src.bytes = f.leftover ++ rest ∧ src.final = st.src.final := by
  have hthree : 3 ≤ st.src.bytes.length := by
    rw [hbytes, List.length_append, Frame.length_encode]
    omega
  obtain ⟨s₁, hread₁, hbytes₁, hfinal₁, -⟩ := Source.readFull_of_le hthree
  have htake : st.src.bytes.take 3 = f.header := by
    rw [hbytes]
    rfl
  have hdrop : s₁.bytes = f.payload ++ (f.padding ++ rest) := by
    rw [hbytes₁, hbytes, ← List.append_assoc]
    rfl
  rw [htake] at hread₁
  obtain ⟨src, hrest, hsrc, hfinal⟩ := restOfFrame_frame hdrop
  have hreads := reads_remove_of_header hrem hlen hnum hread₁ f.length_field f.size_field
  rw [hrest] at hreads
  exact ⟨src, turnSpec_of_reads hdst hreads, hsrc, hfinal.trans hfinal₁⟩

/-- At the end of the stream, nothing is read of a frame. -/
theorem reads_remove_end {c : Copier} (hrem : c.paddingType = .removePadding) {st : CopyState}
    (hlen : st.buf.len = bufferSize) (hnum : st.numPadding < numFirstPaddings)
    (hbytes : st.src.bytes = []) :
    Reads c st [] (some st.src.final) { st with
      numPadding := st.numPadding + 1
      buf := st.buf.fill 0 []
      src := (st.src.readFull 3).2 } := by
  have hbuf : st.buf.len = 65536 := hlen
  obtain ⟨s₁, hread₁, -, -, -⟩ := Source.readFull_of_lt (s := st.src) (n := 3) (by simp [hbytes])
  rw [hbytes, if_neg (by simp)] at hread₁
  refine ⟨?_, Nat.zero_le _, rfl, rfl, rfl, rfl, rfl⟩
  rw [readTurn, if_neg (by simp [hrem]), if_pos ⟨hrem, hnum⟩]
  simp only [readRemovePadding, hread₁]
  exact bind_eq_ok.mpr ⟨_, Buffer.slice_eq_ok (Nat.zero_le _) (by show 3 ≤ st.buf.len; omega), rfl⟩

/-- At the end of the stream, a turn that removes padding leaves the loop. -/
theorem turn_remove_end {c : Copier} (hdst : c.dst.Reliable)
    (hrem : c.paddingType = .removePadding) {st : CopyState} (hlen : st.buf.len = bufferSize)
    (hnum : st.numPadding < numFirstPaddings) (hbytes : st.src.bytes = []) :
    ∃ src, TurnSpec c st [] (some st.src.final) src (st.numPadding + 1) :=
  ⟨_, turnSpec_of_reads hdst (reads_remove_end hrem hlen hnum hbytes)⟩

/-! ## Streams that are cut off -/

/-- The rest of a frame, when the stream has ended: whatever its fields say, there is none. -/
theorem restOfFrame_of_bytes_nil {s : Source} (hbytes : s.bytes = []) (nr paddingSize : ℕ) :
    (restOfFrame s nr paddingSize).1.1 = [] ∧
      ((restOfFrame s nr paddingSize).1.2 = none ∨
        (restOfFrame s nr paddingSize).1.2 = some s.final) ∧
      (restOfFrame s nr paddingSize).2.bytes = [] ∧
      (restOfFrame s nr paddingSize).2.final = s.final := by
  obtain ⟨htake, hdrop, hfinal⟩ := s.readFull_bytes nr
  rw [hbytes, List.take_nil] at htake
  rw [hbytes, List.drop_nil] at hdrop
  rw [restOfFrame, if_neg (by rw [htake]; exact Nat.lt_irrefl 0)]
  refine ⟨htake, ?_, hdrop, hfinal⟩
  by_cases hnr : nr = 0
  · obtain ⟨s', heq, -⟩ :=
      Source.readFull_of_le (s := s) (n := nr) (by rw [hnr]; exact Nat.zero_le _)
    exact Or.inl (by rw [heq])
  · obtain ⟨s', heq, -⟩ :=
      Source.readFull_of_lt (s := s) (n := nr) (by rw [hbytes]; exact Nat.pos_of_ne_zero hnr)
    rw [hbytes, if_neg (by simp)] at heq
    exact Or.inr (by rw [heq])

/-- A read that removes padding, when not even a header is left. -/
theorem reads_remove_of_short {c : Copier} (hrem : c.paddingType = .removePadding) {st : CopyState}
    (hlen : st.buf.len = bufferSize) (hnum : st.numPadding < numFirstPaddings)
    (hshort : st.src.bytes.length < 3) :
    ∃ er st', Reads c st [] er st' ∧ st'.src.bytes = [] ∧ st'.numPadding = st.numPadding + 1 ∧
      (er = none ∨ er = some st.src.final) ∧ st'.src.final = st.src.final := by
  have hbuf : st.buf.len = 65536 := hlen
  obtain ⟨htake, hdrop, hfinal⟩ := st.src.readFull_bytes 3
  rw [List.drop_of_length_le (by omega)] at hdrop
  by_cases hbytes : st.src.bytes = []
  · exact ⟨_, _, reads_remove_end hrem hlen hnum hbytes, hdrop, rfl, Or.inr rfl, hfinal⟩
  -- the header is read from what the buffer held before, but there is no payload to read
  rcases hread : st.src.readFull 3 with ⟨⟨data, e⟩, src⟩
  rw [hread] at htake hdrop hfinal
  have hpos : 0 < data.length := by
    rw [show data = st.src.bytes.take 3 from htake, List.take_of_length_le (by omega)]
    exact List.length_pos_iff.mpr hbytes
  generalize hstale : st.buf.fill 0 data = stale
  have hpayload := readPayload_eq_restOfFrame { st with
    numPadding := st.numPadding + 1, buf := stale, src := src }
    (show stale.len = bufferSize by rw [← hstale]; exact hlen) rfl rfl
  generalize (stale.get 0).toNat * 256 + (stale.get 1).toNat = nr at hpayload
  generalize (stale.get 2).toNat = paddingSize at hpayload
  obtain ⟨hnil, her, hrest, hfinal'⟩ := restOfFrame_of_bytes_nil (s := src) hdrop nr paddingSize
  rw [hnil] at hpayload
  refine ⟨(restOfFrame src nr paddingSize).1.2, { st with
    numPadding := st.numPadding + 1
    buf := stale.fill 0 []
    src := (restOfFrame src nr paddingSize).2 }, ⟨?_, Nat.zero_le _, rfl, ?_, rfl, rfl, rfl⟩, hrest,
      rfl,
    by rwa [← hfinal], hfinal'.trans hfinal⟩
  · rw [readTurn, if_neg (by simp [hrem]), if_pos ⟨hrem, hnum⟩]
    simp only [readRemovePadding, hread, if_pos hpos, hstale]
    exact bind_eq_ok.mpr ⟨_, Buffer.slice_eq_ok (Nat.zero_le _) (by omega), hpayload⟩
  · rw [← hstale]
    rfl

end Padding
end ForwardProxy
