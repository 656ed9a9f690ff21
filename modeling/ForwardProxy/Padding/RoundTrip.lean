import ForwardProxy.Padding.Frames

/-!
# Naive padding, end to end

A stream with naive padding (`FramedStream`) is at most `NumFirstPaddings` frames, and raw
bytes after them only if there are exactly that many.  The direction that adds padding
produces such a stream from whatever it reads (`ends_add`); the direction that removes it
takes the stream apart again, one frame a turn (`turns_remove`, `ends_remove`).  Neither
depends on how the bytes are split into reads.

The two directions do not accept the same streams.  `flushingIoCopy` never produces a frame
without a payload, and it does not skip the padding of one: what follows is then read from
the wrong position.

## Main results

* `padding_roundTrip`: what is written with padding and read back is what was written.
* `decodes_iff`: a stream is decoded frame by frame exactly when no frame has padding but no
  payload.
-/

namespace ForwardProxy
namespace Padding

open ForwardProxy.Core

/-- A stream with naive padding: the raw part begins after `NumFirstPaddings` frames. -/
structure FramedStream where
  frames : List Frame
  raw : List UInt8
  length_le : frames.length ≤ numFirstPaddings
  raw_eq_nil : frames.length < numFirstPaddings → raw = []

namespace FramedStream

/-- The bytes on the wire. -/
def wire (w : FramedStream) : List UInt8 := encodeFrames w.frames ++ w.raw

/-- The bytes the stream carries. -/
def content (w : FramedStream) : List UInt8 := payloads w.frames ++ w.raw

end FramedStream

/-- The error a copy ends with when the reader ends with this one. -/
def endErr (e : IOErr) : Option IOErr := if e = .eof then none else some e

/-! ## Adding padding -/

/-- Adding padding turns what is read into frames, one for each read, until the counter says
that it is enough, and passes on the rest. -/
theorem ends_add {c : Copier} (hdst : c.dst.Reliable) (hadd : c.paddingType = .addPadding)
    {st : CopyState} (hlen : st.buf.len = bufferSize) (heager : st.src.Eager)
    {k : ℕ} (hk : st.numPadding + k = numFirstPaddings) :
    ∃ fs raw, fs.length ≤ k ∧ (fs.length < k → raw = []) ∧ payloads fs ++ raw = st.src.bytes ∧
      (∀ f ∈ fs, f.payload ≠ []) ∧
      Loop.Ends (copyTurn c) st (.ok
        { sink := st.sink ++ (encodeFrames fs ++ raw)
          written := st.written + (encodeFrames fs ++ raw).length
          err := endErr st.src.final }) := by
  induction k generalizing st with
  | zero =>
    refine ⟨[], st.src.bytes, le_rfl, fun h => absurd h (lt_irrefl _), rfl, by simp, ?_⟩
    exact ends_raw hdst (by rw [hlen]; decide) (Or.inr (by omega))
  | succ k ih =>
    have hnum : st.numPadding < numFirstPaddings := by omega
    have hsize := (c.rand st.numPadding).isLt
    have hspec := st.src.readSpec (65536 - 3 - c.rand st.numPadding - 3)
    obtain ⟨heager', hnil⟩ :=
      heager.read (n := 65536 - 3 - (c.rand st.numPadding).val - 3) (by omega)
    rcases hread : st.src.read (65536 - 3 - c.rand st.numPadding - 3) with ⟨⟨p, er⟩, src⟩
    rw [hread] at hspec heager' hnil
    by_cases hp : p = []
    · -- the end of the stream, on a frame boundary
      subst hp
      obtain ⟨hbytes, herr⟩ := hnil rfl
      obtain rfl : er = some st.src.final := herr
      refine ⟨[], [], Nat.zero_le _, fun _ => rfl, hbytes.symm, by simp, ?_⟩
      exact .of_done (turn_add_nil hdst hadd hlen hnum hread)
    · obtain ⟨f, rfl, hturn⟩ : ∃ f : Frame, f.payload = p ∧
          TurnSpec c st f.encode er src (st.numPadding + 1) :=
        ⟨_, rfl, turn_add hdst hadd hlen hnum hread hp hspec.length_le⟩
      rcases hspec.err with herr | ⟨herr, hchunks⟩
      · obtain rfl : er = none := herr
        obtain ⟨st', hnext, hsrc, hsink, hwritten, hnum', hlen'⟩ := hturn
        obtain ⟨fs, raw, hle, hraw, hbytes, hne, hend⟩ := ih (hlen'.trans hlen) (hsrc ▸ heager')
          (by omega)
        refine ⟨f :: fs, raw, Nat.succ_le_succ hle, fun h => hraw (Nat.lt_of_succ_lt_succ h), ?_,
          ?_, .of_next hnext ?_⟩
        · rw [hspec.bytes, payloads_cons, List.append_assoc, hbytes, hsrc]
        · exact List.forall_mem_cons.mpr ⟨hp, hne⟩
        · rw [hsink, hwritten, hsrc, hspec.final, List.append_assoc, Nat.add_assoc,
            ← List.length_append] at hend
          rw [encodeFrames_cons, List.append_assoc]
          exact hend
      · -- the end of the stream, together with the last read
        obtain rfl : er = some st.src.final := herr
        refine ⟨[f], [], by simp, fun _ => rfl, ?_, by simpa using hp, .of_done ?_⟩
        · have hnone : src.bytes = [] := by
            rw [Source.bytes, show src.chunks = [] from hchunks]; rfl
          rw [hspec.bytes, hnone]
          simp
        · rw [encodeFrames_cons, encodeFrames_nil, List.append_nil, List.append_nil]
          exact hturn

/-! ## Removing padding -/

/-- A frame that a turn takes from the stream as a whole. -/
def Frame.Clean (f : Frame) : Prop := f.payload = [] → f.padding = []

theorem Frame.leftover_eq_nil_iff (f : Frame) : f.leftover = [] ↔ f.Clean := by
  unfold Frame.leftover Frame.Clean
  split_ifs with h
  · exact ⟨fun hp _ => hp, fun hc => hc h⟩
  · exact ⟨fun _ hp => absurd hp h, fun _ => rfl⟩

section Remove

variable {c : Copier} (hdst : c.dst.Reliable) (hrem : c.paddingType = .removePadding)

include hdst hrem

/-- One turn for each frame. -/
theorem turns_remove {fs : List Frame} (hclean : ∀ f ∈ fs, f.Clean) {st : CopyState}
    (hlen : st.buf.len = bufferSize) (hnum : st.numPadding + fs.length ≤ numFirstPaddings)
    {rest : List UInt8} (hbytes : st.src.bytes = encodeFrames fs ++ rest) :
    ∃ st', Loop.turns (copyTurn c) fs.length st = some st' ∧ st'.src.bytes = rest ∧
      st'.src.final = st.src.final ∧ st'.sink = st.sink ++ payloads fs ∧
      st'.written = st.written + (payloads fs).length ∧
      st'.numPadding = st.numPadding + fs.length ∧ st'.buf.len = bufferSize := by
  induction fs generalizing st with
  | nil => exact ⟨st, rfl, hbytes, rfl, by simp, by simp, rfl, hlen⟩
  | cons f fs ih =>
    rw [List.length_cons] at hnum
    rw [encodeFrames_cons, List.append_assoc] at hbytes
    obtain ⟨src, ⟨st₁, hnext, hsrc, hsink, hwritten, hnum₁, hlen₁⟩, hleft, hfinal⟩ :=
      turn_remove hdst hrem hlen (by omega) hbytes
    rw [f.leftover_eq_nil_iff.mpr (hclean f (List.mem_cons_self ..)), List.nil_append] at hleft
    obtain ⟨st', hturns, hbytes', hfinal', hsink', hwritten', hnum', hlen'⟩ :=
      ih (fun g hg => hclean g (List.mem_cons_of_mem _ hg)) (hlen₁.trans hlen) (by omega)
        (hsrc ▸ hleft)
    refine ⟨st', (Loop.turns_of_next hnext _).trans hturns, hbytes', ?_, ?_, ?_, ?_, hlen'⟩
    · rw [hfinal', hsrc, hfinal]
    · rw [hsink', hsink, payloads_cons, List.append_assoc]
    · rw [hwritten', hwritten, payloads_cons, List.length_append, Nat.add_assoc]
    · rw [hnum', hnum₁, List.length_cons]
      omega

/-- After the frames: raw bytes, or the end of the stream. -/
theorem ends_remove {st : CopyState} (hlen : st.buf.len = bufferSize)
    (hraw : st.numPadding < numFirstPaddings → st.src.bytes = []) :
    Loop.Ends (copyTurn c) st (.ok
      { sink := st.sink ++ st.src.bytes
        written := st.written + st.src.bytes.length
        err := endErr st.src.final }) := by
  by_cases hnum : st.numPadding < numFirstPaddings
  · obtain ⟨src, hturn⟩ := turn_remove_end hdst hrem hlen hnum (hraw hnum)
    rw [hraw hnum]
    exact .of_done hturn
  · exact ends_raw hdst (by rw [hlen]; decide) (Or.inr (by omega))

/-- **Removing padding** from a stream whose frames are all clean. -/
theorem flushingIoCopy_remove (w : FramedStream) (hclean : ∀ f ∈ w.frames, f.Clean)
    {src : Source} {buf : Buffer} (hlen : buf.len = bufferSize) (hbytes : src.bytes = w.wire) :
    flushingIoCopy c src buf = some (.ok
      { sink := w.content, written := w.content.length, err := endErr src.final }) := by
  obtain ⟨st, hturns, hraw, hfinal, hsink, hwritten, hnum, hlen'⟩ :=
    turns_remove hdst hrem hclean
      (show ({ buf := buf, src := src } : CopyState).buf.len = bufferSize from hlen)
      (by simpa using w.length_le) hbytes
  refine flushingIoCopy_eq (by rw [hlen]; decide) (.of_turns hturns ?_)
  have hend := ends_remove hdst hrem hlen' (fun h => ?_)
  · rw [hraw, hfinal, hsink, hwritten] at hend
    simpa [FramedStream.content] using hend
  · rw [hraw]
    exact w.raw_eq_nil (by simpa [hnum] using h)

end Remove

/-! ## The round trip -/

/-- **What is written with padding is read back.**  For every reader that delivers something
with each read, whatever the padding sizes, `flushingIoCopy` with `AddPadding` writes a stream
`w` with naive padding and returns no error; the payload lengths fit their fields, and the raw
part begins after exactly `NumFirstPaddings` frames, by the type of `w`.  However the bytes of
`w` are split into reads, `flushingIoCopy` with `RemovePadding` writes what was read in the
first place and returns no error; after one turn for each frame its counter stands at the
number of frames, and the raw part of `w` is what it has not read yet. -/
theorem padding_roundTrip (add : Copier) (src : Source) (buf : Buffer)
    (hadd : add.paddingType = .addPadding) (hadd_dst : add.dst.Reliable) (heager : src.Eager)
    (hfinal : src.final = .eof) (hbuf : buf.len = bufferSize) :
    ∃ w : FramedStream,
      flushingIoCopy add src buf =
        some (.ok { sink := w.wire, written := w.wire.length, err := none }) ∧
      w.content = src.bytes ∧ (∀ f ∈ w.frames, f.payload ≠ []) ∧
      ∀ (rem : Copier) (src' : Source) (buf' : Buffer), rem.paddingType = .removePadding →
        rem.dst.Reliable → src'.bytes = w.wire → src'.final = .eof → buf'.len = bufferSize →
        flushingIoCopy rem src' buf' =
          some (.ok { sink := src.bytes, written := src.bytes.length, err := none }) ∧
        ∃ st, Loop.turns (copyTurn rem) w.frames.length { buf := buf', src := src' } = some st ∧
          st.numPadding = w.frames.length ∧ st.sink = payloads w.frames ∧
          st.src.bytes = w.raw := by
  obtain ⟨fs, raw, hle, hraw, hbytes, hne, hend⟩ := ends_add hadd_dst hadd
    (show ({ buf := buf, src := src } : CopyState).buf.len = bufferSize from hbuf) heager
    (Nat.zero_add numFirstPaddings)
  have hclean : ∀ f ∈ fs, f.Clean := fun f hf hnil => absurd hnil (hne f hf)
  refine ⟨⟨fs, raw, hle, hraw⟩, ?_, hbytes, hne, ?_⟩
  · rw [flushingIoCopy_eq (by rw [hbuf]; decide) hend]
    simp [FramedStream.wire, endErr, hfinal]
  · intro rem src' buf' hrem hdst hwire hfinal' hbuf'
    constructor
    · rw [flushingIoCopy_remove hdst hrem ⟨fs, raw, hle, hraw⟩ hclean hbuf' hwire]
      rw [show FramedStream.content ⟨fs, raw, hle, hraw⟩ = src.bytes from hbytes, hfinal', endErr,
        if_pos rfl]
    · obtain ⟨st, hturns, hrest, -, hsink, -, hnum, -⟩ := turns_remove hdst hrem hclean
        (show ({ buf := buf', src := src' } : CopyState).buf.len = bufferSize from hbuf')
        (by simpa using hle) hwire
      exact ⟨st, hturns, by simpa using hnum, by simpa using hsink, hrest⟩

/-- Ten bytes, one with each read. -/
def tenBytes : Source := { chunks := (List.range 10).map fun i => [UInt8.ofNat (65 + i)] }

/-- A buffer as the pool hands it out. -/
def pooledBuffer : Buffer := { len := bufferSize, get := fun _ => 0 }

/-- A copier with a writer that takes everything and flushes, and padding of two bytes. -/
def copier (paddingType : PaddingType) : Copier :=
  { dst := Writer.reliable true, paddingType := paddingType, rand := fun _ => 2 }

/-- Eight frames of six bytes, and two bytes behind them. -/
theorem padding_roundTrip_tenBytes :
    ∃ w : FramedStream,
      flushingIoCopy (copier .addPadding) tenBytes pooledBuffer =
        some (.ok { sink := w.wire, written := w.wire.length, err := none }) ∧
      w.wire.length = 50 ∧ w.content = tenBytes.bytes ∧
      flushingIoCopy (copier .removePadding) { chunks := w.wire.map fun b => [b] } pooledBuffer =
        some (.ok { sink := tenBytes.bytes, written := 10, err := none }) := by
  have heager : tenBytes.Eager := by simp [Source.Eager, tenBytes]
  obtain ⟨w, hadd, hcontent, -, hrem⟩ :=
    padding_roundTrip (copier .addPadding) tenBytes pooledBuffer rfl
    (Writer.reliable_reliable true) heager rfl rfl
  have hwritten : (flushingIoCopy (copier .addPadding) tenBytes pooledBuffer).map
      (Except.map CopyResult.written) = some (.ok 50) := by rfl
  rw [hadd] at hwritten
  refine ⟨w, hadd, Except.ok.inj (Option.some_inj.mp hwritten), hcontent, ?_⟩
  exact (hrem (copier .removePadding) { chunks := w.wire.map fun b => [b] } pooledBuffer rfl
    (Writer.reliable_reliable true) (by simp [Source.bytes, ← List.flatMap_def]) rfl rfl).1

/-! ## Which streams are decoded -/

/-- The stream is decoded frame by frame: however its bytes are split into reads, after each
turn exactly one more frame is gone from the stream and its payload is written; and in the end
the content of the stream is written and no error is returned. -/
def FramedStream.Decodes (w : FramedStream) : Prop :=
  ∀ (c : Copier) (src : Source) (buf : Buffer), c.paddingType = .removePadding →
    c.dst.Reliable → src.bytes = w.wire → src.final = .eof → buf.len = bufferSize →
    (∀ k ≤ w.frames.length, ∃ st, Loop.turns (copyTurn c) k { buf := buf, src := src } = some st ∧
      st.src.bytes = encodeFrames (w.frames.drop k) ++ w.raw ∧
      st.sink = payloads (w.frames.take k)) ∧
    flushingIoCopy c src buf =
      some (.ok { sink := w.content, written := w.content.length, err := none })

theorem encodeFrames_append (fs gs : List Frame) :
    encodeFrames (fs ++ gs) = encodeFrames fs ++ encodeFrames gs := List.flatMap_append

/-- Clean frames are decoded frame by frame. -/
theorem FramedStream.decodes_of_clean (w : FramedStream) (hclean : ∀ f ∈ w.frames, f.Clean) :
    w.Decodes := by
  intro c src buf hrem hdst hbytes hfinal hlen
  constructor
  · intro k hk
    have hsplit : src.bytes = encodeFrames (w.frames.take k) ++
        (encodeFrames (w.frames.drop k) ++ w.raw) := by
      rw [hbytes, wire, ← List.append_assoc, ← encodeFrames_append, List.take_append_drop]
    have hlength : (w.frames.take k).length = k := List.length_take_of_le hk
    obtain ⟨st, hturns, hrest, -, hsink, -⟩ := turns_remove hdst hrem
      (fun f hf => hclean f (List.mem_of_mem_take hf))
      (show ({ buf := buf, src := src } : CopyState).buf.len = bufferSize from hlen)
      (by rw [hlength, Nat.zero_add]; exact hk.trans w.length_le) hsplit
    rw [hlength] at hturns
    exact ⟨st, hturns, hrest, by simpa using hsink⟩
  · rw [flushingIoCopy_remove hdst hrem w hclean hlen hbytes, hfinal, endErr, if_pos rfl]

/-- If each turn takes one frame, the frames are clean. -/
theorem clean_of_turns {c : Copier} (hdst : c.dst.Reliable) (hrem : c.paddingType = .removePadding)
    {fs : List Frame} {rest : List UInt8} {st : CopyState} (hlen : st.buf.len = bufferSize)
    (hnum : st.numPadding + fs.length ≤ numFirstPaddings)
    (hbytes : st.src.bytes = encodeFrames fs ++ rest)
    (hturns : ∀ k ≤ fs.length, ∃ st', Loop.turns (copyTurn c) k st = some st' ∧
      st'.src.bytes = encodeFrames (fs.drop k) ++ rest) : ∀ f ∈ fs, f.Clean := by
  induction fs generalizing st with
  | nil => simp
  | cons f fs ih =>
    rw [List.length_cons] at hnum
    rw [encodeFrames_cons, List.append_assoc] at hbytes
    obtain ⟨src, ⟨st₁, hnext, hsrc, -, -, hnum₁, hlen₁⟩, hleft, -⟩ :=
      turn_remove hdst hrem hlen (by omega) hbytes
    -- after the first turn nothing of the frame may be left
    obtain ⟨st', hone, hbytes'⟩ := hturns 1 (Nat.succ_le_succ (Nat.zero_le _))
    rw [Loop.turns_of_next hnext, Loop.turns_zero] at hone
    rw [← Option.some_inj.mp hone, hsrc, hleft] at hbytes'
    have hnil : f.leftover = [] := List.self_eq_append_left.mp hbytes'.symm
    refine List.forall_mem_cons.mpr ⟨f.leftover_eq_nil_iff.mp hnil, ?_⟩
    refine ih (hlen₁.trans hlen) (by omega) ?_ ?_
    · rw [hsrc, hleft, hnil, List.nil_append]
    · intro k hk
      obtain ⟨st', hturn, hbytes'⟩ := hturns (k + 1) (Nat.succ_le_succ hk)
      rw [Loop.turns_of_next hnext] at hturn
      exact ⟨st', hturn, hbytes'⟩

/-- **Which streams are decoded**: those in which no frame has padding but no payload. -/
theorem FramedStream.decodes_iff (w : FramedStream) :
    w.Decodes ↔ ∀ f ∈ w.frames, f.payload = [] → f.padding = [] := by
  refine ⟨fun hdec => ?_, w.decodes_of_clean⟩
  have hall := (hdec (copier .removePadding) { chunks := [w.wire] } pooledBuffer rfl
    (Writer.reliable_reliable true) (by simp [Source.bytes]) rfl rfl).1
  have hbytes : ({ chunks := [w.wire] } : Source).bytes = encodeFrames w.frames ++ w.raw := by
    simp [Source.bytes, wire]
  refine clean_of_turns (c := copier .removePadding) (Writer.reliable_reliable true) rfl
    (show ({ buf := pooledBuffer, src := { chunks := [w.wire] } } : CopyState).buf.len = bufferSize
      from rfl) (by simpa using w.length_le) hbytes ?_
  intro k hk
  obtain ⟨st, hturns, hbytes, -⟩ := hall k hk
  exact ⟨st, hturns, hbytes⟩

/-- A frame without a payload and with one byte of padding, and a frame with the payload `A`. -/
def emptyThenA : FramedStream where
  frames :=
    [{ payload := [], padding := [0], payload_le := by decide, padding_le := by decide },
     { payload := [65], padding := [], payload_le := by decide, padding_le := by decide }]
  raw := []
  length_le := by decide
  raw_eq_nil := fun _ => rfl

/-- The payload of the second frame is lost: the first turn leaves the padding of the first
frame in the stream, and from there on the headers are read from the wrong position. -/
theorem emptyThenA_lost :
    emptyThenA.wire = [0, 0, 1, 0, 0, 1, 0, 65] ∧ emptyThenA.content = [65] ∧
      flushingIoCopy (copier .removePadding) { chunks := [emptyThenA.wire] } pooledBuffer =
        some (.ok { sink := [], written := 0, err := none }) ∧
      ¬ emptyThenA.Decodes := by
  have hrun : flushingIoCopy (copier .removePadding) { chunks := [emptyThenA.wire] } pooledBuffer =
      some (.ok { sink := [], written := 0, err := none }) := by rfl
  refine ⟨rfl, rfl, hrun, fun hdec => ?_⟩
  have hresult := (hdec (copier .removePadding) { chunks := [emptyThenA.wire] } pooledBuffer rfl
    (Writer.reliable_reliable true) (by simp [Source.bytes]) rfl rfl).2
  rw [hrun] at hresult
  exact absurd hresult (by simp [FramedStream.content, emptyThenA])

end Padding
end ForwardProxy
