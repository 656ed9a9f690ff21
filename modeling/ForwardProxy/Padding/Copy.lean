import ForwardProxy.Core.Loop
import ForwardProxy.Core.Stream

/-!
# `flushingIoCopy`: the copy loop with naive padding

`flushingIoCopy` copies a reader to a writer.  In the direction that adds padding, each of
its first `NumFirstPaddings` reads becomes a frame; in the direction that removes it, each of
its first turns reads one frame; afterwards, and always without padding, it passes on what it
reads.  One loop does all three, with one counter.

The model follows the source statement by statement.  The buffer keeps its content from one
turn to the next, since the source reads header bytes that a short read did not write; all
accesses to it are checked; the random padding sizes are a sequence given from outside; and
the writer answers as it likes.

The turn lemmas at the end describe one turn with a writer that takes everything, by what was
read: `turn_raw`, `turn_add`, `turn_remove`.
-/

namespace ForwardProxy
namespace Padding

open ForwardProxy.Core

/-! ## The model -/

/-- The padding types. -/
inductive PaddingType where
  | noPadding
  | addPadding
  | removePadding
  deriving DecidableEq, Repr

/-- `NumFirstPaddings`. -/
def numFirstPaddings : ℕ := 8

/-- The size of the buffers in `bufferPool`. -/
def bufferSize : ℕ := 64 * 1024

/-- What a call of `flushingIoCopy` is given, apart from the reader and the buffer: the writer,
the padding type, and what the calls of `rand.Intn(256)` will return. -/
structure Copier where
  dst : Writer
  paddingType : PaddingType
  rand : ℕ → Fin 256

/-- The variables of `flushingIoCopy`, the reader, and what the writer has taken. -/
structure CopyState where
  buf : Buffer
  src : Source
  sink : List UInt8 := []
  /-- How many calls of `Write` were made. -/
  writes : ℕ := 0
  numPadding : ℕ := 0
  written : ℕ := 0

/-- What a call of `flushingIoCopy` leaves behind. -/
structure CopyResult where
  sink : List UInt8
  written : ℕ
  err : Option IOErr
  deriving DecidableEq, Repr

/-- A read that becomes a frame in the buffer: `nr`, `er` and the variables. -/
def readAddPadding (paddingSize : ℕ) (st : CopyState) :
    Except Panic (ℕ × Option IOErr × CopyState) := do
  let maxRead := 65536 - 3 - paddingSize
  st.buf.slice 3 maxRead
  let r := st.src.read (maxRead - 3)
  let nr := r.1.1.length
  let er := r.1.2
  let buf := st.buf.fill 3 r.1.1
  if 0 < nr then
    let buf ← buf.set 0 (UInt8.ofNat (nr / 256))
    let buf ← buf.set 1 (UInt8.ofNat (nr % 256))
    let buf ← buf.set 2 (UInt8.ofNat paddingSize)
    let buf ← buf.zero (3 + nr) paddingSize
    return (nr + (3 + paddingSize), er, { st with buf := buf, src := r.2 })
  else
    return (nr, er, { st with buf := buf, src := r.2 })

/-- The rest of a frame, after its header was read into the buffer: the payload, and then the
padding into a scratch array.  A payload of which nothing was read ends the frame. -/
def readPayload (st : CopyState) : Except Panic (ℕ × Option IOErr × CopyState) := do
  let nr := (st.buf.get 0).toNat * 256 + (st.buf.get 1).toNat
  let paddingSize := (st.buf.get 2).toNat
  st.buf.slice 0 nr
  let r := st.src.readFull nr
  let st : CopyState := { st with buf := st.buf.fill 0 r.1.1, src := r.2 }
  if 0 < r.1.1.length then
    let junk := st.src.readFull paddingSize
    return (r.1.1.length, junk.1.2, { st with src := junk.2 })
  else
    return (r.1.1.length, r.1.2, st)

/-- Reading one frame. -/
def readRemovePadding (st : CopyState) : Except Panic (ℕ × Option IOErr × CopyState) := do
  st.buf.slice 0 3
  let r := st.src.readFull 3
  let st : CopyState := { st with buf := st.buf.fill 0 r.1.1, src := r.2 }
  if 0 < r.1.1.length then readPayload st
  else return (r.1.1.length, r.1.2, st)

/-- A plain read into the whole buffer. -/
def readRaw (st : CopyState) : ℕ × Option IOErr × CopyState :=
  let r := st.src.read st.buf.len
  (r.1.1.length, r.1.2, { st with buf := st.buf.fill 0 r.1.1, src := r.2 })

/-- The first half of a turn, up to the `dst.Write`. -/
def readTurn (c : Copier) (st : CopyState) : Except Panic (ℕ × Option IOErr × CopyState) :=
  if c.paddingType = .addPadding ∧ st.numPadding < numFirstPaddings then
    readAddPadding (c.rand st.numPadding) { st with numPadding := st.numPadding + 1 }
  else if c.paddingType = .removePadding ∧ st.numPadding < numFirstPaddings then
    readRemovePadding { st with numPadding := st.numPadding + 1 }
  else .ok (readRaw st)

/-- `dst.Write`, the flush, and the comparison of what was written.  The first component is
the error the loop is left with, if any. -/
def writeTurn (c : Copier) (nr : ℕ) (st : CopyState) :
    Except Panic (Option IOErr × CopyState) := do
  if 0 < nr then
    st.buf.slice 0 nr
    let p := st.buf.take nr
    let answer := c.dst.write st.writes p
    let nw := answer.1
    let st' : CopyState :=
      { st with
        sink := st.sink ++ p.take nw
        writes := st.writes + 1
        written := if 0 < nw then st.written + nw else st.written }
    match answer.2 with
    | some ew => return (some ew, st')
    | none =>
      match c.dst.flush.bind (fun f => f st.writes) with
      | some ef => return (some ef, st')
      | none => return (if nr = nw then none else some .shortWrite, st')
  else
    return (none, st)

/-- One turn of the loop. -/
def copyTurn (c : Copier) (st : CopyState) : Turn CopyState (Except Panic CopyResult) :=
  match readTurn c st with
  | .error p => .done (.error p)
  | .ok (nr, er, st) =>
    match writeTurn c nr st with
    | .error p => .done (.error p)
    | .ok (some err, st) => .done (.ok { sink := st.sink, written := st.written, err := some err })
    | .ok (none, st) =>
      match er with
      | some er =>
        .done (.ok { sink := st.sink, written := st.written,
                     err := if er = .eof then none else some er })
      | none => .next st

/-- `flushingIoCopy`.  `none` stands for a loop that does not end. -/
def flushingIoCopy (c : Copier) (src : Source) (buf : Buffer) :
    Option (Except Panic CopyResult) :=
  Loop.run (copyTurn c) (src.weight + 1) { buf := buf, src := src }

/-! ## One turn -/

/-- What a turn did with a writer that takes everything: it wrote `out`, and left the loop if
the reader reported something. -/
def TurnSpec (c : Copier) (st : CopyState) (out : List UInt8) (er : Option IOErr) (src : Source)
    (numPadding : ℕ) : Prop :=
  match er with
  | some e => copyTurn c st = .done (.ok
      { sink := st.sink ++ out
        written := st.written + out.length
        err := if e = .eof then none else some e })
  | none => ∃ st', copyTurn c st = .next st' ∧ st'.src = src ∧ st'.sink = st.sink ++ out ∧
      st'.written = st.written + out.length ∧ st'.numPadding = numPadding ∧
      st'.buf.len = st.buf.len

/-- What the second half of a turn may do, whatever the writer answers: nothing if nothing was read,
and otherwise it makes one call, and goes on only if that took everything. -/
theorem writeTurn_cases {c : Copier} {nr : ℕ} {st st' : CopyState} {err : Option IOErr}
    (h : writeTurn c nr st = .ok (err, st')) :
    (nr = 0 ∧ err = none ∧ st' = st) ∨
    ∃ nw ew written, c.dst.write st.writes (st.buf.take nr) = (nw, ew) ∧
      st' = { st with
        sink := st.sink ++ (st.buf.take nr).take nw, writes := st.writes + 1, written := written } ∧
      (err = none → ew = none ∧ nw = nr) ∧ (ew ≠ none → err ≠ none) := by
  by_cases hpos : 0 < nr
  · rcases hw : c.dst.write st.writes (st.buf.take nr) with ⟨nw, ew⟩
    simp only [writeTurn, if_pos hpos, hw] at h
    obtain ⟨_, -, h⟩ := bind_eq_ok.mp h
    refine .inr ⟨nw, ew, if 0 < nw then st.written + nw else st.written, rfl, ?_⟩
    cases ew with
    | some ew =>
      obtain ⟨rfl, rfl⟩ := Prod.mk.inj (Except.ok.inj h)
      exact ⟨rfl, nofun, fun _ => nofun⟩
    | none =>
      dsimp only at h
      split at h
      · obtain ⟨rfl, rfl⟩ := Prod.mk.inj (Except.ok.inj h)
        exact ⟨rfl, nofun, fun hne => absurd rfl hne⟩
      · obtain ⟨rfl, rfl⟩ := Prod.mk.inj (Except.ok.inj h)
        refine ⟨rfl, fun hnone => ⟨rfl, ?_⟩, fun hne => absurd rfl hne⟩
        by_contra hne
        rw [if_neg (Ne.symm hne)] at hnone
        exact absurd hnone nofun
  · simp only [writeTurn, if_neg hpos] at h
    obtain ⟨rfl, rfl⟩ := Prod.mk.inj (Except.ok.inj h)
    exact .inl ⟨Nat.eq_zero_of_not_pos hpos, rfl, rfl⟩

/-- The second half of a turn does not panic if what was read is in the buffer. -/
theorem exists_writeTurn (c : Copier) {nr : ℕ} {st : CopyState} (hnr : nr ≤ st.buf.len) :
    ∃ r, writeTurn c nr st = .ok r := by
  by_cases hpos : 0 < nr
  · simp only [writeTurn, if_pos hpos, Buffer.slice_eq_ok (Nat.zero_le nr) hnr]
    generalize c.dst.write st.writes (st.buf.take nr) = answer
    generalize (c.dst.flush.bind fun f => f st.writes) = flushed
    obtain ⟨nw, ew⟩ := answer
    cases ew with
    | some ew => exact ⟨_, rfl⟩
    | none =>
      cases flushed with
      | some ef => exact ⟨_, rfl⟩
      | none => exact ⟨_, rfl⟩
  · simp only [writeTurn, if_neg hpos]
    exact ⟨_, rfl⟩

/-- What the first half of a turn did: it left `out` at the front of the buffer. -/
structure Reads (c : Copier) (st : CopyState) (out : List UInt8) (er : Option IOErr)
    (st' : CopyState) : Prop where
  eq : readTurn c st = .ok (out.length, er, st')
  le : out.length ≤ st'.buf.len
  take : st'.buf.take out.length = out
  len : st'.buf.len = st.buf.len
  sink : st'.sink = st.sink
  writes : st'.writes = st.writes
  written : st'.written = st.written

/-- A plain read fills the front of the buffer. -/
theorem reads_raw {c : Copier} {st : CopyState}
    (hraw : c.paddingType = .noPadding ∨ numFirstPaddings ≤ st.numPadding) :
    Reads c st (st.src.read st.buf.len).1.1 (st.src.read st.buf.len).1.2 (readRaw st).2.2 := by
  have hread : readTurn c st = .ok (readRaw st) := by
    have hframed : ∀ t, ¬ (t ≠ .noPadding ∧ c.paddingType = t ∧
        st.numPadding < numFirstPaddings) := by
      rintro t ⟨ht, heq, hlt⟩
      rcases hraw with hno | hge
      · exact ht (heq.symm.trans hno)
      · omega
    rw [readTurn, if_neg fun h => hframed _ ⟨by simp, h⟩, if_neg fun h => hframed _ ⟨by simp, h⟩]
  exact ⟨hread, (st.src.readSpec st.buf.len).length_le, Buffer.take_fill_zero .., rfl,
    rfl, rfl, rfl⟩

section Turns

variable {c : Copier} (hdst : c.dst.Reliable)

include hdst

/-- Writing the front of the buffer. -/
theorem writeTurn_eq {nr : ℕ} {st : CopyState} (hnr : nr ≤ st.buf.len) :
    ∃ writes, writeTurn c nr st = .ok (none, { st with
      sink := st.sink ++ st.buf.take nr
      writes := writes
      written := st.written + nr }) := by
  by_cases hpos : 0 < nr
  · have hlen : (st.buf.take nr).length = nr := by simp [Buffer.take]
    have hflush : (c.dst.flush.bind fun f => f st.writes) = none := by
      cases hf : c.dst.flush with
      | none => rfl
      | some f => exact hdst.flush f hf _
    refine ⟨st.writes + 1, ?_⟩
    simp only [writeTurn, if_pos hpos, Buffer.slice_eq_ok (Nat.zero_le nr) hnr, hdst.write, hflush,
      hlen]
    rw [List.take_of_length_le (Nat.le_of_eq hlen)]
    rfl
  · obtain rfl : nr = 0 := by omega
    refine ⟨st.writes, ?_⟩
    simp [writeTurn, Buffer.take]
    rfl

/-- A turn is described by what its first half leaves in the buffer. -/
theorem turnSpec_of_reads {st st' : CopyState} {er : Option IOErr} {out : List UInt8}
    (h : Reads c st out er st') : TurnSpec c st out er st'.src st'.numPadding := by
  obtain ⟨writes, hwrite⟩ := writeTurn_eq hdst h.le
  rw [h.take, h.sink, h.written] at hwrite
  cases er with
  | some e =>
    show copyTurn c st = _
    simp only [copyTurn, h.eq, hwrite]
  | none =>
    refine ⟨{ st' with
      sink := st.sink ++ out
      writes := writes
      written := st.written + out.length }, ?_, rfl, rfl, rfl, rfl, h.len⟩
    simp only [copyTurn, h.eq, hwrite]

/-- A plain turn passes on what it reads. -/
theorem turn_raw {st : CopyState}
    (hraw : c.paddingType = .noPadding ∨ numFirstPaddings ≤ st.numPadding) :
    TurnSpec c st (st.src.read st.buf.len).1.1 (st.src.read st.buf.len).1.2
      (st.src.read st.buf.len).2 st.numPadding :=
  turnSpec_of_reads hdst (reads_raw hraw)

/-- **A plain copy** passes on all bytes that are left. -/
theorem ends_raw {st : CopyState} (hlen : 0 < st.buf.len)
    (hraw : c.paddingType = .noPadding ∨ numFirstPaddings ≤ st.numPadding) :
    Loop.Ends (copyTurn c) st (.ok
      { sink := st.sink ++ st.src.bytes
        written := st.written + st.src.bytes.length
        err := if st.src.final = .eof then none else some st.src.final }) := by
  -- by induction on what the reader has left
  generalize hw : st.src.weight = w
  induction w using Nat.strong_induction_on generalizing st with
  | _ w ih =>
    have hspec := st.src.readSpec st.buf.len
    have hturn := turn_raw hdst hraw
    rcases hspec.err with herr | ⟨herr, hchunks⟩
    · rw [herr] at hturn
      obtain ⟨st', hnext, hsrc, hsink, hwritten, hnum, hlen'⟩ := hturn
      have hlt : st'.src.weight < w := by
        rw [hsrc, ← hw]
        exact hspec.weight_lt herr hlen
      refine .of_next hnext ?_
      have hend := ih _ hlt (show 0 < st'.buf.len from hlen' ▸ hlen) (hnum ▸ hraw) rfl
      rw [hsink, hwritten, hsrc, hspec.final, List.append_assoc, ← hspec.bytes, Nat.add_assoc,
        ← List.length_append, ← hspec.bytes] at hend
      exact hend
    · rw [herr] at hturn
      have hbytes : st.src.bytes = (st.src.read st.buf.len).1.1 := by
        rw [hspec.bytes]
        simp [Source.bytes, hchunks]
      rw [hbytes]
      exact .of_done hturn

end Turns

/-! ## The loop ends -/

/-- Writing touches neither the reader nor the buffer. -/
theorem writeTurn_src {c : Copier} {nr : ℕ} {st st' : CopyState} {err : Option IOErr}
    (h : writeTurn c nr st = .ok (err, st')) : st'.src = st.src ∧ st'.buf = st.buf := by
  rcases writeTurn_cases h with ⟨-, -, rfl⟩ | ⟨nw, ew, written, -, rfl, -, -⟩
  · exact ⟨rfl, rfl⟩
  · exact ⟨rfl, rfl⟩

/-- Reading touches nothing of the writer. -/
theorem readTurn_sink {c : Copier} {st : CopyState} {r : ℕ × Option IOErr × CopyState}
    (h : readTurn c st = .ok r) : r.2.2.sink = st.sink ∧ r.2.2.writes = st.writes := by
  rw [readTurn] at h
  split_ifs at h
  · simp only [readAddPadding] at h
    obtain ⟨_, -, h⟩ := bind_eq_ok.mp h
    split_ifs at h
    · obtain ⟨_, -, h⟩ := bind_eq_ok.mp h
      obtain ⟨_, -, h⟩ := bind_eq_ok.mp h
      obtain ⟨_, -, h⟩ := bind_eq_ok.mp h
      obtain ⟨_, -, h⟩ := bind_eq_ok.mp h
      rw [← Except.ok.inj h]
      exact ⟨rfl, rfl⟩
    · rw [← Except.ok.inj h]
      exact ⟨rfl, rfl⟩
  · simp only [readRemovePadding, readPayload] at h
    obtain ⟨_, -, h⟩ := bind_eq_ok.mp h
    split_ifs at h
    · obtain ⟨_, -, h⟩ := bind_eq_ok.mp h
      rw [← Except.ok.inj h]
      exact ⟨rfl, rfl⟩
    · obtain ⟨_, -, h⟩ := bind_eq_ok.mp h
      rw [← Except.ok.inj h]
      exact ⟨rfl, rfl⟩
    · rw [← Except.ok.inj h]
      exact ⟨rfl, rfl⟩
  · rw [← Except.ok.inj h]
    exact ⟨rfl, rfl⟩

/-- A read keeps the size of the buffer, and takes something from the reader unless it reports
something. -/
def Progresses (st : CopyState) (r : ℕ × Option IOErr × CopyState) : Prop :=
  r.2.2.buf.len = st.buf.len ∧ (r.2.1 = none → r.2.2.src.weight < st.src.weight)

theorem progresses_readAddPadding {paddingSize : ℕ} (hsize : paddingSize < 256) {st : CopyState}
    {r : ℕ × Option IOErr × CopyState} (h : readAddPadding paddingSize st = .ok r) :
    Progresses st r := by
  have hweight := (st.src.readSpec (65536 - 3 - paddingSize - 3)).weight_lt
  simp only [readAddPadding] at h
  obtain ⟨_, -, h⟩ := bind_eq_ok.mp h
  split_ifs at h
  · obtain ⟨b₀, hb₀, h⟩ := bind_eq_ok.mp h
    obtain ⟨b₁, hb₁, h⟩ := bind_eq_ok.mp h
    obtain ⟨b₂, hb₂, h⟩ := bind_eq_ok.mp h
    obtain ⟨b₃, hb₃, h⟩ := bind_eq_ok.mp h
    rw [← Except.ok.inj h]
    refine ⟨?_, fun hnone => hweight hnone (by omega)⟩
    show b₃.len = st.buf.len
    rw [Buffer.len_of_zero hb₃, Buffer.len_of_set hb₂, Buffer.len_of_set hb₁,
      Buffer.len_of_set hb₀]
    rfl
  · rw [← Except.ok.inj h]
    exact ⟨rfl, fun hnone => hweight hnone (by omega)⟩

/-- The rest of a frame takes nothing back. -/
theorem weight_readPayload {st : CopyState} {r : ℕ × Option IOErr × CopyState}
    (h : readPayload st = .ok r) :
    r.2.2.buf.len = st.buf.len ∧ r.2.2.src.weight ≤ st.src.weight := by
  have hload := (st.src.readFull_weight ((st.buf.get 0).toNat * 256 + (st.buf.get 1).toNat)).1
  have hjunk :=
    ((st.src.readFull ((st.buf.get 0).toNat * 256 + (st.buf.get 1).toNat)).2.readFull_weight
    (st.buf.get 2).toNat).1
  simp only [readPayload] at h
  obtain ⟨_, -, h⟩ := bind_eq_ok.mp h
  split_ifs at h
  · rw [← Except.ok.inj h]
    exact ⟨rfl, ((Nat.le_add_right ..).trans hjunk).trans ((Nat.le_add_right ..).trans hload)⟩
  · rw [← Except.ok.inj h]
    exact ⟨rfl, (Nat.le_add_right ..).trans hload⟩

theorem progresses_readRemovePadding {st : CopyState} {r : ℕ × Option IOErr × CopyState}
    (h : readRemovePadding st = .ok r) : Progresses st r := by
  obtain ⟨hhead, hfull⟩ := st.src.readFull_weight 3
  simp only [readRemovePadding] at h
  obtain ⟨_, -, h⟩ := bind_eq_ok.mp h
  split_ifs at h with hpos
  · obtain ⟨hlen, hle⟩ := weight_readPayload h
    refine ⟨hlen, fun _ => ?_⟩
    exact lt_of_le_of_lt hle (show (st.src.readFull 3).2.weight < st.src.weight by omega)
  · rw [← Except.ok.inj h]
    refine ⟨rfl, fun hnone => ?_⟩
    have hthree := hfull hnone
    omega

theorem progresses_readTurn {c : Copier} {st : CopyState} (hlen : 0 < st.buf.len)
    {r : ℕ × Option IOErr × CopyState} (h : readTurn c st = .ok r) : Progresses st r := by
  rw [readTurn] at h
  split_ifs at h
  · have hprog := progresses_readAddPadding (c.rand st.numPadding).isLt h
    exact ⟨hprog.1, hprog.2⟩
  · have hprog := progresses_readRemovePadding h
    exact ⟨hprog.1, hprog.2⟩
  · rw [← Except.ok.inj h]
    exact ⟨rfl, fun hnone => (st.src.readSpec st.buf.len).weight_lt hnone hlen⟩

/-- Every turn that goes round again takes something from the reader. -/
theorem weight_lt_of_next {c : Copier} {st st' : CopyState} (hlen : 0 < st.buf.len)
    (h : copyTurn c st = .next st') : 0 < st'.buf.len ∧ st'.src.weight < st.src.weight := by
  simp only [copyTurn] at h
  split at h
  · exact absurd h (by simp)
  · rename_i nr er st₁ hread
    have hprog := progresses_readTurn hlen hread
    split at h
    · exact absurd h (by simp)
    · exact absurd h (by simp)
    · rename_i st₂ hwrite
      obtain ⟨hsrc, hbuf⟩ := writeTurn_src hwrite
      cases er with
      | some e => exact absurd h (by simp)
      | none =>
        rw [← Turn.next.inj h, hsrc, hbuf]
        exact ⟨hprog.1 ▸ hlen, hprog.2 rfl⟩

/-- **The fuel of `flushingIoCopy` is enough**: with a buffer that is not empty, whatever the
loop ends with is what it returns. -/
theorem flushingIoCopy_eq {c : Copier} {src : Source} {buf : Buffer} (hlen : 0 < buf.len)
    {r : Except Panic CopyResult} (h : Loop.Ends (copyTurn c) { buf := buf, src := src } r) :
    flushingIoCopy c src buf = some r :=
  Loop.run_eq_of_variant (I := fun st => 0 < st.buf.len) (fun _ _ => weight_lt_of_next) hlen h
    (Nat.lt_succ_self _)

end Padding
end ForwardProxy
