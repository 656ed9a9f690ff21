import ForwardProxy.Padding.RoundTrip

/-!
# What the pooled buffer held before

The buffers of `flushingIoCopy` come from a pool that all tunnels share, and a buffer is handed out
with the bytes of its last tunnel in it.  In one place the copy loop looks at bytes that it has not
written: when the stream ends within a header, the missing header bytes are those of the buffer.

The length and the padding size that come out of this are arbitrary, but they have no effect.  A
reader that has ended has nothing more to deliver, so no payload is read, whatever its length; what
depends on the length is only whether the loop is left in this turn or in the next, and in both
cases it is left with the error of the reader.

So every turn is the same whatever the buffer holds (`ReadsAs`), but for a turn that meets the end
of the stream within a header, and then there is nothing left to differ in (`ends_of_short`).

## Main results

* `flushingIoCopy_pooled`: the result does not depend on the content of the buffer.
-/

namespace ForwardProxy
namespace Padding

open ForwardProxy.Core

/-! ## The end of the stream -/

/-- A turn that reads nothing and goes on, or leaves the loop with the final error. -/
theorem copyTurn_of_reads_nil {c : Copier} {st st' : CopyState} {er : Option IOErr}
    (h : Reads c st [] er st') :
    copyTurn c st = match er with
      | some e => .done (.ok { sink := st.sink, written := st.written, err := endErr e })
      | none => .next st' := by
  have hread : readTurn c st = .ok (0, er, st') := h.eq
  have hwrite : writeTurn c 0 st' = .ok (none, st') := by
    rw [writeTurn, if_neg (Nat.lt_irrefl 0)]
    rfl
  cases er with
  | some e => simp only [copyTurn, hread, hwrite, h.sink, h.written, endErr]
  | none => simp only [copyTurn, hread, hwrite]

/-- A read from a stream that has ended. -/
theorem exists_reads_nil {c : Copier} {st : CopyState} (hlen : st.buf.len = bufferSize)
    (hbytes : st.src.bytes = []) :
    ∃ er st', Reads c st [] er st' ∧ (er = none ∨ er = some st.src.final) ∧
      st'.src.bytes = [] ∧ st'.src.final = st.src.final ∧
      (er = none → st'.src.weight < st.src.weight) := by
  -- a plain read, into the buffer or behind the place of a header
  have hread : ∀ n, 0 < n → ∃ er src, st.src.read n = (([], er), src) ∧
      (er = none ∨ er = some st.src.final) ∧ src.bytes = [] ∧ src.final = st.src.final ∧
      (er = none → src.weight < st.src.weight) := by
    intro n hn
    have hspec := st.src.readSpec n
    obtain ⟨hnil, hnil'⟩ := List.append_eq_nil_iff.mp (hspec.bytes.symm.trans hbytes)
    refine ⟨(st.src.read n).1.2, (st.src.read n).2, ?_, ?_, hnil', hspec.final,
      fun hnone => hspec.weight_lt hnone hn⟩
    · rw [← hnil]
    · exact hspec.err.imp id fun h => h.1
  by_cases hnum : st.numPadding < numFirstPaddings
  swap
  · obtain ⟨er, src, hraw, hspec⟩ := hread st.buf.len (by rw [hlen]; decide)
    have hreads : Reads c st _ _ _ := reads_raw (Or.inr (Nat.le_of_not_lt hnum))
    rw [readRaw, hraw] at hreads
    exact ⟨er, _, hreads, hspec⟩
  cases htype : c.paddingType with
  | noPadding =>
    obtain ⟨er, src, hraw, hspec⟩ := hread st.buf.len (by rw [hlen]; decide)
    have hreads : Reads c st _ _ _ := reads_raw (Or.inl htype)
    rw [readRaw, hraw] at hreads
    exact ⟨er, _, hreads, hspec⟩
  | addPadding =>
    obtain ⟨er, src, hraw, hspec⟩ := hread (65536 - 3 - c.rand st.numPadding - 3) (by omega)
    exact ⟨er, _, reads_add_nil htype hlen hnum hraw, hspec⟩
  | removePadding =>
    obtain ⟨-, hdrop, hfinal⟩ := st.src.readFull_bytes 3
    rw [hbytes, List.drop_nil] at hdrop
    exact ⟨_, _, reads_remove_end htype hlen hnum hbytes, Or.inr rfl, hdrop, hfinal, nofun⟩

/-- From the end of the stream on, nothing is written, in any mode and with any writer. -/
theorem ends_of_bytes_nil {c : Copier} {st : CopyState} (hlen : st.buf.len = bufferSize)
    (hbytes : st.src.bytes = []) :
    Loop.Ends (copyTurn c) st
      (.ok { sink := st.sink, written := st.written, err := endErr st.src.final }) := by
  -- empty reads may still come, so by induction on what the reader has left
  generalize hw : st.src.weight = w
  induction w using Nat.strong_induction_on generalizing st with
  | _ w ih =>
    obtain ⟨er, st', hreads, her, hbytes', hfinal, hlt⟩ := exists_reads_nil (c := c) hlen hbytes
    have hturn := copyTurn_of_reads_nil hreads
    rcases her with rfl | rfl
    · have hend := ih _ (hw ▸ hlt rfl) (hreads.len.trans hlen) hbytes' rfl
      rw [hreads.sink, hreads.written, hfinal] at hend
      exact .of_next hturn hend
    · exact .of_done hturn

/-- **The end of the stream within a header**: whatever the missing bytes of the header were taken
for, nothing more is written. -/
theorem ends_of_short {c : Copier} (hrem : c.paddingType = .removePadding) {st : CopyState}
    (hlen : st.buf.len = bufferSize) (hnum : st.numPadding < numFirstPaddings)
    (hshort : st.src.bytes.length < 3) :
    Loop.Ends (copyTurn c) st
      (.ok { sink := st.sink, written := st.written, err := endErr st.src.final }) := by
  obtain ⟨er, st', hreads, hbytes, -, her, hfinal⟩ := reads_remove_of_short hrem hlen hnum hshort
  have hturn := copyTurn_of_reads_nil hreads
  rcases her with rfl | rfl
  · have hend := ends_of_bytes_nil (c := c) (hreads.len.trans hlen) hbytes
    rw [hreads.sink, hreads.written, hfinal] at hend
    exact .of_next hturn hend
  · exact .of_done hturn

/-! ## A turn, whatever the buffer holds -/

/-- The first half of a turn, whatever the buffer holds: it leaves these bytes at the front of the
buffer, and this error, this reader and this counter. -/
def ReadsAs (c : Copier) (st : CopyState) (out : List UInt8) (er : Option IOErr) (src : Source)
    (numPadding : ℕ) : Prop :=
  ∀ buf : Buffer, buf.len = bufferSize → ∃ buf', Reads c { st with buf := buf } out er
    { st with buf := buf', src := src, numPadding := numPadding }

theorem readsAs_raw {c : Copier} {st : CopyState}
    (hraw : c.paddingType = .noPadding ∨ numFirstPaddings ≤ st.numPadding) :
    ReadsAs c st (st.src.read bufferSize).1.1 (st.src.read bufferSize).1.2
      (st.src.read bufferSize).2 st.numPadding := by
  intro buf hlen
  have hreads : Reads c { st with buf := buf } _ _ _ := reads_raw hraw
  rw [readRaw, hlen] at hreads
  exact ⟨_, hreads⟩

theorem exists_readsAs_add {c : Copier} (hadd : c.paddingType = .addPadding) {st : CopyState}
    (hnum : st.numPadding < numFirstPaddings) :
    ∃ out er src, ReadsAs c st out er src (st.numPadding + 1) := by
  have hspec := st.src.readSpec (65536 - 3 - c.rand st.numPadding - 3)
  rcases hread : st.src.read (65536 - 3 - c.rand st.numPadding - 3) with ⟨⟨p, er⟩, src⟩
  rw [hread] at hspec
  by_cases hp : p = []
  · subst hp
    refine ⟨[], er, src, fun buf hlen => ⟨buf.fill 3 [], ?_⟩⟩
    exact reads_add_nil hadd
      (show ({ st with buf := buf } : CopyState).buf.len = bufferSize from hlen) hnum hread
  · refine ⟨(frameOf p (c.rand st.numPadding) hspec.length_le).encode, er, src, fun buf hlen => ?_⟩
    exact reads_add hadd (show ({ st with buf := buf } : CopyState).buf.len = bufferSize from hlen)
      hnum hread hp hspec.length_le

/-- If there is a header, it overwrites what the buffer held in its place. -/
theorem exists_readsAs_remove {c : Copier} (hrem : c.paddingType = .removePadding) {st : CopyState}
    (hnum : st.numPadding < numFirstPaddings) (hthree : 3 ≤ st.src.bytes.length) :
    ∃ out er src, ReadsAs c st out er src (st.numPadding + 1) := by
  obtain ⟨h₀, h₁, h₂, s₁, hread, -⟩ := exists_header hthree
  refine ⟨(restOfFrame s₁ (h₀.toNat * 256 + h₁.toNat) h₂.toNat).1.1,
    (restOfFrame s₁ (h₀.toNat * 256 + h₁.toNat) h₂.toNat).1.2,
    (restOfFrame s₁ (h₀.toNat * 256 + h₁.toNat) h₂.toNat).2, fun buf hlen => ?_⟩
  exact ⟨_, reads_remove_of_header hrem
    (show ({ st with buf := buf } : CopyState).buf.len = bufferSize from hlen) hnum hread rfl rfl⟩

/-- Every turn reads the same whatever the buffer holds, but for one that meets the end of the
stream within a header. -/
theorem exists_readsAs (c : Copier) (st : CopyState) :
    (∃ out er src numPadding, ReadsAs c st out er src numPadding) ∨
      (c.paddingType = .removePadding ∧ st.numPadding < numFirstPaddings ∧
        st.src.bytes.length < 3) := by
  by_cases hnum : st.numPadding < numFirstPaddings
  swap
  · exact Or.inl ⟨_, _, _, _, readsAs_raw (Or.inr (Nat.le_of_not_lt hnum))⟩
  cases htype : c.paddingType with
  | noPadding => exact Or.inl ⟨_, _, _, _, readsAs_raw (Or.inl htype)⟩
  | addPadding =>
    obtain ⟨out, er, src, hreads⟩ := exists_readsAs_add htype hnum
    exact Or.inl ⟨out, er, src, _, hreads⟩
  | removePadding =>
    by_cases hthree : 3 ≤ st.src.bytes.length
    · obtain ⟨out, er, src, hreads⟩ := exists_readsAs_remove htype hnum hthree
      exact Or.inl ⟨out, er, src, _, hreads⟩
    · exact Or.inr ⟨rfl, hnum, Nat.lt_of_not_le hthree⟩

/-- The second half of a turn depends on the buffer through what it writes. -/
theorem exists_writeTurn_eq (c : Copier) (out sink : List UInt8) (writes written : ℕ) :
    ∃ err sink' writes' written', ∀ st : CopyState, st.sink = sink → st.writes = writes →
      st.written = written → st.buf.take out.length = out → out.length ≤ st.buf.len →
      writeTurn c out.length st =
        .ok (err, { st with sink := sink', writes := writes', written := written' }) := by
  by_cases hpos : 0 < out.length
  swap
  · refine ⟨none, sink, writes, written, ?_⟩
    rintro st rfl rfl rfl - -
    rw [writeTurn, if_neg hpos]
    rfl
  rcases hanswer : c.dst.write writes out with ⟨nw, ew⟩
  cases ew with
  | some ew =>
    refine ⟨some ew, sink ++ out.take nw, writes + 1, if 0 < nw then written + nw else written, ?_⟩
    rintro st rfl rfl rfl htake hle
    simp only [writeTurn, if_pos hpos, Buffer.slice_eq_ok (Nat.zero_le _) hle, htake, hanswer]
    rfl
  | none =>
    cases hflush : c.dst.flush.bind fun f => f writes with
    | some ef =>
      refine ⟨some ef, sink ++ out.take nw, writes + 1,
        if 0 < nw then written + nw else written, ?_⟩
      rintro st rfl rfl rfl htake hle
      simp only [writeTurn, if_pos hpos, Buffer.slice_eq_ok (Nat.zero_le _) hle, htake, hanswer,
        hflush]
      rfl
    | none =>
      refine ⟨if out.length = nw then none else some .shortWrite, sink ++ out.take nw, writes + 1,
        if 0 < nw then written + nw else written, ?_⟩
      rintro st rfl rfl rfl htake hle
      simp only [writeTurn, if_pos hpos, Buffer.slice_eq_ok (Nat.zero_le _) hle, htake, hanswer,
        hflush]
      rfl

/-- A turn that reads the same whatever the buffer holds does the same. -/
theorem copyTurn_of_readsAs {c : Copier} {st : CopyState} {out : List UInt8} {er : Option IOErr}
    {src : Source} {numPadding : ℕ} (h : ReadsAs c st out er src numPadding) :
    (∃ res, ∀ buf : Buffer, buf.len = bufferSize →
        copyTurn c { st with buf := buf } = .done (.ok res)) ∨
      ∃ st' : CopyState, ∀ buf : Buffer, buf.len = bufferSize → ∃ buf' : Buffer,
        buf'.len = bufferSize ∧ copyTurn c { st with buf := buf } =
          .next { st' with buf := buf' } := by
  obtain ⟨err, sink, writes, written, hwrite⟩ :=
    exists_writeTurn_eq c out st.sink st.writes st.written
  cases err with
  | some e =>
    refine Or.inl ⟨{ sink := sink, written := written, err := some e }, fun buf hlen => ?_⟩
    obtain ⟨buf', hreads⟩ := h buf hlen
    have hwrite' := hwrite _ hreads.sink hreads.writes hreads.written hreads.take hreads.le
    simp only [copyTurn, hreads.eq, hwrite']
  | none =>
    cases er with
    | some e =>
      refine Or.inl ⟨{ sink := sink, written := written, err := endErr e }, fun buf hlen => ?_⟩
      obtain ⟨buf', hreads⟩ := h buf hlen
      have hwrite' := hwrite _ hreads.sink hreads.writes hreads.written hreads.take hreads.le
      simp only [copyTurn, hreads.eq, hwrite', endErr]
    | none =>
      refine Or.inr ⟨{ st with
        src := src, numPadding := numPadding, sink := sink, writes := writes, written := written },
        fun buf hlen => ?_⟩
      obtain ⟨buf', hreads⟩ := h buf hlen
      have hwrite' := hwrite _ hreads.sink hreads.writes hreads.written hreads.take hreads.le
      refine ⟨buf', hreads.len.trans hlen, ?_⟩
      simp only [copyTurn, hreads.eq, hwrite']

/-! ## The whole loop -/

/-- Two loops that differ in nothing but the content of the buffer end with the same result. -/
theorem exists_ends_pooled {c : Copier} (st : CopyState) {buf₁ buf₂ : Buffer}
    (hlen₁ : buf₁.len = bufferSize) (hlen₂ : buf₂.len = bufferSize) :
    ∃ res, Loop.Ends (copyTurn c) { st with buf := buf₁ } (.ok res) ∧
      Loop.Ends (copyTurn c) { st with buf := buf₂ } (.ok res) := by
  generalize hw : st.src.weight = w
  induction w using Nat.strong_induction_on generalizing st buf₁ buf₂ with
  | _ w ih =>
    rcases exists_readsAs c st with ⟨out, er, src, numPadding, hreads⟩ | ⟨hrem, hnum, hshort⟩
    swap
    · have hend : ∀ buf : Buffer, buf.len = bufferSize →
          Loop.Ends (copyTurn c) { st with buf := buf }
          (.ok { sink := st.sink, written := st.written, err := endErr st.src.final }) :=
        fun buf hlen => ends_of_short hrem hlen hnum hshort
      exact ⟨_, hend buf₁ hlen₁, hend buf₂ hlen₂⟩
    rcases copyTurn_of_readsAs hreads with ⟨r, hdone⟩ | ⟨st', hnext⟩
    · exact ⟨r, .of_done (hdone buf₁ hlen₁), .of_done (hdone buf₂ hlen₂)⟩
    obtain ⟨buf₁', hlen₁', hnext₁⟩ := hnext buf₁ hlen₁
    obtain ⟨buf₂', hlen₂', hnext₂⟩ := hnext buf₂ hlen₂
    have hlt : st'.src.weight < w := by
      rw [← hw]
      exact (weight_lt_of_next (show 0 < buf₁.len by rw [hlen₁]; decide) hnext₁).2
    obtain ⟨r, hend₁, hend₂⟩ := ih _ hlt st' hlen₁' hlen₂' rfl
    exact ⟨r, .of_next hnext₁ hend₁, .of_next hnext₂ hend₂⟩

/-- **No leak through the buffer pool.**  In every mode, for every reader, every writer and every
choice of padding sizes, the bytes that `flushingIoCopy` writes, their number and the error are the
same for any two contents of its buffer. -/
theorem flushingIoCopy_pooled (c : Copier) (src : Source) {buf₁ buf₂ : Buffer}
    (hlen₁ : buf₁.len = bufferSize) (hlen₂ : buf₂.len = bufferSize) :
    ∃ res, flushingIoCopy c src buf₁ = some (.ok res) ∧
    flushingIoCopy c src buf₂ = some (.ok res) := by
  have hpos : 0 < bufferSize := by decide
  obtain ⟨res, hend₁, hend₂⟩ := exists_ends_pooled (c := c) { buf := buf₁, src := src } hlen₁ hlen₂
  exact ⟨res, flushingIoCopy_eq (hlen₁ ▸ hpos) hend₁, flushingIoCopy_eq (hlen₂ ▸ hpos) hend₂⟩

/-- A buffer that holds the bytes of another tunnel. -/
def usedBuffer : Buffer := { len := bufferSize, get := fun i => UInt8.ofNat (i + 1) }

/-- A stream that ends after the first byte of a header: with the one buffer the length of the
payload is taken to be 0, with the other 2. -/
theorem flushingIoCopy_pooled_short :
    ∃ res, flushingIoCopy (copier .removePadding) { chunks := [[0]] } pooledBuffer =
      some (.ok res) ∧
      flushingIoCopy (copier .removePadding) { chunks := [[0]] } usedBuffer = some (.ok res) ∧
      res = { sink := [], written := 0, err := none } := by
  obtain ⟨res, hpooled, hused⟩ := flushingIoCopy_pooled (copier .removePadding) { chunks := [[0]] }
    (show pooledBuffer.len = bufferSize from rfl) (show usedBuffer.len = bufferSize from rfl)
  have hrun : flushingIoCopy (copier .removePadding) { chunks := [[0]] } pooledBuffer =
      some (.ok { sink := [], written := 0, err := none }) := by rfl
  exact ⟨res, hpooled, hused, Except.ok.inj (Option.some.inj (hpooled.symm.trans hrun))⟩

end Padding
end ForwardProxy
