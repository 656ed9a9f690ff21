import ForwardProxy.Padding.RoundTrip

/-!
# Reads that deliver nothing

A reader may return no bytes and no error, and the caller is to take this for nothing having
happened.  The direction that adds padding does not: its counter is incremented before the read, so
a read that delivers nothing uses up one of the `NumFirstPaddings` frames without writing one.
Reads that deliver something are then passed on raw where the other side still expects a frame.

A `Script` is what a reader answers, read by read, with the padding size that is drawn for each.
`output` is what is written for it, and `frameCount` counts the reads that become frames.

## Main results

* `empty_reads_iff`: if reads that deliver nothing are inserted into a script, the bytes written
  stay the same exactly if as many reads become frames as before.
-/

namespace ForwardProxy
namespace Padding

open ForwardProxy.Core

/-! ## Scripts -/

/-- A read: what it delivers, and the size of the padding that is drawn for it. -/
structure Delivery where
  data : List UInt8
  size : Fin 256

/-- Every read fits the slice that it is offered, when so many frames are to come. -/
def Fits : ℕ → List Delivery → Prop
  | _, [] => True
  | 0, d :: l => d.data.length ≤ bufferSize ∧ Fits 0 l
  | k + 1, d :: l => d.data.length ≤ 65536 - 3 - d.size - 3 ∧ Fits k l

/-- What a reader answers: reads without an error, perhaps one together with the error, and the
error.  No read delivers more than it is asked for. -/
structure Script where
  reads : List Delivery
  last : Option Delivery := none
  final : IOErr := .eof
  fits : Fits numFirstPaddings (reads ++ last.toList)

/-- All reads that may deliver something. -/
def Script.all (s : Script) : List Delivery := s.reads ++ s.last.toList

/-- The reader that answers so. -/
def Script.source (s : Script) : Source where
  chunks := s.all.map Delivery.data
  glued := s.last.isSome
  final := s.final

/-- The draws of the copy are those of the script. -/
def Draws (rand : ℕ → Fin 256) : ℕ → List Delivery → Prop
  | _, [] => True
  | n, d :: l => (n < numFirstPaddings → rand n = d.size) ∧ Draws rand (n + 1) l

/-- A read as a frame; a read that delivers nothing is none. -/
def Delivery.frame (d : Delivery) : List UInt8 :=
  if d.data = [] then []
  else UInt8.ofNat (d.data.length / 256) :: UInt8.ofNat (d.data.length % 256) ::
    UInt8.ofNat d.size :: (d.data ++ List.replicate d.size 0)

/-- What is written, when so many frames are to come. -/
def output : ℕ → List Delivery → List UInt8
  | _, [] => []
  | 0, d :: l => d.data ++ output 0 l
  | k + 1, d :: l => d.frame ++ output k l

/-- How many reads become frames, when so many are to come: those that deliver something. -/
def frameCount (k : ℕ) (l : List Delivery) : ℕ := (l.take k).countP fun d => d.data ≠ []

theorem frameCount_succ_cons (k : ℕ) (d : Delivery) (l : List Delivery) :
    frameCount (k + 1) (d :: l) = (if d.data = [] then 0 else 1) + frameCount k l := by
  unfold frameCount
  rw [List.take_succ_cons, List.countP_cons, Nat.add_comm]
  congr 1
  by_cases hne : d.data = []
  · simp [hne]
  · simp [hne]

theorem output_zero (l : List Delivery) : output 0 l = (l.map Delivery.data).flatten := by
  induction l with
  | nil => rfl
  | cons d l ih => rw [output, ih, List.map_cons, List.flatten_cons]

/-! ## The copy of a script -/

/-- A turn for a read that fits: it is written as a frame, if it delivers something. -/
theorem turn_delivery {c : Copier} (hdst : c.dst.Reliable) (hadd : c.paddingType = .addPadding)
    {st : CopyState} (hlen : st.buf.len = bufferSize) (hnum : st.numPadding < numFirstPaddings)
    {d : Delivery} {l : List Delivery} (hchunks : st.src.chunks = (d :: l).map Delivery.data)
    (hfits : d.data.length ≤ 65536 - 3 - d.size - 3) (hdraw : c.rand st.numPadding = d.size) :
    ∃ er src, TurnSpec c st d.frame er src (st.numPadding + 1) ∧
      (er = none ∨ er = some st.src.final ∧ l = []) ∧ src.chunks = l.map Delivery.data ∧
      src.final = st.src.final := by
  have hread : st.src.read (65536 - 3 - c.rand st.numPadding - 3) =
      ((d.data, if st.src.glued && (l.map Delivery.data).isEmpty then some st.src.final else none),
        { st.src with chunks := l.map Delivery.data }) := by
    rw [Source.read, hchunks, hdraw]
    exact if_pos hfits
  refine ⟨if st.src.glued && (l.map Delivery.data).isEmpty then some st.src.final else none,
    { st.src with chunks := l.map Delivery.data }, ?_, ?_, rfl, rfl⟩
  · by_cases hne : d.data = []
    · rw [hne] at hread
      rw [Delivery.frame, if_pos hne]
      exact turn_add_nil hdst hadd hlen hnum hread
    · have hturn := turn_add hdst hadd hlen hnum hread hne (hdraw ▸ hfits)
      rw [encode_frameOf, hdraw] at hturn
      rw [Delivery.frame, if_neg hne]
      exact hturn
  · by_cases hlast : (st.src.glued && (l.map Delivery.data).isEmpty) = true
    · have hnil : l = [] := by simpa using (Bool.and_eq_true_iff.mp hlast).2
      exact Or.inr ⟨if_pos hlast, hnil⟩
    · exact Or.inl (if_neg hlast)

/-- **Adding padding to a script.** -/
theorem ends_output {c : Copier} (hdst : c.dst.Reliable) (hadd : c.paddingType = .addPadding)
    {k : ℕ} {l : List Delivery} {st : CopyState} (hlen : st.buf.len = bufferSize)
    (hk : st.numPadding + k = numFirstPaddings) (hchunks : st.src.chunks = l.map Delivery.data)
    (hfits : Fits k l) (hdraws : Draws c.rand st.numPadding l) :
    Loop.Ends (copyTurn c) st (.ok
      { sink := st.sink ++ output k l
        written := st.written + (output k l).length
        err := endErr st.src.final }) := by
  induction k generalizing l st with
  | zero =>
    have hend := ends_raw hdst (show 0 < st.buf.len by rw [hlen]; decide) (Or.inr (by omega))
    rw [output_zero, ← hchunks]
    exact hend
  | succ k ih =>
    have hnum : st.numPadding < numFirstPaddings := by omega
    cases l with
    | nil =>
      have hread : st.src.read (65536 - 3 - c.rand st.numPadding - 3) =
          (([], some st.src.final), st.src) := by
        rw [Source.read, hchunks]
        rfl
      exact .of_done (turn_add_nil hdst hadd hlen hnum hread)
    | cons d l =>
      obtain ⟨er, src, hturn, her, hchunks', hfinal⟩ := turn_delivery hdst hadd hlen hnum hchunks
        hfits.1 (hdraws.1 hnum)
      rcases her with rfl | ⟨rfl, rfl⟩
      · obtain ⟨st', hnext, rfl, hsink, hwritten, hnum', hlen'⟩ := hturn
        have hend := ih (hlen'.trans hlen) (by omega) hchunks' hfits.2 (hnum' ▸ hdraws.2)
        rw [hsink, hwritten, hfinal, List.append_assoc, Nat.add_assoc, ← List.length_append] at hend
        exact .of_next hnext hend
      · rw [output, show output k [] = [] by cases k <;> rfl, List.append_nil]
        exact .of_done hturn

/-! ## Scripts with and without empty reads -/

/-- The same read: the same data and, if there is any, the same padding. -/
def Delivery.Same (d d' : Delivery) : Prop := d.data = d'.data ∧ (d.data ≠ [] → d.size = d'.size)

/-- The second list is the first with reads inserted that deliver nothing. -/
inductive Inserts : List Delivery → List Delivery → Prop
  | nil : Inserts [] []
  | keep {d d' : Delivery} {l l' : List Delivery} (hsame : d.Same d') (h : Inserts l l') :
      Inserts (d :: l) (d' :: l')
  | insert {d' : Delivery} {l l' : List Delivery} (hempty : d'.data = []) (h : Inserts l l') :
      Inserts l (d' :: l')

theorem frameCount_zero (l : List Delivery) : frameCount 0 l = 0 := rfl

theorem Delivery.Same.frame_eq {d d' : Delivery} (h : d.Same d') : d.frame = d'.frame := by
  unfold Delivery.frame
  rw [← h.1]
  split_ifs with hne
  · rfl
  · rw [h.2 hne]

/-- A frame is longer than what it carries. -/
theorem Delivery.length_frame (d : Delivery) :
    d.data.length + (if d.data = [] then 0 else 1) ≤ d.frame.length := by
  unfold Delivery.frame
  split_ifs with hne
  · rw [hne]
    exact le_rfl
  · simp only [List.length_cons, List.length_append]
    omega

/-- Every frame adds to the length of the output. -/
theorem length_output (k : ℕ) (l : List Delivery) :
    (output 0 l).length + frameCount k l ≤ (output k l).length := by
  induction l generalizing k with
  | nil => cases k <;> exact le_rfl
  | cons d l ih =>
    cases k with
    | zero => exact le_rfl
    | succ k =>
      have hframe := d.length_frame
      have htail := ih k
      simp only [output, frameCount_succ_cons, List.length_append]
      omega

/-- Without frames, the output is what was read. -/
theorem output_eq_output_zero_iff (k : ℕ) (l : List Delivery) :
    output k l = output 0 l ↔ frameCount k l = 0 := by
  constructor
  · intro heq
    have hle := length_output k l
    rw [heq] at hle
    omega
  · intro hzero
    induction l generalizing k with
    | nil => cases k <;> rfl
    | cons d l ih =>
      cases k with
      | zero => rfl
      | succ k =>
        rw [frameCount_succ_cons, Nat.add_eq_zero_iff] at hzero
        have hempty : d.data = [] := by
          by_contra hne
          rw [if_neg hne] at hzero
          exact absurd hzero.1 Nat.one_ne_zero
        rw [output, output, ih k hzero.2, Delivery.frame, if_pos hempty, hempty]

theorem Inserts.output_zero_eq {l l' : List Delivery} (h : Inserts l l') :
    output 0 l = output 0 l' := by
  induction h with
  | nil => rfl
  | keep hsame _ ih => rw [output, output, hsame.1, ih]
  | insert hempty _ ih => rw [ih, output, hempty, List.nil_append]

/-- **Empty reads and the output**, when at least as many frames are to come without the empty reads
as with them. -/
theorem Inserts.output_eq_iff {l l' : List Delivery} (h : Inserts l l') {k k' : ℕ} (hk : k' ≤ k) :
    output k l = output k' l' ↔ frameCount k l = frameCount k' l' := by
  induction h generalizing k k' with
  | nil => cases k <;> cases k' <;> exact iff_of_true rfl rfl
  | @keep d d' l l' hsame h ih =>
    cases k' with
    | zero =>
      rw [← (Inserts.keep hsame h).output_zero_eq, output_eq_output_zero_iff, frameCount_zero]
    | succ k' =>
      obtain ⟨k, rfl⟩ : ∃ n, k = n + 1 := Nat.exists_eq_add_one_of_ne_zero (by omega)
      rw [output, output, frameCount_succ_cons, frameCount_succ_cons, hsame.frame_eq, hsame.1,
        List.append_cancel_left_eq, Nat.add_left_cancel_iff]
      exact ih (by omega)
  | @insert d' l l' hempty h ih =>
    cases k' with
    | zero => rw [← (Inserts.insert hempty h).output_zero_eq, output_eq_output_zero_iff,
        frameCount_zero]
    | succ k' =>
      rw [output, frameCount_succ_cons, Delivery.frame, if_pos hempty, if_pos hempty,
        List.nil_append, Nat.zero_add]
      exact ih (by omega)

/-- What fits without the empty reads fits with them, so they may be inserted anywhere. -/
theorem Inserts.fits {l l' : List Delivery} (h : Inserts l l') {k k' : ℕ} (hk : k' ≤ k)
    (hfits : Fits k l) : Fits k' l' := by
  induction h generalizing k k' with
  | nil => cases k' <;> trivial
  | @keep d d' l l' hsame h ih =>
    cases k' with
    | zero =>
      have hsize : bufferSize = 65536 := rfl
      cases k with
      | zero => exact ⟨hsame.1 ▸ hfits.1, ih le_rfl hfits.2⟩
      | succ k =>
        refine ⟨?_, ih (Nat.zero_le k) hfits.2⟩
        rw [← hsame.1, hsize]
        exact hfits.1.trans (by omega)
    | succ k' =>
      obtain ⟨k, rfl⟩ : ∃ n, k = n + 1 := Nat.exists_eq_add_one_of_ne_zero (by omega)
      refine ⟨?_, ih (by omega) hfits.2⟩
      by_cases hne : d.data = []
      · rw [← hsame.1, hne]
        exact Nat.zero_le _
      · rw [← hsame.1, ← hsame.2 hne]
        exact hfits.1
  | @insert d' l l' hempty h ih =>
    cases k' with
    | zero => exact ⟨by rw [hempty]; exact Nat.zero_le _, ih hk hfits⟩
    | succ k' => exact ⟨by rw [hempty]; exact Nat.zero_le _, ih (by omega) hfits⟩

theorem Inserts.append {l l' m m' : List Delivery} (h : Inserts l l') (hm : Inserts m m') :
    Inserts (l ++ m) (l' ++ m') := by
  induction h with
  | nil => exact hm
  | keep hsame _ ih => exact .keep hsame ih
  | insert hempty _ ih => exact .insert hempty ih

/-- The reads that deliver something, and all of them. -/
theorem inserts_filter (l : List Delivery) : Inserts (l.filter fun d => d.data ≠ []) l := by
  induction l with
  | nil => exact .nil
  | cons d l ih =>
    by_cases hne : d.data = []
    · rw [List.filter_cons_of_neg (by simp [hne])]
      exact .insert hne ih
    · rw [List.filter_cons_of_pos (by simp [hne])]
      exact .keep ⟨rfl, fun _ => rfl⟩ ih

/-! ## Whole scripts -/

/-- The second script is the first with reads inserted, before its error, that deliver nothing. -/
structure Script.Stutters (s t : Script) : Prop where
  reads : Inserts s.reads t.reads
  last : Option.Rel Delivery.Same s.last t.last
  final : t.final = s.final

theorem Script.Stutters.inserts {s t : Script} (h : s.Stutters t) : Inserts s.all t.all := by
  refine h.reads.append ?_
  have hlast := h.last
  generalize s.last = d at hlast
  generalize t.last = d' at hlast
  cases hlast with
  | none => exact .nil
  | some hsame => exact .keep hsame .nil

/-- The copy of a script with a writer that takes everything. -/
theorem flushingIoCopy_script {c : Copier} (hdst : c.dst.Reliable)
    (hadd : c.paddingType = .addPadding) {s : Script} (hdraws : Draws c.rand 0 s.all) {buf : Buffer}
    (hlen : buf.len = bufferSize) : flushingIoCopy c s.source buf = some (.ok
      { sink := output numFirstPaddings s.all
        written := (output numFirstPaddings s.all).length
        err := endErr s.final }) := by
  have hend := ends_output hdst hadd
    (show ({ buf := buf, src := s.source } : CopyState).buf.len = bufferSize from hlen)
    (Nat.zero_add numFirstPaddings) rfl s.fits hdraws
  rw [List.nil_append, Nat.zero_add] at hend
  exact flushingIoCopy_eq (by rw [hlen]; decide) hend

/-- **Empty reads and the wire format.**  Insert reads that deliver nothing into a script, and let
the padding sizes of the other reads be the same.  Then `flushingIoCopy` with `AddPadding` writes
the same bytes exactly if as many reads become frames with the empty reads as without them.  In
particular it frames the first `NumFirstPaddings` reads that deliver something exactly if as many
reads become frames as if there were no others. -/
theorem empty_reads_iff {s t : Script} (hst : s.Stutters t) {c c' : Copier}
    (hdst : c.dst.Reliable) (hdst' : c'.dst.Reliable)
    (hadd : c.paddingType = .addPadding) (hadd' : c'.paddingType = .addPadding)
    (hdraws : Draws c.rand 0 s.all) (hdraws' : Draws c'.rand 0 t.all) {buf buf' : Buffer}
    (hlen : buf.len = bufferSize) (hlen' : buf'.len = bufferSize) :
    ∃ res res', flushingIoCopy c s.source buf = some (.ok res) ∧
      flushingIoCopy c' t.source buf' = some (.ok res') ∧
      (res.sink = res'.sink ↔
        frameCount numFirstPaddings s.all = frameCount numFirstPaddings t.all) ∧
      (output numFirstPaddings (t.all.filter fun d => d.data ≠ []) = res'.sink ↔
        frameCount numFirstPaddings (t.all.filter fun d => d.data ≠ []) =
          frameCount numFirstPaddings t.all) := by
  refine ⟨_, _, flushingIoCopy_script hdst hadd hdraws hlen,
    flushingIoCopy_script hdst' hadd' hdraws' hlen', ?_, ?_⟩
  · exact hst.inserts.output_eq_iff le_rfl
  · exact (inserts_filter t.all).output_eq_iff le_rfl

/-- A read that delivers `A`. -/
def readA : Delivery := ⟨[65], (copier .addPadding).rand 0⟩

/-- A read that delivers nothing. -/
def readNothing : Delivery := ⟨[], (copier .addPadding).rand 0⟩

theorem inserts_readA (n : ℕ) : Inserts [readA] (List.replicate n readNothing ++ [readA]) := by
  induction n with
  | zero => exact .keep ⟨rfl, fun _ => rfl⟩ .nil
  | succ n ih => exact .insert rfl ih

/-- Some reads that deliver nothing, and then `A` and the end of the stream. -/
def delayedA (n : ℕ) : Script where
  reads := List.replicate n readNothing ++ [readA]
  last := none
  fits := ((inserts_readA n).append .nil).fits le_rfl
    (show Fits numFirstPaddings [readA] from ⟨by decide, trivial⟩)

theorem draws_delayedA (n k : ℕ) : Draws (copier .addPadding).rand k (delayedA n).all := by
  show Draws _ k (List.replicate n readNothing ++ [readA] ++ [])
  rw [List.append_nil]
  induction n generalizing k with
  | zero => exact ⟨fun _ => rfl, trivial⟩
  | succ n ih => exact ⟨fun _ => rfl, ih (k + 1)⟩

/-- With one empty read before it, `A` is still written as a frame. -/
theorem empty_reads_iff_one :
    ∃ res res',
      flushingIoCopy (copier .addPadding) (delayedA 0).source pooledBuffer = some (.ok res) ∧
      flushingIoCopy (copier .addPadding) (delayedA 1).source pooledBuffer = some (.ok res') ∧
      res.sink = res'.sink := by
  have hst : (delayedA 0).Stutters (delayedA 1) := ⟨inserts_readA 1, .none, rfl⟩
  obtain ⟨res, res', hres, hres', hiff, -⟩ := empty_reads_iff hst (Writer.reliable_reliable true)
    (Writer.reliable_reliable true) rfl rfl (draws_delayedA 0 0) (draws_delayedA 1 0)
    (show pooledBuffer.len = bufferSize from rfl) (show pooledBuffer.len = bufferSize from rfl)
  exact ⟨res, res', hres, hres', hiff.mpr (by decide)⟩

/-- With eight empty reads before it, `A` is written raw. -/
theorem delayedA_not_framed :
    flushingIoCopy (copier .addPadding) { chunks := [[65]] } pooledBuffer =
        some (.ok { sink := [0, 1, 2, 65, 0, 0], written := 6, err := none }) ∧
      flushingIoCopy (copier .addPadding) { chunks := [[], [], [], [], [], [], [], [], [65]] }
          pooledBuffer = some (.ok { sink := [65], written := 1, err := none }) := by
  have hcopy := fun n => flushingIoCopy_script (Writer.reliable_reliable true) rfl
    (draws_delayedA n 0) (show pooledBuffer.len = bufferSize from rfl)
  exact ⟨(hcopy 0).trans (by decide), (hcopy 8).trans (by decide)⟩

end Padding
end ForwardProxy
