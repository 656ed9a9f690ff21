import Mathlib.Algebra.GroupWithZero.Nat
import ForwardProxy.Padding.Pooled

/-!
# Padded streams that are cut off

A tunnel whose client goes away ends within a frame as a rule.  `unframe` is what removing padding
makes of any bytes whatever: the payload that is passed on, and whether the end of the stream is
reported.  It is defined on the bytes, and `flushingIoCopy_eq_unframe` says that `flushingIoCopy`
computes it for every way of splitting the bytes into reads.

Three calls of `io.ReadFull` assign the same error, and only the last one counts.  `io.ReadFull`
reports the end of the stream as such if it has read nothing, and as an unexpected one if it has
read something but not enough; and the end of the stream as such is the normal end of a copy.  So
what is cut off is reported exactly if the padding was begun and not completed.

## Main results

* `truncation_reported_iff`: for every stream with naive padding and every place within one of its
  frames, what is written and whether an error is returned.

The padding of a frame without a payload is not skipped but read as headers, so that a cut behind
such a frame says nothing in general.  There is one exception (`Frame.Harmless`): zeros in threes
are read as further empty frames, at the cost of turns (`Frame.turns`).
-/

namespace ForwardProxy
namespace Padding

open ForwardProxy.Core

/-! ## Bytes that may end anywhere -/

/-- What removing padding makes of some bytes when so many frames are still to come: the bytes
passed on, and whether the end is reported. -/
def unframe : ℕ → List UInt8 → List UInt8 × Bool
  | 0, p => (p, false)
  | k + 1, h₀ :: h₁ :: h₂ :: body =>
    let nr := h₀.toNat * 256 + h₁.toNat
    if nr = 0 then unframe k body
    else if body.length < nr + h₂.toNat then (body.take nr, decide (nr < body.length))
    else
      let r := unframe k (body.drop (nr + h₂.toNat))
      (body.take nr ++ r.1, r.2)
  | _ + 1, _ => ([], false)

theorem unframe_of_short {k : ℕ} {p : List UInt8} (hp : p.length < 3) :
    unframe (k + 1) p = ([], false) := by
  match p, hp with
  | [], _ => rfl
  | [_], _ => rfl
  | [_, _], _ => rfl

theorem unframe_nil (k : ℕ) : unframe k [] = ([], false) := by
  cases k <;> rfl

/-- What is passed on of a part is a part of what is passed on. -/
theorem unframe_mono (k : ℕ) {p q : List UInt8} (h : p <+: q) :
    (unframe k p).1 <+: (unframe k q).1 := by
  induction k generalizing p q with
  | zero => exact h
  | succ k ih =>
    by_cases hshort : p.length < 3
    · rw [unframe_of_short hshort]
      exact List.nil_prefix
    obtain ⟨h₀, h₁, h₂, -, hsplit⟩ := exists_take_three (Nat.le_of_not_lt hshort)
    obtain ⟨body, rfl⟩ : ∃ body, p = h₀ :: h₁ :: h₂ :: body := ⟨_, hsplit⟩
    obtain ⟨more, rfl⟩ := h
    obtain ⟨nr, hnr⟩ : ∃ nr, h₀.toNat * 256 + h₁.toNat = nr := ⟨_, rfl⟩
    obtain ⟨paddingSize, hpad⟩ : ∃ paddingSize, h₂.toNat = paddingSize := ⟨_, rfl⟩
    rw [List.cons_append, List.cons_append, List.cons_append, unframe, unframe, hnr, hpad]
    dsimp only
    by_cases hzero : nr = 0
    · rw [if_pos hzero, if_pos hzero]
      exact ih (List.prefix_append body more)
    rw [if_neg hzero, if_neg hzero]
    have htake : body.take nr <+: (body ++ more).take nr := (List.prefix_append body more).take nr
    by_cases hcut : body.length < nr + paddingSize
    · rw [if_pos hcut]
      split_ifs
      · exact htake
      · exact htake.trans (List.prefix_append _ _)
    · have hcut' : ¬ (body ++ more).length < nr + paddingSize := by
        rw [List.length_append]
        omega
      rw [if_neg hcut, if_neg hcut', List.take_append_of_le_length (by omega)]
      exact (List.prefix_append_right_inj _).mpr (ih ((List.prefix_append body more).drop _))

/-- The error with which the end is reported. -/
def cutErr (reported : Bool) : Option IOErr := if reported then some .unexpectedEOF else none

/-! ## The rest of a frame -/

section RestOfFrame

variable {s : Source} {nr paddingSize : ℕ}

/-- A payload that is cut off: nothing of this shows in the error. -/
theorem restOfFrame_of_lt (hlt : s.bytes.length < nr) :
    ∃ er s', restOfFrame s nr paddingSize = ((s.bytes, er), s') ∧
      (er = none ∨ er = some s.final) ∧ s'.bytes = [] ∧ s'.final = s.final := by
  by_cases hne : s.bytes = []
  · obtain ⟨hnil, her, hbytes, hfinal⟩ := restOfFrame_of_bytes_nil hne nr paddingSize
    exact ⟨_, _, by rw [hne, ← hnil], her, hbytes, hfinal⟩
  obtain ⟨s₁, heq, hbytes, hfinal, -⟩ := Source.readFull_of_lt hlt
  obtain ⟨-, hdrop, hfinal₂⟩ := s₁.readFull_bytes paddingSize
  rw [hbytes, List.drop_nil] at hdrop
  refine ⟨(s₁.readFull paddingSize).1.2, (s₁.readFull paddingSize).2, ?_, ?_, hdrop,
    hfinal₂.trans hfinal⟩
  · rw [restOfFrame, heq]
    exact if_pos (List.length_pos_iff.mpr hne)
  · by_cases hzero : paddingSize = 0
    · obtain ⟨s₂, heq₂, -⟩ :=
        Source.readFull_of_le (s := s₁) (n := paddingSize) (by rw [hzero]; exact Nat.zero_le _)
      exact Or.inl (by rw [heq₂])
    · obtain ⟨s₂, heq₂, -⟩ :=
        Source.readFull_of_lt (s := s₁) (n := paddingSize)
          (by rw [hbytes]; exact Nat.pos_of_ne_zero hzero)
      rw [hbytes, if_neg (by simp), hfinal] at heq₂
      exact Or.inr (by rw [heq₂])

/-- Padding that is cut off: an unexpected end, if there is some of it. -/
theorem restOfFrame_of_le_of_lt (hpos : 0 < nr) (hle : nr ≤ s.bytes.length)
    (hlt : s.bytes.length < nr + paddingSize) :
    ∃ s', restOfFrame s nr paddingSize = ((s.bytes.take nr,
      some (if nr < s.bytes.length ∧ s.final = .eof then .unexpectedEOF else s.final)), s') := by
  obtain ⟨s₁, heq, hbytes, hfinal, -⟩ := Source.readFull_of_le hle
  have hlength : s₁.bytes.length = s.bytes.length - nr := by rw [hbytes, List.length_drop]
  obtain ⟨s₂, heq₂, -⟩ := Source.readFull_of_lt (s := s₁) (n := paddingSize) (by omega)
  have hbegun : s₁.bytes ≠ [] ↔ nr < s.bytes.length := by
    rw [← List.length_pos_iff, hlength]
    omega
  refine ⟨s₂, ?_⟩
  rw [restOfFrame, heq]
  dsimp only
  rw [if_pos (by rw [List.length_take_of_le hle]; exact hpos), heq₂]
  simp only [hbegun, hfinal]

end RestOfFrame

/-- The rest of a frame is the front of what is passed on, and the rest of that comes from what is
left in the stream. -/
theorem unframe_cons_eq_restOfFrame (k : ℕ) (h₀ h₁ h₂ : UInt8) (s : Source) {nr paddingSize : ℕ}
    (hnr : h₀.toNat * 256 + h₁.toNat = nr) (hpad : h₂.toNat = paddingSize) :
    (unframe (k + 1) (h₀ :: h₁ :: h₂ :: s.bytes)).1 =
      (restOfFrame s nr paddingSize).1.1 ++
        (unframe k (restOfFrame s nr paddingSize).2.bytes).1 := by
  obtain ⟨hout, hsrc⟩ := restOfFrame_bytes s nr paddingSize
  rw [unframe, hnr, hpad, hout, hsrc]
  dsimp only
  by_cases hzero : nr = 0
  · rw [if_pos hzero, hzero, List.take_zero, if_pos rfl]
    rfl
  rw [if_neg hzero]
  by_cases hcut : s.bytes.length < nr + paddingSize
  · have hrest : (if s.bytes.take nr = [] then s.bytes.drop nr
        else (s.bytes.drop nr).drop paddingSize) = [] := by
      split_ifs with hnil
      · have hbytes : s.bytes = [] := (List.take_eq_nil_iff.mp hnil).resolve_left hzero
        rw [hbytes, List.drop_nil]
      · rw [List.drop_drop, List.drop_of_length_le (by omega)]
    rw [if_pos hcut, hrest, unframe_nil, List.append_nil]
  · have hne : s.bytes.take nr ≠ [] := by
      rw [ne_eq, List.take_eq_nil_iff, ← List.length_eq_zero_iff]
      omega
    rw [if_neg hcut, if_neg hne, List.drop_drop]

/-- **A read that removes padding**, of any stream whatever: what it takes is the front of what
`unframe` passes on. -/
theorem reads_remove_unframe {c : Copier} (hrem : c.paddingType = .removePadding) {st : CopyState}
    (hlen : st.buf.len = bufferSize) {k : ℕ} (hk : st.numPadding + (k + 1) = numFirstPaddings) :
    ∃ out er st', Reads c st out er st' ∧ st'.numPadding = st.numPadding + 1 ∧
      (unframe (k + 1) st.src.bytes).1 = out ++ (unframe k st'.src.bytes).1 := by
  have hnum : st.numPadding < numFirstPaddings := by omega
  by_cases hshort : st.src.bytes.length < 3
  · obtain ⟨er, st', hreads, hsrc, hnum', -⟩ := reads_remove_of_short hrem hlen hnum hshort
    refine ⟨[], er, st', hreads, hnum', ?_⟩
    rw [unframe_of_short hshort, hsrc, unframe_nil]
    rfl
  · obtain ⟨h₀, h₁, h₂, s, hread, hsplit, -⟩ := exists_header (Nat.le_of_not_lt hshort)
    refine ⟨_, _, _, reads_remove_of_header hrem hlen hnum hread rfl rfl, rfl, ?_⟩
    rw [hsplit]
    exact unframe_cons_eq_restOfFrame k h₀ h₁ h₂ s rfl rfl

/-! ## The copy loop -/

section Copy

variable {c : Copier}

/-- The turn of a frame that is cut off is the last one that writes. -/
theorem ends_of_cut {st : CopyState} (hlen : st.buf.len = bufferSize) {s : Source}
    {nr paddingSize numPadding : ℕ} (hfinal : s.final = .eof) (hpos : 0 < nr)
    (hcut : s.bytes.length < nr + paddingSize)
    (hturn : TurnSpec c st (restOfFrame s nr paddingSize).1.1 (restOfFrame s nr paddingSize).1.2
      (restOfFrame s nr paddingSize).2 numPadding) :
    Loop.Ends (copyTurn c) st (.ok
      { sink := st.sink ++ s.bytes.take nr
        written := st.written + (s.bytes.take nr).length
        err := cutErr (decide (nr < s.bytes.length)) }) := by
  by_cases hload : s.bytes.length < nr
  · obtain ⟨er, s', heq, her, hbytes, hfinal'⟩ := @restOfFrame_of_lt s nr paddingSize hload
    rw [heq] at hturn
    rw [List.take_of_length_le (by omega), decide_eq_false (by omega)]
    rcases her with rfl | rfl
    · obtain ⟨st', hnext, rfl, hsink, hwritten, -, hlen'⟩ := hturn
      have hend := ends_of_bytes_nil (c := c) (hlen'.trans hlen) hbytes
      rw [hsink, hwritten, hfinal', hfinal] at hend
      exact .of_next hnext hend
    · rw [hfinal] at hturn
      exact .of_done hturn
  · obtain ⟨s', heq⟩ := restOfFrame_of_le_of_lt hpos (Nat.le_of_not_lt hload) hcut
    rw [heq, hfinal] at hturn
    refine .of_done (hturn.trans ?_)
    by_cases hbegun : nr < s.bytes.length
    · simp [hbegun, cutErr]
    · simp [hbegun, cutErr]

variable (hdst : c.dst.Reliable) (hrem : c.paddingType = .removePadding)

include hdst hrem

/-- The loop computes `unframe`, one frame a turn. -/
theorem ends_unframe {k : ℕ} {st : CopyState} (hlen : st.buf.len = bufferSize)
    (hk : st.numPadding + k = numFirstPaddings) (hfinal : st.src.final = .eof) :
    Loop.Ends (copyTurn c) st (.ok
      { sink := st.sink ++ (unframe k st.src.bytes).1
        written := st.written + (unframe k st.src.bytes).1.length
        err := cutErr (unframe k st.src.bytes).2 }) := by
  induction k generalizing st with
  | zero =>
    have hend := ends_raw hdst (show 0 < st.buf.len by rw [hlen]; decide) (Or.inr (by omega))
    rw [hfinal, if_pos rfl] at hend
    exact hend
  | succ k ih =>
    have hnum : st.numPadding < numFirstPaddings := by omega
    by_cases hshort : st.src.bytes.length < 3
    · have hend := ends_of_short hrem hlen hnum hshort
      rw [unframe_of_short hshort]
      simpa [cutErr, endErr, hfinal] using hend
    -- a turn that goes on leaves the rest to the induction
    have hnext : ∀ out src, TurnSpec c st out none src (st.numPadding + 1) → src.final = .eof →
        Loop.Ends (copyTurn c) st (.ok
          { sink := st.sink ++ (out ++ (unframe k src.bytes).1)
            written := st.written + (out ++ (unframe k src.bytes).1).length
            err := cutErr (unframe k src.bytes).2 }) := by
      rintro out src ⟨st', hturn, rfl, hsink, hwritten, hnum', hlen'⟩ hfinal'
      have hend := ih (hlen'.trans hlen) (by omega) hfinal'
      rw [hsink, hwritten, List.append_assoc, Nat.add_assoc, ← List.length_append] at hend
      exact .of_next hturn hend
    obtain ⟨h₀, h₁, h₂, s₁, hread, hsplit, hfinal₁⟩ := exists_header (Nat.le_of_not_lt hshort)
    rw [hfinal] at hfinal₁
    obtain ⟨nr, hnr⟩ : ∃ nr, h₀.toNat * 256 + h₁.toNat = nr := ⟨_, rfl⟩
    obtain ⟨paddingSize, hpad⟩ : ∃ paddingSize, h₂.toNat = paddingSize := ⟨_, rfl⟩
    have hturn := turnSpec_of_reads hdst (reads_remove_of_header hrem hlen hnum hread hnr hpad)
    rw [hsplit, unframe, hnr, hpad]
    dsimp only
    by_cases hzero : nr = 0
    · subst hzero
      obtain ⟨s₂, heq, hbytes₂, hfinal₂⟩ := restOfFrame_zero s₁ paddingSize
      rw [heq] at hturn
      have hend := hnext [] s₂ hturn (hfinal₂.trans hfinal₁)
      rwa [hbytes₂, List.nil_append] at hend
    have hpos : 0 < nr := Nat.pos_of_ne_zero hzero
    rw [if_neg hzero]
    by_cases hcut : s₁.bytes.length < nr + paddingSize
    · rw [if_pos hcut]
      exact ends_of_cut hlen hfinal₁ hpos hcut hturn
    · rw [if_neg hcut]
      obtain ⟨s₂, heq, hbytes₂, hfinal₂⟩ := restOfFrame_of_le hpos (Nat.le_of_not_lt hcut)
      rw [heq] at hturn
      have hend := hnext _ s₂ hturn (hfinal₂.trans hfinal₁)
      rwa [hbytes₂] at hend

/-- **Removing padding from any bytes**, however they are split into reads. -/
theorem flushingIoCopy_eq_unframe {src : Source} {buf : Buffer} (hlen : buf.len = bufferSize)
    (hfinal : src.final = .eof) :
    flushingIoCopy c src buf = some (.ok
      { sink := (unframe numFirstPaddings src.bytes).1
        written := (unframe numFirstPaddings src.bytes).1.length
        err := cutErr (unframe numFirstPaddings src.bytes).2 }) := by
  have hend := ends_unframe hdst hrem
    (show ({ buf := buf, src := src } : CopyState).buf.len = bufferSize from hlen)
    (Nat.zero_add numFirstPaddings) hfinal
  rw [List.nil_append, Nat.zero_add] at hend
  exact flushingIoCopy_eq (by rw [hlen]; decide) hend

end Copy

/-! ## Frames -/

/-- Padding without a payload does no harm: it is read as headers of empty frames. -/
def Frame.Harmless (f : Frame) : Prop :=
  f.payload = [] → ∃ m, f.padding = List.replicate (3 * m) 0

/-- How many turns a harmless frame takes. -/
def Frame.turns (f : Frame) : ℕ := if f.payload = [] then 1 + f.padding.length / 3 else 1

theorem Frame.Clean.harmless {f : Frame} (hclean : f.Clean) : f.Harmless :=
  fun hnil => ⟨0, hclean hnil⟩

theorem Frame.Clean.turns_eq {f : Frame} (hclean : f.Clean) : f.turns = 1 := by
  unfold Frame.turns
  split_ifs with hnil
  · rw [hclean hnil]
    rfl
  · rfl

theorem sum_turns_of_clean {fs : List Frame} (hclean : ∀ f ∈ fs, f.Clean) :
    (fs.map Frame.turns).sum = fs.length := by
  induction fs with
  | nil => rfl
  | cons f fs ih =>
    obtain ⟨hf, hfs⟩ := List.forall_mem_cons.mp hclean
    rw [List.map_cons, List.sum_cons, ih hfs, hf.turns_eq, List.length_cons, Nat.add_comm]

/-- Three zeros are an empty frame. -/
theorem unframe_zeros_append (k m : ℕ) (rest : List UInt8) :
    unframe (k + m) (List.replicate (3 * m) 0 ++ rest) = unframe k rest := by
  induction m with
  | zero => rfl
  | succ m ih =>
    have hzero : (0 : UInt8).toNat * 256 + (0 : UInt8).toNat = 0 := rfl
    rw [show 3 * (m + 1) = 3 * m + 1 + 1 + 1 by omega, List.replicate_succ, List.replicate_succ,
      List.replicate_succ, List.cons_append, List.cons_append, List.cons_append, ← Nat.add_assoc,
      unframe]
    dsimp only
    rw [if_pos hzero]
    exact ih

/-- A frame and what follows it. -/
theorem unframe_encode_append (k : ℕ) {f : Frame} (hf : f.Harmless) (rest : List UInt8) :
    unframe (k + f.turns) (f.encode ++ rest) =
      (f.payload ++ (unframe k rest).1, (unframe k rest).2) := by
  have hbytes : f.encode ++ rest = UInt8.ofNat (f.payload.length / 256) ::
      UInt8.ofNat (f.payload.length % 256) :: UInt8.ofNat f.padding.length ::
        (f.payload ++ (f.padding ++ rest)) := by
    simp [Frame.encode, Frame.header]
  by_cases hne : f.payload = []
  · obtain ⟨m, hm⟩ := hf hne
    have hturns : k + f.turns = k + m + 1 := by
      rw [Frame.turns, if_pos hne, hm, List.length_replicate]
      omega
    rw [hbytes, hturns, unframe, f.length_field, f.size_field, hne]
    dsimp only
    rw [if_pos List.length_nil, hm, List.nil_append, unframe_zeros_append]
    rfl
  · have hpos : 0 < f.payload.length := List.length_pos_iff.mpr hne
    have hdrop : (f.payload ++ (f.padding ++ rest)).drop (f.payload.length + f.padding.length) =
        rest := by
      rw [← List.drop_drop, List.drop_left, List.drop_left]
    rw [hbytes, Frame.turns, if_neg hne, unframe, f.length_field, f.size_field]
    dsimp only
    rw [if_neg (by omega), if_neg (by simp only [List.length_append]; omega), hdrop, List.take_left]

/-- Frames and what follows them. -/
theorem unframe_encodeFrames_append (k : ℕ) {fs : List Frame} (hfs : ∀ f ∈ fs, f.Harmless)
    (rest : List UInt8) :
    unframe (k + (fs.map Frame.turns).sum) (encodeFrames fs ++ rest) =
      (payloads fs ++ (unframe k rest).1, (unframe k rest).2) := by
  induction fs with
  | nil => rfl
  | cons f fs ih =>
    obtain ⟨hf, hrest⟩ := List.forall_mem_cons.mp hfs
    rw [List.map_cons, List.sum_cons, Nat.add_comm f.turns, ← Nat.add_assoc, encodeFrames_cons,
      List.append_assoc, unframe_encode_append _ hf, ih hrest, payloads_cons, List.append_assoc]

/-- A stream with naive padding, in which every frame has a payload. -/
theorem unframe_wire (w : FramedStream) (hne : ∀ f ∈ w.frames, f.payload ≠ []) :
    (unframe numFirstPaddings w.wire).1 = w.content := by
  have hclean : ∀ f ∈ w.frames, f.Clean := fun f hf hnil => absurd hnil (hne f hf)
  obtain ⟨k, hk⟩ : ∃ k, k + w.frames.length = numFirstPaddings :=
    ⟨_, Nat.sub_add_cancel w.length_le⟩
  have hraw : (unframe k w.raw).1 = w.raw := by
    rcases Nat.eq_zero_or_pos k with rfl | hpos
    · rfl
    · rw [w.raw_eq_nil (by omega), unframe_nil]
  rw [← hk, ← sum_turns_of_clean hclean, FramedStream.wire,
    unframe_encodeFrames_append k fun f hf => (hclean f hf).harmless, hraw]
  rfl

/-- What is left of a frame that is cut off within. -/
def Frame.CutTo (f : Frame) (part : List UInt8) : Prop :=
  part <+: f.encode ∧ part ≠ [] ∧ part ≠ f.encode

/-- **A frame that is cut off** anywhere: what is there of the payload is passed on, and the cut is
reported exactly if it is behind the first byte of the padding. -/
theorem unframe_of_isPrefix (k : ℕ) {f : Frame} (hclean : f.Clean) {part : List UInt8}
    (hpart : part <+: f.encode) (hproper : part ≠ f.encode) :
    unframe (k + 1) part = ((part.drop 3).take f.payload.length,
      decide (3 + f.payload.length < part.length)) := by
  by_cases hshort : part.length < 3
  · rw [unframe_of_short hshort, List.drop_of_length_le (by omega), List.take_nil,
      decide_eq_false (by omega)]
  have hthree : 3 ≤ part.length := Nat.le_of_not_lt hshort
  have hlt : part.length < f.payload.length + (3 + f.padding.length) := by
    rw [← f.length_encode]
    exact lt_of_le_of_ne hpart.length_le fun h => hproper (hpart.eq_of_length h)
  have hsplit : part = f.header ++ part.drop 3 := by
    obtain ⟨more, hmore⟩ := hpart
    have htake : (part ++ more).take 3 = part.take 3 := List.take_append_of_le_length hthree
    rw [hmore, show f.encode.take 3 = f.header from rfl] at htake
    rw [htake, List.take_append_drop]
  have hlength : part.length = 3 + (part.drop 3).length := by
    rw [List.length_drop]
    omega
  have hunframe : unframe (k + 1) part = unframe (k + 1) (f.header ++ part.drop 3) :=
    congrArg _ hsplit
  rw [hunframe, Frame.header, List.cons_append, List.cons_append, List.cons_append, List.nil_append,
    unframe, f.length_field, f.size_field]
  dsimp only
  -- a frame without a payload is only its header, of which something is missing
  have hne : f.payload.length ≠ 0 := by
    intro hzero
    have hpad := hclean (List.length_eq_zero_iff.mp hzero)
    rw [hpad, hzero, List.length_nil] at hlt
    omega
  rw [if_neg hne, if_pos (by omega)]
  congr 2
  rw [hlength]
  exact propext ⟨fun h => by omega, fun h => by omega⟩

/-- **Truncated streams.**  Let a stream with naive padding be cut off within a frame, and let the
part that is left arrive in any way.  Then `flushingIoCopy` returns.  If no frame up to the cut has
padding but no payload, it writes a part of the content, and it returns an error exactly if the cut
is behind the first byte of the padding.  The same holds if the frames in front of the cut have,
without a payload, only zeros in threes as padding, and the turns for these are not more than there
are. -/
theorem truncation_reported_iff (w : FramedStream) {before after : List Frame} {f : Frame}
    (hframes : w.frames = before ++ f :: after) {part : List UInt8} (hcut : f.CutTo part)
    {c : Copier} (hdst : c.dst.Reliable) (hrem : c.paddingType = .removePadding) {src : Source}
    (hbytes : src.bytes = encodeFrames before ++ part) (hfinal : src.final = .eof) {buf : Buffer}
    (hlen : buf.len = bufferSize) :
    ∃ res, flushingIoCopy c src buf = some (.ok res) ∧
      ((∀ g ∈ before ++ [f], g.Clean) → res.sink <+: w.content ∧
        (res.err ≠ none ↔ 3 + f.payload.length < part.length)) ∧
      ((∀ g ∈ before, g.Harmless) → f.Clean → (before.map Frame.turns).sum < numFirstPaddings →
        res.sink <+: w.content ∧ (res.err ≠ none ↔ 3 + f.payload.length < part.length)) := by
  have herr : ∀ reported, cutErr reported ≠ none ↔ reported = true := by decide
  obtain ⟨hpart, -, hproper⟩ := hcut
  obtain ⟨res, hres, hsink, hreserr⟩ : ∃ res, flushingIoCopy c src buf = some (.ok res) ∧
      res.sink = (unframe numFirstPaddings src.bytes).1 ∧
      res.err = cutErr (unframe numFirstPaddings src.bytes).2 :=
    ⟨_, flushingIoCopy_eq_unframe hdst hrem hlen hfinal, rfl, rfl⟩
  have hharmless : (∀ g ∈ before, g.Harmless) → f.Clean →
      (before.map Frame.turns).sum < numFirstPaddings →
      res.sink <+: w.content ∧ (res.err ≠ none ↔ 3 + f.payload.length < part.length) := by
    intro hbefore hf hturns
    obtain ⟨k, hk⟩ : ∃ k, k + 1 + (before.map Frame.turns).sum = numFirstPaddings :=
      ⟨numFirstPaddings - (before.map Frame.turns).sum - 1, by omega⟩
    have hunframe : unframe numFirstPaddings src.bytes = (payloads before ++
        (part.drop 3).take f.payload.length, decide (3 + f.payload.length < part.length)) := by
      rw [hbytes, ← hk, unframe_encodeFrames_append _ hbefore,
        unframe_of_isPrefix _ hf hpart hproper]
    rw [hsink, hreserr, hunframe]
    refine ⟨?_, (herr _).trans decide_eq_true_iff⟩
    have hpayload : (part.drop 3).take f.payload.length <+: f.payload := by
      have hdrop : part.drop 3 <+: f.payload ++ f.padding := hpart.drop 3
      have htake := hdrop.take f.payload.length
      rwa [List.take_left] at htake
    have hcontent : w.content = payloads before ++ (f.payload ++ (payloads after ++ w.raw)) := by
      rw [FramedStream.content, hframes]
      simp [payloads]
    rw [hcontent]
    exact (List.prefix_append_right_inj _).mpr (hpayload.trans (List.prefix_append _ _))
  refine ⟨res, hres, fun hclean => ?_, hharmless⟩
  obtain ⟨hbefore, hf⟩ := List.forall_mem_append.mp hclean
  refine hharmless (fun g hg => (hbefore g hg).harmless) (hf f (List.mem_singleton_self f)) ?_
  have hle := w.length_le
  rw [hframes, List.length_append, List.length_cons] at hle
  rw [sum_turns_of_clean hbefore]
  omega

/-- A frame with the payload `AB` and two bytes of padding. -/
def frameAB : Frame :=
  { payload := [65, 66], padding := [0, 0], payload_le := by decide, padding_le := by decide }

/-- The stream of this one frame. -/
def streamAB : FramedStream where
  frames := [frameAB]
  raw := []
  length_le := by decide
  raw_eq_nil := fun _ => rfl

/-- A frame without a payload and with three bytes of padding. -/
def emptyFrame : Frame :=
  { payload := [], padding := [0, 0, 0], payload_le := Nat.zero_le _, padding_le := by decide }

/-- Both frames. -/
def streamEmptyAB : FramedStream where
  frames := [emptyFrame, frameAB]
  raw := []
  length_le := by decide
  raw_eq_nil := fun _ => rfl

/-- Between the two bytes of the padding, the cut is reported; the frame in front of it takes two
turns. -/
theorem truncation_reported_iff_padding :
    ∃ res, flushingIoCopy (copier .removePadding)
        { chunks := [[0, 0, 3, 0], [0, 0, 0, 2], [2, 65, 66, 0]] } pooledBuffer = some (.ok res) ∧
      res.sink <+: streamEmptyAB.content ∧ res.err ≠ none := by
  have hharmless : ∀ g ∈ [emptyFrame], g.Harmless := by
    intro g hg _
    rw [List.mem_singleton.mp hg]
    exact ⟨1, rfl⟩
  have hclean : frameAB.Clean := fun hnil => absurd hnil (by decide)
  have hcut : frameAB.CutTo [0, 2, 2, 65, 66, 0] := ⟨⟨[0], rfl⟩, by decide, by decide⟩
  obtain ⟨res, hres, -, hreported⟩ := truncation_reported_iff streamEmptyAB
    (show streamEmptyAB.frames = [emptyFrame] ++ frameAB :: [] from rfl) hcut
    (c := copier .removePadding) (Writer.reliable_reliable true) rfl
    (show ({ chunks := [[0, 0, 3, 0], [0, 0, 0, 2], [2, 65, 66, 0]] } : Source).bytes =
      encodeFrames [emptyFrame] ++ _ from rfl)
    rfl (show pooledBuffer.len = bufferSize from rfl)
  obtain ⟨hsink, herr⟩ := hreported hharmless hclean (by decide)
  exact ⟨res, hres, hsink, herr.mpr (by decide)⟩

/-- In the middle of the payload, at the end of the header and within it, it is not. -/
theorem streamAB_cut_not_reported :
    streamAB.wire = [0, 2, 2, 65, 66, 0, 0] ∧
      flushingIoCopy (copier .removePadding) { chunks := [[0, 2, 2, 65]] } pooledBuffer =
        some (.ok { sink := [65], written := 1, err := none }) ∧
      flushingIoCopy (copier .removePadding) { chunks := [[0, 2, 2]] } pooledBuffer =
        some (.ok { sink := [], written := 0, err := none }) ∧
      flushingIoCopy (copier .removePadding) { chunks := [[0, 2]] } pooledBuffer =
        some (.ok { sink := [], written := 0, err := none }) := by
  have hcopy := fun chunks => flushingIoCopy_eq_unframe (c := copier .removePadding)
    (Writer.reliable_reliable true) rfl (show pooledBuffer.len = bufferSize from rfl)
    (show ({ chunks := chunks } : Source).final = .eof from rfl)
  exact ⟨rfl, (hcopy _).trans (by decide), (hcopy _).trans (by decide), (hcopy _).trans (by decide)⟩

end Padding
end ForwardProxy
