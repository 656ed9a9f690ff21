import ForwardProxy.Padding.Truncated
import ForwardProxy.Tunnel.DualStream

/-!
# The books of the two loops of a tunnel

The two loops of a tunnel share memory and nothing else, so each is looked at alone, with the memory
as it finds it.

* For the loop from the client, what the target has accepted, followed by what can still be decoded
  from the reader, begins the stream of the client (`Faithful`, `UpInv`).
* For the loop to the client, what was written, followed by what is still to be read, is the whole
  stream of the target, in frames where padding is added (`Carried`, `DownInv`).

Both are kept by every step of the loop (`UpInv.move`, `DownInv.move`), and by whatever happens to
buffers that the loop does not hold (`UpInv.congr`, `DownInv.congr`).
-/

namespace ForwardProxy
namespace Tunnel

open ForwardProxy.Core Padding

/-! ## The steps of a loop -/

/-- The moves of a loop: what it does, by where it stands. -/
inductive Copying.Move (c : Copier) (closes : Bool) (other : Option ℕ) (heap : ℕ → Buffer)
    (l : Copying) : Copying → (ℕ → Buffer) → Prop
  | take (b : ℕ) (hpc : l.pc = .entered) (hfree : other ≠ some b) :
      Move c closes other heap l { l with pc := .reading b } heap
  | read (b nr : ℕ) (er : Option IOErr) (st : CopyState) (hpc : l.pc = .reading b)
      (hread : readTurn c (l.withBuffer (heap b)) = .ok (nr, er, st)) :
      Move c closes other heap l (l.after st (.writing b nr er)) (Function.update heap b st.buf)
  | readPanic (b : ℕ) (p : Panic) (hpc : l.pc = .reading b)
      (hread : readTurn c (l.withBuffer (heap b)) = .error p) :
      Move c closes other heap l { l with pc := .panicked p } heap
  | writeFails (b nr : ℕ) (er : Option IOErr) (err : IOErr) (st : CopyState)
      (hpc : l.pc = .writing b nr er)
      (hwrite : writeTurn c nr (l.withBuffer (heap b)) = .ok (some err, st)) :
      Move c closes other heap l (l.after st (.copied b (some err))) heap
  | writeLast (b nr : ℕ) (e : IOErr) (st : CopyState) (hpc : l.pc = .writing b nr (some e))
      (hwrite : writeTurn c nr (l.withBuffer (heap b)) = .ok (none, st)) :
      Move c closes other heap l (l.after st (.copied b (endErr e))) heap
  | write (b nr : ℕ) (st : CopyState) (hpc : l.pc = .writing b nr none)
      (hwrite : writeTurn c nr (l.withBuffer (heap b)) = .ok (none, st)) :
      Move c closes other heap l (l.after st (.reading b)) heap
  | writePanic (b nr : ℕ) (er : Option IOErr) (p : Panic) (hpc : l.pc = .writing b nr er)
      (hwrite : writeTurn c nr (l.withBuffer (heap b)) = .error p) :
      Move c closes other heap l { l with pc := .panicked p } heap
  | giveBack (b : ℕ) (err : Option IOErr) (hpc : l.pc = .copied b err) :
      Move c closes other heap l { l with pc := .closing err } heap
  | close (err : Option IOErr) (hpc : l.pc = .closing err) :
      Move c closes other heap l { l with pc := .returned err, halfClosed := closes } heap

theorem Copying.move_of_step {dst : Writer} {closes : Bool} {rand : ℕ → Fin 256} {other : Option ℕ}
    {heap heap' : ℕ → Buffer} {l l' : Copying} {buf : ℕ}
    (h : l.step dst closes rand other heap buf = some (l', heap')) :
    l.Move { dst := dst, paddingType := l.paddingType, rand := rand } closes other heap
      l' heap' := by
  simp only [Copying.step] at h
  split at h
  · rename_i hpc
    split_ifs at h with hfree
    obtain ⟨rfl, rfl⟩ := Prod.mk.inj (Option.some_inj.mp h)
    exact .take buf hpc hfree
  · rename_i b hpc
    split at h
    · rename_i p hread
      obtain ⟨rfl, rfl⟩ := Prod.mk.inj (Option.some_inj.mp h)
      exact .readPanic b p hpc hread
    · rename_i nr er st hread
      obtain ⟨rfl, rfl⟩ := Prod.mk.inj (Option.some_inj.mp h)
      exact .read b nr er st hpc hread
  · rename_i b nr er hpc
    split at h
    · rename_i p hwrite
      obtain ⟨rfl, rfl⟩ := Prod.mk.inj (Option.some_inj.mp h)
      exact .writePanic b nr er p hpc hwrite
    · rename_i err st hwrite
      obtain ⟨rfl, rfl⟩ := Prod.mk.inj (Option.some_inj.mp h)
      exact .writeFails b nr er err st hpc hwrite
    · rename_i st hwrite
      cases er with
      | some e =>
        obtain ⟨rfl, rfl⟩ := Prod.mk.inj (Option.some_inj.mp h)
        exact .writeLast b nr e st hpc hwrite
      | none =>
        obtain ⟨rfl, rfl⟩ := Prod.mk.inj (Option.some_inj.mp h)
        exact .write b nr st hpc hwrite
  · rename_i b err hpc
    obtain ⟨rfl, rfl⟩ := Prod.mk.inj (Option.some_inj.mp h)
    exact .giveBack b err hpc
  · rename_i err hpc
    obtain ⟨rfl, rfl⟩ := Prod.mk.inj (Option.some_inj.mp h)
    exact .close err hpc
  · exact absurd h (by simp)
  · exact absurd h (by simp)

/-! ## The buffers -/

/-- A loop writes to no buffer but its own, and keeps its size. -/
theorem Copying.Move.heap {c : Copier} {closes : Bool} {other : Option ℕ} {heap heap' : ℕ → Buffer}
    {l l' : Copying} (h : l.Move c closes other heap l' heap')
    (hlen : ∀ b, (heap b).len = bufferSize) :
    (∀ b, l.pc.holds ≠ some b → heap' b = heap b) ∧ ∀ b, (heap' b).len = bufferSize := by
  cases h with
  | read b nr er st hpc hread =>
    refine ⟨fun b' hb => Function.update_of_ne ?_ .., fun b' => ?_⟩
    · rintro rfl
      exact hb (by rw [hpc]; rfl)
    · by_cases hb : b' = b
      · subst hb
        rw [Function.update_self]
        have hpos : 0 < (l.withBuffer (heap b')).buf.len := by
          show 0 < (heap b').len
          rw [hlen]
          decide
        exact (progresses_readTurn hpos hread).1.trans (hlen b')
      · rw [Function.update_of_ne hb]
        exact hlen b'
  | _ => exact ⟨fun _ _ => rfl, hlen⟩

/-- A loop holds the buffer it held, or one that it has just been given, or none. -/
theorem Copying.Move.holds {c : Copier} {closes : Bool} {other : Option ℕ} {heap heap' : ℕ → Buffer}
    {l l' : Copying} (h : l.Move c closes other heap l' heap') {b : ℕ} (hb : l'.pc.holds = some b) :
    l.pc.holds = some b ∨ other ≠ some b := by
  cases h with
  | take b' hpc hfree =>
    obtain rfl : b' = b := Option.some_inj.mp hb
    exact .inr hfree
  | read b' nr er st hpc hread => exact .inl (by rw [hpc]; exact hb)
  | writeFails b' nr er err st hpc hwrite => exact .inl (by rw [hpc]; exact hb)
  | writeLast b' nr e st hpc hwrite => exact .inl (by rw [hpc]; exact hb)
  | write b' nr st hpc hwrite => exact .inl (by rw [hpc]; exact hb)
  | _ => exact absurd hb nofun

theorem Copying.Move.paddingType {c : Copier} {closes : Bool} {other : Option ℕ}
    {heap heap' : ℕ → Buffer} {l l' : Copying} (h : l.Move c closes other heap l' heap') :
    l'.paddingType = l.paddingType := by
  cases h with
  | _ => rfl

/-- What was read and is not yet written. -/
def Copying.out (l : Copying) (heap : ℕ → Buffer) : List UInt8 :=
  match l.pc with
  | .writing b nr _ => (heap b).take nr
  | _ => []

theorem Copying.out_congr {l : Copying} {heap heap' : ℕ → Buffer}
    (h : ∀ b, l.pc.holds = some b → heap' b = heap b) : l.out heap' = l.out heap := by
  unfold Copying.out
  cases hpc : l.pc with
  | writing b nr er =>
    dsimp only
    rw [h b (by rw [hpc]; rfl)]
  | _ => rfl

/-- The loop still copies. -/
def Pc.isCopying : Pc → Bool
  | .entered => true
  | .reading _ => true
  | .writing _ _ _ => true
  | _ => false

/-! ## From the client to the target -/

/-- What was accepted, followed by what the loop can still make of its reader, begins the
content. -/
def Faithful (content : List UInt8) (paddingType : PaddingType) (sink : List UInt8) (src : Source)
    (numPadding : ℕ) : Prop :=
  match paddingType with
  | .noPadding => sink ++ src.bytes <+: content
  | .removePadding => sink ++ (unframe (numFirstPaddings - numPadding) src.bytes).1 <+: content
  | .addPadding => False

variable {content sink : List UInt8} {src : Source} {numPadding : ℕ}

theorem Faithful.isPrefix {paddingType : PaddingType}
    (h : Faithful content paddingType sink src numPadding) : sink <+: content := by
  cases paddingType with
  | noPadding => exact (List.prefix_append sink src.bytes).trans h
  | removePadding => exact (List.prefix_append sink _).trans h
  | addPadding => exact absurd h id

/-- The end of the stream may get lost. -/
theorem Faithful.cut {paddingType : PaddingType}
    (h : Faithful content paddingType sink src numPadding) {src' : Source}
    (hsrc : src'.bytes <+: src.bytes) : Faithful content paddingType sink src' numPadding := by
  cases paddingType with
  | noPadding => exact ((List.prefix_append_right_inj sink).mpr hsrc).trans h
  | removePadding => exact ((List.prefix_append_right_inj sink).mpr (unframe_mono _ hsrc)).trans h
  | addPadding => exact h

/-- A read that finds the stream in order leaves it in order. -/
def ReadsFaithful (c : Copier) (st : CopyState) (content sink : List UInt8) : Prop :=
  ∃ out er st', Reads c st out er st' ∧
    Faithful content c.paddingType (sink ++ out) st'.src st'.numPadding

theorem Faithful.read_noPadding {c : Copier} {st : CopyState} (hno : c.paddingType = .noPadding)
    (h : Faithful content .noPadding sink st.src st.numPadding) :
    ReadsFaithful c st content sink := by
  refine ⟨_, _, _, reads_raw (.inl hno), ?_⟩
  rw [hno]
  show sink ++ (st.src.read st.buf.len).1.1 ++ (st.src.read st.buf.len).2.bytes <+: content
  rw [List.append_assoc, ← (st.src.readSpec st.buf.len).bytes]
  exact h

theorem Faithful.read_removePadding {c : Copier} {st : CopyState}
    (hrem : c.paddingType = .removePadding) (hlen : st.buf.len = bufferSize)
    (h : Faithful content .removePadding sink st.src st.numPadding) :
    ReadsFaithful c st content sink := by
  have hflow : sink ++ (unframe (numFirstPaddings - st.numPadding) st.src.bytes).1 <+: content := h
  rcases Nat.lt_or_ge st.numPadding numFirstPaddings with hnum | hnum
  · obtain ⟨k, hk⟩ : ∃ k, st.numPadding + (k + 1) = numFirstPaddings :=
      ⟨numFirstPaddings - st.numPadding - 1, by omega⟩
    obtain ⟨out, er, st', hreads, hnum', hunframe⟩ := reads_remove_unframe hrem hlen hk
    refine ⟨out, er, st', hreads, ?_⟩
    rw [show numFirstPaddings - st.numPadding = k + 1 by omega, hunframe,
      ← List.append_assoc] at hflow
    rw [hrem, Faithful, hnum', show numFirstPaddings - (st.numPadding + 1) = k by omega]
    exact hflow
  · -- behind the frames the bytes are passed on as they are
    refine ⟨_, _, _, reads_raw (.inr hnum), ?_⟩
    rw [hrem]
    show sink ++ (st.src.read st.buf.len).1.1 ++ (unframe (numFirstPaddings - st.numPadding)
      (st.src.read st.buf.len).2.bytes).1 <+: content
    rw [Nat.sub_eq_zero_of_le hnum] at hflow ⊢
    rw [List.append_assoc]
    show sink ++ ((st.src.read st.buf.len).1.1 ++ (st.src.read st.buf.len).2.bytes) <+: content
    rw [← (st.src.readSpec st.buf.len).bytes]
    exact hflow

theorem Faithful.read {c : Copier} (st : CopyState) (hlen : st.buf.len = bufferSize)
    (h : Faithful content c.paddingType sink st.src st.numPadding) :
    ReadsFaithful c st content sink := by
  cases htype : c.paddingType with
  | noPadding =>
    rw [htype] at h
    exact h.read_noPadding htype
  | removePadding =>
    rw [htype] at h
    exact h.read_removePadding htype hlen
  | addPadding =>
    rw [htype] at h
    exact absurd h id

/-- The books of the loop from the client. -/
structure UpInv (w : Writer) (content : List UInt8) (heap : ℕ → Buffer) (l : Copying) : Prop where
  sink : l.sink <+: content
  /-- While it copies the stream is in order, or the target has failed. -/
  flow : l.pc.isCopying = true →
    Faithful content l.paddingType (l.sink ++ l.out heap) l.src l.numPadding ∨ w.DeadFrom l.writes
  /-- The target is half closed only at the end. -/
  closed : l.halfClosed = true → ∃ err, l.pc = .returned err

theorem UpInv.congr {w : Writer} {heap heap' : ℕ → Buffer} {l : Copying}
    (h : UpInv w content heap l) (hheap : ∀ b, l.pc.holds = some b → heap' b = heap b) :
    UpInv w content heap' l := by
  refine ⟨h.sink, ?_, h.closed⟩
  rw [Copying.out_congr hheap]
  exact h.flow

theorem UpInv.cut {w : Writer} {heap : ℕ → Buffer} {l : Copying} (h : UpInv w content heap l)
    {src : Source} (hsrc : src.bytes <+: l.src.bytes) :
    UpInv w content heap { l with src := src } := by
  refine ⟨h.sink, fun hcopying => ?_, h.closed⟩
  rcases h.flow hcopying with hflow | hdead
  · exact .inl (hflow.cut hsrc)
  · exact .inr hdead

/-- What a write does to the books: all that was read is accepted, or the loop ends with a part of
it. -/
theorem UpInv.write {w : Writer} {c : Copier} (hdst : c.dst = w)
    {heap : ℕ → Buffer} {l : Copying} (h : UpInv w content heap l) {b nr : ℕ}
    {er err : Option IOErr} {st : CopyState} (hpc : l.pc = .writing b nr er)
    (hwrite : writeTurn c nr (l.withBuffer (heap b)) = .ok (err, st)) :
    st.sink <+: content ∧ st.src = l.src ∧ st.numPadding = l.numPadding ∧
      (err = none → Faithful content l.paddingType st.sink l.src l.numPadding ∨
        w.DeadFrom st.writes) := by
  have hflow := h.flow (by rw [hpc]; rfl)
  have hout : l.out heap = (heap b).take nr := by rw [Copying.out, hpc]
  rw [hout] at hflow
  rcases writeTurn_cases hwrite with ⟨rfl, -, rfl⟩ | ⟨nw, ew, written, hans, rfl, hok, herr⟩
  · refine ⟨h.sink, rfl, rfl, fun _ => ?_⟩
    rcases hflow with hflow | hdead
    · rw [show (heap b).take 0 = [] from rfl, List.append_nil] at hflow
      exact .inl hflow
    · exact .inr hdead
  · rw [hdst] at hans
    show l.sink ++ ((heap b).take nr).take nw <+: content ∧ _ ∧ _ ∧
      (_ → Faithful content l.paddingType (l.sink ++ ((heap b).take nr).take nw) _ _ ∨ _)
    rcases hflow with hflow | hdead
    · refine ⟨?_, rfl, rfl, fun hnone => .inl ?_⟩
      · exact ((List.prefix_append_right_inj l.sink).mpr (List.take_prefix nw _)).trans
          hflow.isPrefix
      · have hlen : ((heap b).take nr).length ≤ nw := by
          rw [(hok hnone).2]
          simp [Buffer.take]
        rw [List.take_of_length_le hlen]
        exact hflow
    · obtain ⟨e, he⟩ := hdead l.writes le_rfl ((heap b).take nr)
      obtain ⟨rfl, rfl⟩ := Prod.mk.inj (hans.symm.trans he)
      refine ⟨?_, rfl, rfl, fun hnone => absurd hnone (herr (Option.some_ne_none e))⟩
      rw [List.take_zero, List.append_nil]
      exact h.sink

theorem UpInv.move {w : Writer} {c : Copier} (hdst : c.dst = w) {closes : Bool} {other : Option ℕ}
    {heap heap' : ℕ → Buffer} {l l' : Copying} (htype : c.paddingType = l.paddingType)
    (hlen : ∀ b, (heap b).len = bufferSize) (h : UpInv w content heap l)
    (hm : l.Move c closes other heap l' heap') : UpInv w content heap' l' := by
  have hopen : (∀ err, l.pc ≠ .returned err) → l.halfClosed = true →
      ∃ err, l'.pc = .returned err := by
    intro hne hclosed
    obtain ⟨err, herr⟩ := h.closed hclosed
    exact absurd herr (hne err)
  cases hm with
  | take b hpc hfree =>
    refine ⟨h.sink, fun _ => ?_, hopen (by simp [hpc])⟩
    have hflow := h.flow (by rw [hpc]; rfl)
    rw [Copying.out, hpc] at hflow
    exact hflow
  | read b nr er st hpc hread =>
    obtain ⟨hsink, hwrites⟩ := readTurn_sink hread
    refine ⟨?_, fun _ => ?_, hopen (by simp [hpc])⟩
    · show st.sink <+: content
      rw [show st.sink = l.sink from hsink]
      exact h.sink
    · have hflow := h.flow (by rw [hpc]; rfl)
      rw [Copying.out, hpc, List.append_nil] at hflow
      rcases hflow with hflow | hdead
      · -- the read is the one that keeps the stream in order
        rw [← htype] at hflow
        obtain ⟨out, er', st', hreads, hflow'⟩ := Faithful.read (c := c)
          (l.withBuffer (heap b)) (hlen b) hflow
        obtain ⟨rfl, rfl, rfl⟩ : out.length = nr ∧ er' = er ∧ st' = st := by
          simpa using hreads.eq.symm.trans hread
        left
        show Faithful content l.paddingType (st'.sink ++ (Function.update heap b st'.buf b).take _)
          st'.src st'.numPadding
        rw [Function.update_self, hreads.take, show st'.sink = l.sink from hsink, ← htype]
        exact hflow'
      · right
        show w.DeadFrom st.writes
        rw [show st.writes = l.writes from hwrites]
        exact hdead
  | writeFails b nr er err st hpc hwrite =>
    exact ⟨(h.write hdst hpc hwrite).1, nofun, hopen (by simp [hpc])⟩
  | writeLast b nr e st hpc hwrite =>
    exact ⟨(h.write hdst hpc hwrite).1, nofun, hopen (by simp [hpc])⟩
  | write b nr st hpc hwrite =>
    obtain ⟨hsink, hsrc, hnum, hflow⟩ := h.write hdst hpc hwrite
    refine ⟨hsink, fun _ => ?_, hopen (by simp [hpc])⟩
    show Faithful content l.paddingType (st.sink ++ []) st.src st.numPadding ∨ w.DeadFrom st.writes
    rw [List.append_nil, hsrc, hnum]
    exact hflow rfl
  | readPanic b p hpc hread => exact ⟨h.sink, nofun, hopen (by simp [hpc])⟩
  | writePanic b nr er p hpc hwrite => exact ⟨h.sink, nofun, hopen (by simp [hpc])⟩
  | giveBack b err hpc => exact ⟨h.sink, nofun, hopen (by simp [hpc])⟩
  | close err hpc => exact ⟨h.sink, nofun, fun _ => ⟨err, rfl⟩⟩

/-! ## From the target to the client -/

/-- What was written are frames and the bytes behind them; they carry what was read.  If every read
delivers something, bytes follow only when all the frames are there. -/
structure Framed (total : List UInt8) (eager : Prop) (sink : List UInt8) (src : Source)
    (numPadding : ℕ) (fs : List Frame) (raw : List UInt8) : Prop where
  sink : sink = encodeFrames fs ++ raw
  total : payloads fs ++ (raw ++ src.bytes) = total
  length_le : fs.length ≤ numPadding
  numPadding_le : numPadding ≤ numFirstPaddings
  raw_eq_nil : numPadding < numFirstPaddings → raw = []
  payload : ∀ f ∈ fs, f.payload ≠ []
  eager : eager → src.Eager ∧ (fs.length = numPadding ∨ raw = [] ∧ src.bytes = [])

/-- What was written, followed by what is left, is all there is. -/
def Carried (total : List UInt8) (eager : Prop) (paddingType : PaddingType) (sink : List UInt8)
    (src : Source) (numPadding : ℕ) : Prop :=
  match paddingType with
  | .noPadding => sink ++ src.bytes = total
  | .addPadding => ∃ fs raw, Framed total eager sink src numPadding fs raw
  | .removePadding => False

variable {total : List UInt8} {eager : Prop}

theorem payloads_append (fs gs : List Frame) : payloads (fs ++ gs) = payloads fs ++ payloads gs :=
  List.flatMap_append

/-- What a read does to the books of the loop to the client: it leaves them in order, and if it
reports something it is the last one. -/
def ReadsFramed (c : Copier) (st : CopyState) (total : List UInt8) (eager : Prop)
    (sink : List UInt8) : Prop :=
  ∃ out er st', Reads c st out er st' ∧
    (∃ fs raw, Framed total eager (sink ++ out) st'.src st'.numPadding fs raw) ∧
    st'.src.final = st.src.final ∧ ∀ e, er = some e → e = st.src.final ∧ st'.src.bytes = []

section Framed

variable {c : Copier} {st : CopyState} {fs : List Frame} {raw p : List UInt8} {er : Option IOErr}
  (hadd : c.paddingType = .addPadding) (hlen : st.buf.len = bufferSize)
  (h : Framed total eager sink st.src st.numPadding fs raw)

include hadd hlen h

/-- A read that delivers nothing leaves the frames as they are. -/
theorem Framed.read_nil (hnum : st.numPadding < numFirstPaddings)
    (hread : st.src.read (65536 - 3 - c.rand st.numPadding - 3) = (([], er), src)) :
    ReadsFramed c st total eager sink := by
  have hsize := (c.rand st.numPadding).isLt
  have hspec := st.src.readSpec (65536 - 3 - c.rand st.numPadding - 3)
  rw [hread] at hspec
  have htotal := h.total
  rw [hspec.bytes, h.raw_eq_nil hnum, List.nil_append] at htotal
  refine ⟨[], er, _, reads_add_nil hadd hlen hnum hread, ⟨fs, [], ?_, htotal,
    Nat.le_succ_of_le h.length_le, hnum, fun _ => rfl, h.payload, fun he => ?_⟩,
      hspec.final, hspec.last⟩
  · rw [h.sink, h.raw_eq_nil hnum, List.append_nil, List.append_nil]
  · -- an eager reader delivers nothing only at its end
    obtain ⟨heager, hnil⟩ :=
      (h.eager he).1.read (n := 65536 - 3 - c.rand st.numPadding - 3) (by omega)
    rw [hread] at heager hnil
    have hbytes := hspec.bytes
    rw [(hnil rfl).1] at hbytes
    exact ⟨heager, .inr ⟨rfl, (List.append_eq_nil_iff.mp hbytes.symm).2⟩⟩

/-- A read that delivers something becomes the next frame. -/
theorem Framed.read_frame (hnum : st.numPadding < numFirstPaddings)
    (hread : st.src.read (65536 - 3 - c.rand st.numPadding - 3) = ((p, er), src)) (hp : p ≠ []) :
    ReadsFramed c st total eager sink := by
  have hsize := (c.rand st.numPadding).isLt
  have hspec := st.src.readSpec (65536 - 3 - c.rand st.numPadding - 3)
  rw [hread] at hspec
  have htotal := h.total
  rw [hspec.bytes, h.raw_eq_nil hnum, List.nil_append] at htotal
  obtain ⟨buf, hreads⟩ := reads_add hadd hlen hnum hread hp hspec.length_le
  refine ⟨_, er, _, hreads, ⟨fs ++ [frameOf p (c.rand st.numPadding) hspec.length_le], [], ?_, ?_,
    ?_, hnum, fun _ => rfl, ?_, fun he => ⟨?_, .inl ?_⟩⟩, hspec.final, hspec.last⟩
  · rw [h.sink, h.raw_eq_nil hnum, encodeFrames_append, encodeFrames_cons, encodeFrames_nil]
    simp
  · rw [payloads_append, payloads_cons, payloads_nil, ← htotal]
    simp [frameOf]
  · rw [List.length_append]
    exact Nat.succ_le_succ h.length_le
  · intro f hf
    rcases List.mem_append.mp hf with hf | hf
    · exact h.payload f hf
    · rw [List.mem_singleton.mp hf]
      exact hp
  · have := ((h.eager he).1.read (n := 65536 - 3 - c.rand st.numPadding - 3) (by omega)).1
    rwa [hread] at this
  · rcases (h.eager he).2 with hcount | ⟨-, hnil⟩
    · rw [List.length_append, hcount]
      rfl
    · exact absurd (List.append_eq_nil_iff.mp (hspec.bytes.symm.trans hnil)).1 hp

omit hadd in
/-- A read behind the frames appends what it delivers. -/
theorem Framed.read_raw (hnum : numFirstPaddings ≤ st.numPadding) :
    ReadsFramed c st total eager sink := by
  have hspec := st.src.readSpec st.buf.len
  refine ⟨_, _, _, reads_raw (.inr hnum), ⟨fs, raw ++ (st.src.read st.buf.len).1.1, ?_, ?_,
    h.length_le, h.numPadding_le, fun hlt => absurd hlt (Nat.not_lt.mpr hnum), h.payload,
    fun he => ?_⟩, hspec.final, hspec.last⟩
  · rw [h.sink, List.append_assoc]
  · rw [← h.total, List.append_assoc, hspec.bytes]
    rfl
  · obtain ⟨heager, hcount⟩ := h.eager he
    refine ⟨(heager.read (by rw [hlen]; decide)).1, ?_⟩
    rcases hcount with hcount | ⟨rfl, hnil⟩
    · exact .inl hcount
    · obtain ⟨hp, hs⟩ := List.append_eq_nil_iff.mp (hspec.bytes.symm.trans hnil)
      exact .inr ⟨by rw [hp]; rfl, hs⟩

theorem Framed.read : ReadsFramed c st total eager sink := by
  by_cases hnum : st.numPadding < numFirstPaddings
  · rcases hread : st.src.read (65536 - 3 - c.rand st.numPadding - 3) with ⟨⟨p, er⟩, src⟩
    by_cases hp : p = []
    · subst hp
      exact h.read_nil hadd hlen hnum hread
    · exact h.read_frame hadd hlen hnum hread hp
  · exact h.read_raw hlen (Nat.le_of_not_lt hnum)

end Framed

theorem Carried.read {c : Copier} (st : CopyState) (hlen : st.buf.len = bufferSize)
    (h : Carried total eager c.paddingType sink st.src st.numPadding) :
    ∃ out er st', Reads c st out er st' ∧
      Carried total eager c.paddingType (sink ++ out) st'.src st'.numPadding ∧
      st'.src.final = st.src.final ∧ ∀ e, er = some e → e = st.src.final ∧ st'.src.bytes = [] := by
  cases htype : c.paddingType with
  | noPadding =>
    rw [htype] at h
    have hspec := st.src.readSpec st.buf.len
    refine ⟨_, _, _, reads_raw (.inl htype), ?_, hspec.final, hspec.last⟩
    show sink ++ (st.src.read st.buf.len).1.1 ++ (st.src.read st.buf.len).2.bytes = total
    rw [List.append_assoc, ← hspec.bytes]
    exact h
  | addPadding =>
    rw [htype] at h
    obtain ⟨fs, raw, h⟩ := h
    exact h.read htype hlen
  | removePadding =>
    rw [htype] at h
    exact absurd h id

/-- What a loop that is left returns. -/
def Pc.result : Pc → Option (Option IOErr)
  | .copied _ err => some err
  | .closing err => some err
  | .returned err => some err
  | _ => none

/-- The books of the loop to the client. -/
structure DownInv (w : Writer) (total : List UInt8) (eager : Prop) (final : IOErr)
    (heap : ℕ → Buffer) (l : Copying) : Prop where
  flow : l.pc.isCopying = true →
    Carried total eager l.paddingType (l.sink ++ l.out heap) l.src l.numPadding ∧
      l.src.final = final
  /-- A read that reports something is the last one. -/
  last : ∀ b nr er, l.pc = .writing b nr er → nr ≤ bufferSize ∧
    ∀ e, er = some e → e = final ∧ l.src.bytes = []
  /-- Without an error everything was read and written. -/
  ended : l.pc.result = some none → final = .eof ∧ l.src.bytes = [] ∧
    Carried total eager l.paddingType l.sink l.src l.numPadding
  reliable : w.Reliable → ∀ err, l.pc.result = some err → err = endErr final
  running : ∀ p, l.pc ≠ .panicked p

theorem DownInv.congr {w : Writer} {final : IOErr} {heap heap' : ℕ → Buffer} {l : Copying}
    (h : DownInv w total eager final heap l)
    (hheap : ∀ b, l.pc.holds = some b → heap' b = heap b) :
    DownInv w total eager final heap' l := by
  refine ⟨?_, h.last, h.ended, h.reliable, h.running⟩
  rw [Copying.out_congr hheap]
  exact h.flow

/-- What a write does to the books, if the loop goes on. -/
theorem DownInv.write {w : Writer} {final : IOErr} {c : Copier} {heap : ℕ → Buffer} {l : Copying}
    (h : DownInv w total eager final heap l) {b nr : ℕ} {er : Option IOErr} {st : CopyState}
    (hpc : l.pc = .writing b nr er)
    (hwrite : writeTurn c nr (l.withBuffer (heap b)) = .ok (none, st)) :
    Carried total eager l.paddingType st.sink st.src st.numPadding ∧ st.src = l.src := by
  have hflow := (h.flow (by rw [hpc]; rfl)).1
  have hout : l.out heap = (heap b).take nr := by rw [Copying.out, hpc]
  rw [hout] at hflow
  rcases writeTurn_cases hwrite with ⟨rfl, -, rfl⟩ | ⟨nw, ew, written, -, rfl, hok, -⟩
  · rw [show (heap b).take 0 = [] from rfl, List.append_nil] at hflow
    exact ⟨hflow, rfl⟩
  · refine ⟨?_, rfl⟩
    show Carried total eager l.paddingType (l.sink ++ ((heap b).take nr).take nw) l.src l.numPadding
    have hlen : ((heap b).take nr).length ≤ nw := by
      rw [(hok rfl).2]
      simp [Buffer.take]
    rw [List.take_of_length_le hlen]
    exact hflow

/-- The books at the head of the loop. -/
theorem DownInv.of_reading {w : Writer} {final : IOErr} {heap : ℕ → Buffer} {l : Copying} {b : ℕ}
    (hpc : l.pc = .reading b) (hflow : Carried total eager l.paddingType l.sink l.src l.numPadding)
    (hfinal : l.src.final = final) : DownInv w total eager final heap l where
  flow _ := by
    rw [Copying.out, hpc, List.append_nil]
    exact ⟨hflow, hfinal⟩
  last b nr er h := by simp [hpc] at h
  ended h := by simp [hpc, Pc.result] at h
  reliable _ err h := by simp [hpc, Pc.result] at h
  running p := by simp [hpc]

/-- The books between a read and the write of it. -/
theorem DownInv.of_writing {w : Writer} {final : IOErr} {heap : ℕ → Buffer} {l : Copying} {b nr : ℕ}
    {er : Option IOErr} (hpc : l.pc = .writing b nr er)
    (hflow : Carried total eager l.paddingType (l.sink ++ (heap b).take nr) l.src l.numPadding)
    (hfinal : l.src.final = final) (hnr : nr ≤ bufferSize)
    (hlast : ∀ e, er = some e → e = final ∧ l.src.bytes = []) :
    DownInv w total eager final heap l where
  flow _ := by
    rw [Copying.out, hpc]
    exact ⟨hflow, hfinal⟩
  last b' nr' er' h := by
    obtain ⟨-, rfl, rfl⟩ := Pc.writing.inj (hpc.symm.trans h)
    exact ⟨hnr, hlast⟩
  ended h := by simp [hpc, Pc.result] at h
  reliable _ err h := by simp [hpc, Pc.result] at h
  running p := by simp [hpc]

/-- The books when the loop is left. -/
theorem DownInv.of_result {w : Writer} {final : IOErr} {heap : ℕ → Buffer} {l : Copying}
    {err : Option IOErr} (hpc : l.pc.result = some err)
    (hended : err = none → final = .eof ∧ l.src.bytes = [] ∧
      Carried total eager l.paddingType l.sink l.src l.numPadding)
    (hreliable : w.Reliable → err = endErr final) : DownInv w total eager final heap l where
  flow h := by cases hl : l.pc <;> simp [hl, Pc.result, Pc.isCopying] at hpc h
  last b nr er h := by simp [h, Pc.result] at hpc
  ended h := hended (Option.some_inj.mp (hpc.symm.trans h))
  reliable hrel err' h := (Option.some_inj.mp (h.symm.trans hpc)).trans (hreliable hrel)
  running p h := by simp [h, Pc.result] at hpc

theorem DownInv.move {w : Writer} {final : IOErr} {c : Copier} (hdst : c.dst = w) {closes : Bool}
    {other : Option ℕ} {heap heap' : ℕ → Buffer} {l l' : Copying}
    (htype : c.paddingType = l.paddingType) (hlen : ∀ b, (heap b).len = bufferSize)
    (h : DownInv w total eager final heap l) (hm : l.Move c closes other heap l' heap') :
    DownInv w total eager final heap' l' := by
  cases hm with
  | take b hpc hfree =>
    have hflow := h.flow (by rw [hpc]; rfl)
    rw [Copying.out, hpc, List.append_nil] at hflow
    exact .of_reading rfl hflow.1 hflow.2
  | read b nr er st hpc hread =>
    have hflow := h.flow (by rw [hpc]; rfl)
    rw [Copying.out, hpc, List.append_nil, ← htype] at hflow
    obtain ⟨out, er', st', hreads, hflow', hfinal, hlast⟩ := Carried.read (c := c)
      (l.withBuffer (heap b)) (hlen b) hflow.1
    obtain ⟨rfl, rfl, rfl⟩ : out.length = nr ∧ er' = er ∧ st' = st := by
      simpa using hreads.eq.symm.trans hread
    refine .of_writing rfl ?_ (hfinal.trans hflow.2) ?_ ?_
    · show Carried total eager l.paddingType (st'.sink ++ (Function.update heap b st'.buf b).take _)
        st'.src st'.numPadding
      rw [Function.update_self, hreads.take, show st'.sink = l.sink from hreads.sink, ← htype]
      exact hflow'
    · exact (hreads.le.trans hreads.len.le).trans (hlen b).le
    · intro e he
      obtain ⟨hefinal, hbytes⟩ := hlast e he
      exact ⟨hefinal.trans hflow.2, hbytes⟩
  | readPanic b p hpc hread =>
    have hflow := h.flow (by rw [hpc]; rfl)
    rw [Copying.out, hpc, List.append_nil, ← htype] at hflow
    obtain ⟨out, er', st', hreads, -⟩ := Carried.read (c := c) (l.withBuffer (heap b)) (hlen b)
      hflow.1
    exact absurd (hreads.eq.symm.trans hread) (by simp)
  | writeFails b nr er err st hpc hwrite =>
    refine .of_result rfl (fun hnone => absurd hnone (Option.some_ne_none err)) fun hrel => ?_
    subst hdst
    have hnr : nr ≤ (l.withBuffer (heap b)).buf.len := (h.last b nr er hpc).1.trans (hlen b).ge
    obtain ⟨writes, hok⟩ := writeTurn_eq (c := c) hrel hnr
    exact absurd (hwrite.symm.trans hok) (by simp)
  | writeLast b nr e st hpc hwrite =>
    obtain ⟨hflow, hsrc⟩ := h.write hpc hwrite
    obtain ⟨rfl, hbytes⟩ := (h.last b nr (some e) hpc).2 e rfl
    refine .of_result rfl (fun herr => ⟨?_, ?_, hflow⟩) fun _ => rfl
    · by_contra hne
      rw [endErr, if_neg hne] at herr
      exact absurd herr (Option.some_ne_none e)
    · show st.src.bytes = []
      rw [hsrc]
      exact hbytes
  | write b nr st hpc hwrite =>
    obtain ⟨hflow, hsrc⟩ := h.write hpc hwrite
    refine .of_reading rfl hflow ?_
    show st.src.final = final
    rw [hsrc]
    exact (h.flow (by rw [hpc]; rfl)).2
  | writePanic b nr er p hpc hwrite =>
    have hnr : nr ≤ (l.withBuffer (heap b)).buf.len := (h.last b nr er hpc).1.trans (hlen b).ge
    obtain ⟨r, hok⟩ := exists_writeTurn c hnr
    exact absurd (hwrite.symm.trans hok) (by simp)
  | giveBack b err hpc =>
    exact .of_result rfl (fun hnone => h.ended (by rw [hpc, hnone]; rfl))
      fun hrel => h.reliable hrel err (by rw [hpc]; rfl)
  | close err hpc =>
    exact .of_result rfl (fun hnone => h.ended (by rw [hpc, hnone]; rfl))
      fun hrel => h.reliable hrel err (by rw [hpc]; rfl)

end Tunnel
end ForwardProxy
