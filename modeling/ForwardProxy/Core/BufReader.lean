import ForwardProxy.Core.GoString
import ForwardProxy.Core.Stream
import Mathlib.Logic.Relation

/-!
# A buffered reader (`bufio.Reader`)

A `bufio.Reader` holds bytes that it has read from another reader and not handed out yet.  It reads
more only when what it was asked for is not among them, but then as much as fits in its buffer, so
it may hold bytes that belong to whatever comes behind.

`Fetch` is one step of a reader that is used to take a given text off the stream: take the next byte
out of the buffer, or, while the text is not complete in the buffer, read more.  Everything that is
said about how far the reader reads ahead is an invariant of these steps: `Fetches.delivered`,
`Fetches.boundary` and `Fetches.whole`.  That the methods of the reader make only such steps is
shown once for each (`fetches_fill`, `readSlice_spec`, `fetches_peek`).
-/

namespace ForwardProxy
namespace Core

/-- The byte `'\n'`. -/
def newline : UInt8 := 10

/-- The byte `'\r'`. -/
def cr : UInt8 := 13

/-- The errors of a buffered reader. -/
inductive BufErr where
  /-- What the underlying reader reported. -/
  | io (err : IOErr)
  /-- `io.ErrNoProgress`. -/
  | noProgress
  /-- `bufio.ErrBufferFull`. -/
  | bufferFull
  deriving DecidableEq, Repr

/-- How many reads in a row may deliver nothing before `fill` gives up. -/
def maxConsecutiveEmptyReads : ℕ := 100

/-- A reader that `fill` does not give up on. -/
def Source.Progress (s : Source) : Prop :=
  ∀ k, ((s.chunks.drop k).takeWhile List.isEmpty).length < maxConsecutiveEmptyReads

theorem Source.Eager.progress {s : Source} (h : s.Eager) : s.Progress := by
  intro k
  cases hdrop : s.chunks.drop k with
  | nil => decide
  | cons p rest =>
    have hmem : p ∈ s.chunks := List.mem_of_mem_drop (hdrop ▸ List.mem_cons_self)
    have hp : p.isEmpty = false := List.isEmpty_eq_false_iff.mpr (h p hmem)
    simp [hp, maxConsecutiveEmptyReads]

theorem Source.Progress.read {s : Source} (h : s.Progress) (n : ℕ) : (s.read n).2.Progress := by
  obtain ⟨chunks, glued, final⟩ := s
  cases chunks with
  | nil => exact h
  | cons p rest =>
    by_cases hle : p.length ≤ n
    · simp only [Source.read, if_pos hle]
      exact fun k => h (k + 1)
    · simp only [Source.read, if_neg hle]
      intro k
      cases k with
      | zero =>
        have hne : (p.drop n).isEmpty = false := by
          rw [List.isEmpty_eq_false_iff, ne_eq, List.drop_eq_nil_iff]
          exact hle
        simp [hne, maxConsecutiveEmptyReads]
      | succ k => exact h (k + 1)

/-- A `bufio.Reader`. -/
structure BufReader where
  /-- The underlying reader. -/
  src : Source
  /-- `b.buf[b.r:b.w]`. -/
  buf : List UInt8 := []
  /-- The pending error. -/
  err : Option BufErr := none
  /-- What the reads of the underlying reader have delivered so far. -/
  reads : List (List UInt8) := []
  deriving DecidableEq, Repr

namespace BufReader

/-- `defaultBufSize`. -/
def size : ℕ := 4096

/-- One read of the underlying reader, into the free part of the buffer. -/
def pull (b : BufReader) : BufReader :=
  let r := b.src.read (size - b.buf.length)
  { src := r.2, buf := b.buf ++ r.1.1, err := r.1.2.map .io, reads := b.reads ++ [r.1.1] }

/-- The loop of `fill`. -/
def fillLoop : ℕ → BufReader → BufReader
  | 0, b => { b with err := some .noProgress }
  | n + 1, b =>
    if b.pull.err ≠ none ∨ b.buf.length < b.pull.buf.length then b.pull else fillLoop n b.pull

/-- `fill`. -/
def fill (b : BufReader) : BufReader := fillLoop maxConsecutiveEmptyReads b

/-- The loop of `ReadSlice('\n')`: the line or what there is of it, and the error. -/
def readSliceLoop : ℕ → BufReader → Option ((List UInt8 × Option BufErr) × BufReader)
  | 0, _ => none
  | fuel + 1, b =>
    match indexByte b.buf newline with
    | some i => some ((b.buf.take (i + 1), none), { b with buf := b.buf.drop (i + 1) })
    | none =>
      match b.err with
      | some err => some ((b.buf, some err), { b with buf := [], err := none })
      | none =>
        if size ≤ b.buf.length then some ((b.buf, some .bufferFull), { b with buf := [] })
        else readSliceLoop fuel b.fill

/-- `ReadSlice('\n')`.  Every turn of the loop puts a byte into the buffer, or is the last but
one. -/
def readSlice (b : BufReader) : Option ((List UInt8 × Option BufErr) × BufReader) :=
  readSliceLoop (size + 2) b

/-- `Peek(1)`, for what it does to the buffer: read more if it is empty.  The error, if there is
one and still nothing in the buffer, is returned and no longer pending. -/
def peek (b : BufReader) : BufReader :=
  let b := if b.buf = [] ∧ b.err = none then b.fill else b
  if b.buf = [] then { b with err := none } else b

/-- All bytes that are left, in the buffer and behind it. -/
def content (b : BufReader) : List UInt8 := b.buf ++ b.src.bytes

/-! ## Steps -/

/-- One step of taking a text off the stream: a byte out of the buffer, or, while the text is not
complete in it, one more read. -/
inductive Fetch : List UInt8 × BufReader → List UInt8 × BufReader → Prop
  | take {c : UInt8} {h : List UInt8} {b : BufReader} {buf : List UInt8} (hbuf : b.buf = c :: buf) :
      Fetch (c :: h, b) (h, { b with buf := buf })
  | pull {h : List UInt8} {b : BufReader} (hshort : b.buf.length < h.length)
      (hroom : b.buf.length < size) : Fetch (h, b) (h, b.pull)

/-- Any number of steps. -/
abbrev Fetches : List UInt8 × BufReader → List UInt8 × BufReader → Prop :=
  Relation.ReflTransGen Fetch

/-- Bytes that are in the buffer can be taken. -/
theorem fetches_take {l rest : List UInt8} (h : List UInt8) {b : BufReader}
    (hbuf : b.buf = l ++ rest) : Fetches (l ++ h, b) (h, { b with buf := rest }) := by
  induction l generalizing b with
  | nil =>
    have hsame : { b with buf := rest } = b := by rw [← List.nil_append rest, ← hbuf]
    rw [hsame]
    exact .refl
  | cons c l ih => exact .head (.take hbuf) (ih rfl)

/-! ## Invariants -/

/-- What holds at every step, with `t` behind the text that is still to be taken. -/
structure Inv (t : List UInt8) (s : List UInt8 × BufReader) : Prop where
  content : s.2.content = s.1 ++ t
  /-- An error is pending only when nothing is left to be read. -/
  err : s.2.err ≠ none → s.2.src.bytes = []
  progress : s.2.src.Progress
  length_le : s.2.buf.length ≤ size

theorem content_pull (b : BufReader) : b.pull.content = b.content := by
  rw [content, content, (b.src.readSpec (size - b.buf.length)).bytes, ← List.append_assoc]
  rfl

/-- A step keeps the invariant. -/
theorem Inv.step {t : List UInt8} {s s' : List UInt8 × BufReader} (hinv : Inv t s)
    (h : Fetch s s') : Inv t s' := by
  cases h with
  | @take c h b buf hbuf =>
    refine ⟨?_, hinv.err, hinv.progress, ?_⟩
    · have hcontent := hinv.content
      simp only [BufReader.content, hbuf, List.cons_append, List.cons.injEq, true_and] at hcontent
      exact hcontent
    · have hle := hinv.length_le
      simp only [hbuf, List.length_cons] at hle
      exact (Nat.le_succ _).trans hle
  | @pull h b hshort hroom =>
    have hspec := b.src.readSpec (size - b.buf.length)
    refine ⟨(content_pull b).trans hinv.content, ?_, hinv.progress.read _, ?_⟩
    · intro herr
      obtain ⟨e, he⟩ := Option.ne_none_iff_exists'.mp herr
      obtain ⟨e', he', -⟩ := Option.map_eq_some_iff.mp he
      exact (hspec.last e' he').2
    · have hle := hspec.length_le
      simp only [pull, List.length_append]
      omega

theorem Inv.fetches {t : List UInt8} {s s' : List UInt8 × BufReader} (hinv : Inv t s)
    (h : Fetches s s') : Inv t s' := by
  induction h with
  | refl => exact hinv
  | tail _ hstep ih => exact ih.step hstep

/-- While the text is not complete in the buffer, something is left to be read and no error is
pending. -/
theorem Inv.of_short {t : List UInt8} {s : List UInt8 × BufReader} (hinv : Inv t s)
    (hshort : s.2.buf.length < s.1.length) : s.2.src.bytes ≠ [] ∧ s.2.err = none := by
  have hbytes : s.2.src.bytes ≠ [] := by
    intro hnil
    have hlen := congrArg List.length hinv.content
    rw [BufReader.content, hnil, List.append_nil, List.length_append] at hlen
    omega
  refine ⟨hbytes, ?_⟩
  by_contra herr
  exact hbytes (hinv.err herr)

/-! ## How far the reader reads -/

section Run

variable {src : Source} {text : List UInt8} {s : List UInt8 × BufReader}

/-- What the reads have delivered is what was taken and what is in the buffer. -/
theorem Fetches.delivered (hrun : Fetches (text, { src := src }) s) :
    (∃ taken, text = taken ++ s.1 ∧ s.2.reads.flatten = taken ++ s.2.buf) ∧
      src.bytes = s.2.reads.flatten ++ s.2.src.bytes := by
  induction hrun with
  | refl => exact ⟨⟨[], rfl, rfl⟩, rfl⟩
  | tail _ hstep ih =>
    obtain ⟨⟨taken, htext, hreads⟩, hbytes⟩ := ih
    cases hstep with
    | @take c h b buf hbuf =>
      refine ⟨⟨taken ++ [c], by simp [htext], ?_⟩, hbytes⟩
      change b.reads.flatten = _
      rw [hreads, hbuf, List.append_assoc, List.singleton_append]
    | @pull h b _ _ =>
      refine ⟨⟨taken, htext, ?_⟩, ?_⟩
      · simp [BufReader.pull, hreads]
      · rw [hbytes, (b.src.readSpec (size - b.buf.length)).bytes]
        simp [BufReader.pull]

/-- A text that ends where a piece ends still does after a read inside of it. -/
theorem exists_take_flatten_read {s : Source} {k : ℕ} {r : List UInt8}
    (h : (s.chunks.take k).flatten = r) (hr : r ≠ []) (n : ℕ) :
    (s.read n).1.1.length ≤ r.length ∧
      ∃ k', ((s.read n).2.chunks.take k').flatten = r.drop (s.read n).1.1.length := by
  obtain ⟨chunks, glued, final⟩ := s
  cases k with
  | zero => exact absurd h.symm hr
  | succ k =>
    cases chunks with
    | nil => exact absurd h.symm hr
    | cons q rest =>
      simp only [List.take_succ_cons, List.flatten_cons] at h
      by_cases hle : q.length ≤ n
      · simp only [Source.read, if_pos hle]
        refine ⟨by simp [← h], k, by simp [← h]⟩
      · simp only [Source.read, if_neg hle, List.length_take]
        refine ⟨by rw [← h, List.length_append]; omega, k + 1, ?_⟩
        rw [List.take_succ_cons, List.flatten_cons, ← h, List.drop_append_of_le_length (by omega)]
        congr 1
        rw [Nat.min_eq_left (by omega)]

/-- If the text ends where a piece ends, no read goes beyond it. -/
theorem Fetches.boundary {k : ℕ} (hk : (src.chunks.take k).flatten = text)
    (hrun : Fetches (text, { src := src }) s) :
    s.2.buf.length ≤ s.1.length ∧
      ∃ k', (s.2.src.chunks.take k').flatten = s.1.drop s.2.buf.length := by
  induction hrun with
  | refl => exact ⟨Nat.zero_le _, k, hk⟩
  | tail _ hstep ih =>
    obtain ⟨hle, k', hk'⟩ := ih
    cases hstep with
    | @take c h b buf hbuf =>
      simp only [hbuf, List.length_cons, List.drop_succ_cons] at hle hk'
      exact ⟨Nat.le_of_succ_le_succ hle, k', hk'⟩
    | @pull h b hshort _ =>
      have hne : h.drop b.buf.length ≠ [] := by
        rw [ne_eq, List.drop_eq_nil_iff]
        omega
      obtain ⟨hlen, k'', hk''⟩ := exists_take_flatten_read hk' hne (size - b.buf.length)
      simp only [List.length_drop] at hlen
      simp only [BufReader.pull, List.length_append]
      refine ⟨by omega, k'', ?_⟩
      rw [hk'', List.drop_drop]

theorem length_flatten_take_le (k : ℕ) (ps : List (List UInt8)) :
    (ps.take k).flatten.length ≤ ps.flatten.length := by
  have hsplit := congrArg List.length (congrArg List.flatten (List.take_append_drop k ps))
  rw [List.flatten_append, List.length_append] at hsplit
  omega

/-- If the pieces up to the end of the text fit in the buffer, every read delivers a whole piece. -/
theorem Fetches.whole {k : ℕ} (hk : text.length ≤ (src.chunks.take k).flatten.length)
    (hsize : (src.chunks.take k).flatten.length ≤ size) (hrun : Fetches (text, { src := src }) s) :
    ∃ j ≤ k, s.2.src.chunks = src.chunks.drop j ∧
      s.2.reads.flatten = (src.chunks.take j).flatten := by
  induction hrun with
  | refl => exact ⟨0, Nat.zero_le _, rfl, rfl⟩
  | tail hrun hstep ih =>
    obtain ⟨j, hj, hchunks, hreads⟩ := ih
    cases hstep with
    | take hbuf => exact ⟨j, hj, hchunks, hreads⟩
    | @pull h b hshort _ =>
      obtain ⟨⟨taken, htext, htaken⟩, -⟩ := Fetches.delivered hrun
      dsimp only at htext htaken hchunks hreads
      -- the text is not complete yet, so there is another piece, and it fits
      have hlt : (src.chunks.take j).flatten.length < (src.chunks.take k).flatten.length := by
        rw [← hreads, htaken]
        rw [htext] at hk
        simp only [List.length_append] at hk ⊢
        omega
      cases hdrop : src.chunks.drop j with
      | nil =>
        have hall : src.chunks.take j = src.chunks := List.take_of_length_le (by simpa using hdrop)
        rw [hall] at hlt
        have hle := length_flatten_take_le k src.chunks
        omega
      | cons q rest =>
        have hjk : j < k := by
          refine lt_of_le_of_ne hj ?_
          rintro rfl
          exact absurd hlt (lt_irrefl _)
        have htake : (src.chunks.take (j + 1)).flatten = (src.chunks.take j).flatten ++ q := by
          rw [List.take_add, hdrop]
          simp
        have hle : (src.chunks.take (j + 1)).flatten.length ≤
            (src.chunks.take k).flatten.length := by
          have hprefix : (src.chunks.take k).take (j + 1) = src.chunks.take (j + 1) := by
            rw [List.take_take, Nat.min_eq_left hjk]
          rw [← hprefix]
          exact length_flatten_take_le _ _
        have hfits : q.length ≤ size - b.buf.length := by
          rw [htake, ← hreads, htaken] at hle
          simp only [List.length_append] at hle
          omega
        refine ⟨j + 1, hjk, ?_, ?_⟩
        · simp only [BufReader.pull, Source.read, hchunks, hdrop, if_pos hfits]
          rw [← List.drop_drop, hdrop]
          rfl
        · rw [htake, ← hreads]
          simp [BufReader.pull, Source.read, hchunks, hdrop, if_pos hfits]

end Run

/-! ## The methods -/

section Methods

variable {t h : List UInt8} {b : BufReader}

/-- `fill` reads until something has arrived. -/
theorem fetches_fillLoop {n : ℕ} (hinv : Inv t (h, b)) (hshort : b.buf.length < h.length)
    (hroom : b.buf.length < size) (hidle : (b.src.chunks.takeWhile List.isEmpty).length < n) :
    Fetches (h, b) (h, fillLoop n b) ∧ b.buf.length < (fillLoop n b).buf.length := by
  induction n generalizing b with
  | zero => exact absurd hidle (Nat.not_lt_zero _)
  | succ n ih =>
    have hstep : Fetch (h, b) (h, b.pull) := .pull hshort hroom
    rw [fillLoop]
    by_cases hgrow : b.buf.length < b.pull.buf.length
    · rw [if_pos (Or.inr hgrow)]
      exact ⟨.single hstep, hgrow⟩
    · -- nothing has arrived, and this was an empty piece
      have hnil : (b.src.read (size - b.buf.length)).1.1 = [] := by
        simpa [pull] using hgrow
      have hbuf : b.pull.buf = b.buf := by simp [pull, hnil]
      have hinv' := hinv.step hstep
      have herr : b.pull.err = none := (hinv'.of_short (by rwa [hbuf])).2
      rw [if_neg (by simp [herr, hbuf])]
      have hidle' : (b.pull.src.chunks.takeWhile List.isEmpty).length < n := by
        have hbytes := (hinv.of_short hshort).1
        cases hchunks : b.src.chunks with
        | nil => exact absurd (by simp [Source.bytes, hchunks]) hbytes
        | cons q rest =>
          by_cases hle : q.length ≤ size - b.buf.length
          · simp only [Source.read, hchunks, if_pos hle] at hnil
            simp only [hchunks, hnil, List.takeWhile_cons, List.isEmpty_nil, if_true,
              List.length_cons] at hidle
            simp only [pull, Source.read, hchunks, if_pos hle]
            omega
          · simp only [Source.read, hchunks, if_neg hle, List.take_eq_nil_iff] at hnil
            rcases hnil with hnil | hnil
            · omega
            · simp [hnil] at hle
      obtain ⟨hrun, hlt⟩ := ih hinv' (by rwa [hbuf]) (by rwa [hbuf]) hidle'
      exact ⟨.head hstep hrun, by rwa [hbuf] at hlt⟩

theorem fetches_fill (hinv : Inv t (h, b)) (hshort : b.buf.length < h.length)
    (hroom : b.buf.length < size) :
    Fetches (h, b) (h, b.fill) ∧ b.buf.length < b.fill.buf.length :=
  fetches_fillLoop hinv hshort hroom (hinv.progress 0)

/-- `Peek(1)` with something of the text left. -/
theorem fetches_peek (hinv : Inv t (h, b)) (hne : h ≠ []) :
    Fetches (h, b) (h, b.peek) ∧ b.peek.buf ≠ [] := by
  by_cases hbuf : b.buf = []
  · have hshort : b.buf.length < h.length := by
      rw [hbuf]
      exact List.length_pos_iff.mpr hne
    obtain ⟨hrun, hlt⟩ := fetches_fill hinv hshort (by rw [hbuf]; decide)
    have hfill : b.fill.buf ≠ [] := by
      intro hnil
      rw [hnil] at hlt
      exact absurd hlt (Nat.not_lt_zero _)
    have hempty : b.buf = [] ∧ b.err = none := ⟨hbuf, (hinv.of_short hshort).2⟩
    have hpeek : b.peek = b.fill := by simp only [peek, if_pos hempty, if_neg hfill]
    rw [hpeek]
    exact ⟨hrun, hfill⟩
  · have hpeek : b.peek = b := by simp [peek, hbuf]
    rw [hpeek]
    exact ⟨.refl, hbuf⟩

/-- The next line is in the buffer, or the buffer holds only a part of it. -/
theorem Inv.line_cases {l : List UInt8} (hinv : Inv t (l ++ newline :: h, b)) (hl : newline ∉ l) :
    (∃ rest, b.buf = l ++ newline :: rest) ∨ newline ∉ b.buf ∧ ∃ l', l = b.buf ++ l' := by
  have hcontent : b.buf ++ b.src.bytes = l ++ newline :: (h ++ t) := by
    simpa [BufReader.content] using hinv.content
  rcases List.append_eq_append_iff.mp hcontent with ⟨l', hl', -⟩ | ⟨rest, hbuf, hrest⟩
  · exact Or.inr ⟨fun hmem => hl (hl' ▸ List.mem_append_left _ hmem), l', hl'⟩
  · cases rest with
    | nil => exact Or.inr ⟨by simpa [hbuf] using hl, [], by simp [hbuf]⟩
    | cons c rest =>
      obtain ⟨rfl, -⟩ := List.cons.inj hrest
      exact Or.inl ⟨rest, hbuf⟩

theorem readSliceLoop_spec {l : List UInt8} {fuel : ℕ} (hinv : Inv t (l ++ newline :: h, b))
    (hl : newline ∉ l) (hfuel : size - b.buf.length < fuel) :
    (∃ b', readSliceLoop fuel b = some ((l ++ [newline], none), b') ∧
      Fetches (l ++ newline :: h, b) (h, b')) ∨
    ∃ b' l', readSliceLoop fuel b = some ((b'.buf, some .bufferFull), { b' with buf := [] }) ∧
      Fetches (l ++ newline :: h, b) (l ++ newline :: h, b') ∧ b'.buf.length = size ∧
        l = b'.buf ++ l' := by
  induction fuel generalizing b with
  | zero => exact absurd hfuel (Nat.not_lt_zero _)
  | succ fuel ih =>
    rcases hinv.line_cases hl with ⟨rest, hbuf⟩ | ⟨hmem, l', hl'⟩
    · refine Or.inl ⟨{ b with buf := rest }, ?_, ?_⟩
      · rw [readSliceLoop, hbuf, indexByte_append_cons hl]
        have htake : (l ++ newline :: rest).take (l.length + 1) = l ++ [newline] := by
          simp [List.take_append]
        have hdrop : (l ++ newline :: rest).drop (l.length + 1) = rest := by
          simp [List.drop_append]
        simp only [htake, hdrop]
      · have htext : l ++ newline :: h = (l ++ [newline]) ++ h := by simp
        rw [htext]
        exact fetches_take h (by simp [hbuf])
    · have hshort : b.buf.length < (l ++ newline :: h).length := by
        rw [hl']
        simp only [List.length_append, List.length_cons]
        omega
      have herr : b.err = none := (hinv.of_short hshort).2
      by_cases hfull : size ≤ b.buf.length
      · refine Or.inr ⟨b, l', ?_, .refl, le_antisymm hinv.length_le hfull, hl'⟩
        simp only [readSliceLoop, indexByte_eq_none hmem, herr, if_pos hfull]
      · obtain ⟨hrun, hlt⟩ := fetches_fill hinv hshort (by omega)
        have hloop : readSliceLoop (fuel + 1) b = readSliceLoop fuel b.fill := by
          simp only [readSliceLoop, indexByte_eq_none hmem, herr, if_neg hfull]
        rw [hloop]
        rcases ih (hinv.fetches hrun) (by omega) with ⟨b', heq, hrun'⟩ | ⟨b', l'',
          heq, hrun', hrest⟩
        · exact Or.inl ⟨b', heq, hrun.trans hrun'⟩
        · exact Or.inr ⟨b', l'', heq, hrun.trans hrun', hrest⟩

/-- `ReadSlice`: the next line, or, if that is longer than the buffer, a buffer full of it. -/
theorem readSlice_spec {l : List UInt8} (hinv : Inv t (l ++ newline :: h, b)) (hl : newline ∉ l) :
    (∃ b', b.readSlice = some ((l ++ [newline], none), b') ∧
      Fetches (l ++ newline :: h, b) (h, b')) ∨
    ∃ b' l', b.readSlice = some ((b'.buf, some .bufferFull), { b' with buf := [] }) ∧
      Fetches (l ++ newline :: h, b) (l ++ newline :: h, b') ∧ b'.buf.length = size ∧
        l = b'.buf ++ l' :=
  readSliceLoop_spec hinv hl (by omega)

end Methods

end BufReader

end Core
end ForwardProxy
