import Mathlib.Data.List.TakeDrop

/-!
# Byte streams: readers, writers and buffers

A reader (`Source`) is the bytes it will deliver, cut into the pieces it will deliver them in,
and what it says at the end: the error, and whether it comes together with the last piece or
in a read of its own.  So a statement about every source with given bytes is a statement
about every way of splitting the bytes into reads.  A piece longer than the slice offered is
delivered in parts; an empty piece is a read that delivers nothing and reports nothing.

`io.ReadFull` hides the splitting: `readFull_of_le` and `readFull_of_lt` describe it by the
bytes alone.

A buffer has a length and a content, and every access is checked, as the runtime does: what
is out of bounds is a `Panic`.
-/

namespace ForwardProxy
namespace Core

/-- The errors of the stream operations. -/
inductive IOErr where
  | eof
  | unexpectedEOF
  | shortWrite
  | other (id : ℕ)
  deriving DecidableEq, Repr

/-! ## Readers -/

/-- A reader. -/
structure Source where
  /-- What the reads will deliver. -/
  chunks : List (List UInt8)
  /-- The last piece comes together with the final error. -/
  glued : Bool := false
  /-- The error at the end. -/
  final : IOErr := .eof
  deriving DecidableEq, Repr

namespace Source

/-- All bytes that are left. -/
def bytes (s : Source) : List UInt8 := s.chunks.flatten

/-- How many reads and bytes are left, together. -/
def weight (s : Source) : ℕ := s.chunks.length + s.bytes.length

/-- `Read` into a slice of length `n`. -/
def read (s : Source) (n : ℕ) : (List UInt8 × Option IOErr) × Source :=
  match s.chunks with
  | [] => (([], some s.final), s)
  | p :: rest =>
    if p.length ≤ n then
      ((p, if s.glued && rest.isEmpty then some s.final else none), { s with chunks := rest })
    else ((p.take n, none), { s with chunks := p.drop n :: rest })

/-- The loop of `io.ReadAtLeast`, with `n` bytes still to come. -/
def readAtLeast : ℕ → Source → ℕ → (List UInt8 × Option IOErr) × Source
  | 0, s, _ => (([], none), s)
  | fuel + 1, s, n =>
    if n = 0 then (([], none), s)
    else
      match s.read n with
      | ((p, some err), s') => ((p, some err), s')
      | ((p, none), s') =>
        match readAtLeast fuel s' (n - p.length) with
        | ((q, err), s'') => ((p ++ q, err), s'')

/-- `io.ReadFull` into a slice of length `n`. -/
def readFull (s : Source) (n : ℕ) : (List UInt8 × Option IOErr) × Source :=
  match readAtLeast (s.chunks.length + 1) s n with
  | ((p, err), s') =>
    if n ≤ p.length then ((p, none), s')
    else if 0 < p.length ∧ err = some .eof then ((p, some .unexpectedEOF), s')
    else ((p, err), s')

/-! ### What the reads deliver -/

/-- What one `Read` into a slice of length `n` may do: it delivers the next bytes, and either
reports nothing or the final error, and then nothing is left. -/
structure ReadSpec (s : Source) (n : ℕ) (p : List UInt8) (e : Option IOErr) (s' : Source) :
    Prop where
  bytes : s.bytes = p ++ s'.bytes
  length_le : p.length ≤ n
  final : s'.final = s.final
  err : e = none ∨ (e = some s.final ∧ s'.chunks = [])
  weight_lt : e = none → 0 < n → s'.weight < s.weight

theorem readSpec (s : Source) (n : ℕ) :
    ReadSpec s n (s.read n).1.1 (s.read n).1.2 (s.read n).2 := by
  obtain ⟨chunks, glued, final⟩ := s
  cases chunks with
  | nil => exact ⟨rfl, Nat.zero_le n, rfl, Or.inr ⟨rfl, rfl⟩, fun h => absurd h (by simp [read])⟩
  | cons p rest =>
    by_cases hle : p.length ≤ n
    · simp only [read, if_pos hle]
      refine ⟨by simp [bytes], hle, rfl, ?_, ?_⟩
      · by_cases hlast : (glued && rest.isEmpty) = true
        · rw [if_pos hlast]
          exact Or.inr ⟨rfl, by simpa using (Bool.and_eq_true_iff.mp hlast).2⟩
        · rw [if_neg hlast]
          exact Or.inl rfl
      · intro _ _
        simp only [weight, bytes, List.length_cons, List.flatten_cons, List.length_append]
        omega
    · simp only [read, if_neg hle]
      refine ⟨?_, ?_, rfl, Or.inl rfl, ?_⟩
      · simp only [bytes, List.flatten_cons]
        rw [← List.append_assoc, List.take_append_drop]
      · rw [List.length_take]
        exact Nat.min_le_left _ _
      · intro _ hn
        simp only [weight, bytes, List.length_cons, List.flatten_cons, List.length_append,
          List.length_drop]
        omega

/-- A read that reports something is the last one. -/
theorem ReadSpec.last {s s' : Source} {n : ℕ} {p : List UInt8} {e : Option IOErr}
    (h : ReadSpec s n p e s') : ∀ err, e = some err → err = s.final ∧ s'.bytes = [] := by
  rintro err rfl
  rcases h.err with herr | ⟨herr, hchunks⟩
  · exact absurd herr nofun
  · refine ⟨Option.some_inj.mp herr, ?_⟩
    rw [Source.bytes, hchunks]
    rfl

/-- A reader that delivers something with every read but, perhaps, the last. -/
def Eager (s : Source) : Prop := ∀ p ∈ s.chunks, p ≠ []

/-- A read of an eager reader into a slice that is not empty. -/
theorem Eager.read {s : Source} (h : s.Eager) {n : ℕ} (hn : 0 < n) :
    (s.read n).2.Eager ∧ ((s.read n).1.1 = [] → s.bytes = [] ∧ (s.read n).1.2 = some s.final) := by
  obtain ⟨chunks, glued, final⟩ := s
  cases chunks with
  | nil => exact ⟨h, fun _ => ⟨rfl, rfl⟩⟩
  | cons p rest =>
    have hp : p ≠ [] := h p (List.mem_cons_self ..)
    have hrest : ∀ q ∈ rest, q ≠ [] := fun q hq => h q (List.mem_cons_of_mem _ hq)
    by_cases hle : p.length ≤ n
    · simp only [Source.read, if_pos hle]
      exact ⟨hrest, fun hnil => absurd hnil hp⟩
    · simp only [Source.read, if_neg hle]
      refine ⟨?_, ?_⟩
      · intro q hq
        rcases List.mem_cons.mp hq with rfl | hq
        · rw [ne_eq, List.drop_eq_nil_iff]
          exact hle
        · exact hrest q hq
      · intro hnil
        rw [List.take_eq_nil_iff] at hnil
        exact absurd hnil (by simp [hp]; omega)

/-- The loop of `io.ReadAtLeast` delivers the next `n` bytes, or all that are left with the
final error. -/
theorem readAtLeast_spec {fuel : ℕ} {s : Source} (h : s.chunks.length < fuel) (n : ℕ) :
    (readAtLeast fuel s n).1.1 = s.bytes.take n ∧
      (readAtLeast fuel s n).2.bytes = s.bytes.drop n ∧
      (readAtLeast fuel s n).2.final = s.final ∧
      (readAtLeast fuel s n).2.chunks.length ≤ s.chunks.length ∧
      (s.bytes.length < n → (readAtLeast fuel s n).1.2 = some s.final) := by
  induction fuel generalizing s n with
  | zero => exact absurd h (Nat.not_lt_zero _)
  | succ fuel ih =>
    by_cases hn : n = 0
    · subst hn
      simp [readAtLeast]
    · obtain ⟨chunks, glued, final⟩ := s
      cases chunks with
      | nil => simp [readAtLeast, read, hn, bytes]
      | cons p rest =>
        by_cases hle : p.length ≤ n
        · by_cases hlast : (glued && rest.isEmpty) = true
          · obtain ⟨hglued, hempty⟩ := Bool.and_eq_true_iff.mp hlast
            obtain rfl : rest = [] := by simpa using hempty
            simp [readAtLeast, read, hn, hle, hglued, bytes]
          · obtain ⟨htake, hdrop, hfinal, hlen, herr⟩ :=
              ih (s := { chunks := rest, glued := glued, final := final })
                (Nat.lt_of_succ_lt_succ h) (n - p.length)
            simp only [readAtLeast, read, if_neg hn, if_pos hle, if_neg hlast]
            refine ⟨?_, ?_, hfinal, Nat.le_trans hlen (Nat.le_succ _), ?_⟩
            · rw [htake]
              simp [bytes, List.take_append, List.take_of_length_le hle]
            · rw [hdrop]
              simp [bytes, List.drop_append, List.drop_of_length_le hle]
            · intro hlt
              refine herr ?_
              simp only [bytes, List.flatten_cons, List.length_append] at hlt ⊢
              omega
        · have hzero : n - (p.take n).length = 0 := by
            rw [List.length_take]
            omega
          simp only [readAtLeast, read, if_neg hn, if_neg hle, hzero]
          have hstop : ∀ t : Source, readAtLeast fuel t 0 = (([], none), t) := by
            intro t
            cases fuel with
            | zero => rfl
            | succ fuel => simp [readAtLeast]
          rw [hstop]
          refine ⟨?_, ?_, rfl, Nat.le_refl _, ?_⟩
          · simp only [bytes, List.flatten_cons, List.append_nil]
            rw [List.take_append_of_le_length (by omega)]
          · simp only [bytes, List.flatten_cons]
            rw [List.drop_append_of_le_length (by omega)]
          · intro hlt
            simp only [bytes, List.flatten_cons, List.length_append] at hlt
            omega

/-- `io.ReadFull` with enough bytes left. -/
theorem readFull_of_le {s : Source} {n : ℕ} (h : n ≤ s.bytes.length) :
    ∃ s', s.readFull n = ((s.bytes.take n, none), s') ∧ s'.bytes = s.bytes.drop n ∧
      s'.final = s.final ∧ s'.chunks.length ≤ s.chunks.length := by
  obtain ⟨htake, hdrop, hfinal, hlen, -⟩ := readAtLeast_spec (Nat.lt_succ_self s.chunks.length) n
  refine ⟨_, ?_, hdrop, hfinal, hlen⟩
  simp only [readFull, htake]
  rw [if_pos (by rw [List.length_take]; omega)]

/-- `io.ReadFull` with too few bytes left. -/
theorem readFull_of_lt {s : Source} {n : ℕ} (h : s.bytes.length < n) :
    ∃ s', s.readFull n = ((s.bytes, some (if s.bytes ≠ [] ∧ s.final = .eof then .unexpectedEOF
        else s.final)), s') ∧ s'.bytes = [] ∧
      s'.final = s.final ∧ s'.chunks.length ≤ s.chunks.length := by
  obtain ⟨htake, hdrop, hfinal, hlen, herr⟩ :=
    readAtLeast_spec (Nat.lt_succ_self s.chunks.length) n
  rw [List.take_of_length_le (Nat.le_of_lt h)] at htake
  rw [List.drop_of_length_le (Nat.le_of_lt h)] at hdrop
  refine ⟨_, ?_, hdrop, hfinal, hlen⟩
  simp only [readFull, htake, herr h]
  rw [if_neg (by omega)]
  by_cases hcond : s.bytes ≠ [] ∧ s.final = .eof
  · rw [if_pos ⟨List.length_pos_iff.mpr hcond.1, by rw [hcond.2]⟩, if_pos hcond]
  · rw [if_neg, if_neg hcond]
    rintro ⟨hpos, heof⟩
    exact hcond ⟨List.length_pos_iff.mp hpos, Option.some_inj.mp heof⟩

/-- `io.ReadFull` delivers the next bytes, as many as there are. -/
theorem readFull_bytes (s : Source) (n : ℕ) :
    (s.readFull n).1.1 = s.bytes.take n ∧ (s.readFull n).2.bytes = s.bytes.drop n ∧
      (s.readFull n).2.final = s.final := by
  by_cases h : n ≤ s.bytes.length
  · obtain ⟨s', heq, hbytes, hfinal, -⟩ := readFull_of_le h
    rw [heq]
    exact ⟨rfl, hbytes, hfinal⟩
  · obtain ⟨s', heq, hbytes, hfinal, -⟩ := readFull_of_lt (Nat.lt_of_not_le h)
    rw [heq]
    refine ⟨?_, ?_, hfinal⟩
    · rw [List.take_of_length_le (by omega)]
    · rw [hbytes, List.drop_of_length_le (by omega)]

/-- `io.ReadFull` takes what it delivers, and reports nothing only if it delivers all that was
asked for. -/
theorem readFull_weight (s : Source) (n : ℕ) :
    (s.readFull n).2.weight + (s.readFull n).1.1.length ≤ s.weight ∧
      ((s.readFull n).1.2 = none → (s.readFull n).1.1.length = n) := by
  by_cases h : n ≤ s.bytes.length
  · obtain ⟨s', heq, hbytes, -, hlen⟩ := readFull_of_le h
    rw [heq]
    have htake : (s.bytes.take n).length = n := List.length_take_of_le h
    refine ⟨?_, fun _ => htake⟩
    simp only [weight, hbytes, List.length_drop, htake]
    omega
  · obtain ⟨s', heq, hbytes, -, hlen⟩ := readFull_of_lt (Nat.lt_of_not_le h)
    rw [heq]
    refine ⟨?_, fun hnone => absurd hnone (by simp)⟩
    simp only [weight, hbytes, List.length_nil]
    omega

/-! ### Successive reads -/

/-- What successive reads into slices of these lengths deliver, and what is left. -/
def readMany (s : Source) : List ℕ → List UInt8 × Source
  | [] => ([], s)
  | n :: ns => ((s.read n).1.1 ++ (readMany (s.read n).2 ns).1, (readMany (s.read n).2 ns).2)

/-- Successive reads deliver exactly these bytes: never anything else, and all of them after enough
reads into slices that are not empty. -/
def Yields (s : Source) (t : List UInt8) : Prop :=
  (∀ ns, (s.readMany ns).1 <+: t) ∧
    ∃ k, ∀ ns, (∀ n ∈ ns, 0 < n) → k ≤ ns.length → (s.readMany ns).1 = t

theorem bytes_readMany (s : Source) (ns : List ℕ) :
    s.bytes = (s.readMany ns).1 ++ (s.readMany ns).2.bytes := by
  induction ns generalizing s with
  | nil => rfl
  | cons n ns ih =>
    rw [readMany, List.append_assoc, ← ih]
    exact (s.readSpec n).bytes

/-- Enough reads leave nothing. -/
theorem bytes_readMany_eq_nil {s : Source} {ns : List ℕ} (hpos : ∀ n ∈ ns, 0 < n)
    (hlen : s.weight < ns.length) : (s.readMany ns).2.bytes = [] := by
  induction ns generalizing s with
  | nil => exact absurd hlen (Nat.not_lt_zero _)
  | cons n ns ih =>
    have hspec := s.readSpec n
    have hrest : ∀ m ∈ ns, 0 < m := fun m hm => hpos m (List.mem_cons_of_mem _ hm)
    rw [readMany]
    cases herr : (s.read n).1.2 with
    | none =>
      have hlt := hspec.weight_lt herr (hpos n List.mem_cons_self)
      rw [List.length_cons] at hlen
      exact ih hrest (by omega)
    | some e =>
      have hnil := (hspec.last e herr).2
      have hsplit := bytes_readMany (s.read n).2 ns
      rw [hnil] at hsplit
      exact (List.append_eq_nil_iff.mp hsplit.symm).2

theorem yields_iff (s : Source) (t : List UInt8) : s.Yields t ↔ s.bytes = t := by
  constructor
  · rintro ⟨-, k, hk⟩
    have hpos : ∀ n ∈ List.replicate (k + s.weight + 1) 1, 0 < n := by simp
    have hall := hk _ hpos (by rw [List.length_replicate]; omega)
    have hnil := bytes_readMany_eq_nil (s := s) hpos (by rw [List.length_replicate]; omega)
    rw [s.bytes_readMany, hall, hnil, List.append_nil]
  · rintro rfl
    refine ⟨fun ns => ⟨_, (s.bytes_readMany ns).symm⟩, s.weight + 1, fun ns hpos hlen => ?_⟩
    rw [s.bytes_readMany ns, bytes_readMany_eq_nil hpos hlen, List.append_nil]

end Source

/-! ## Writers -/

/-- A writer: what it answers to its `k`-th call of `Write`, and, if it is a response writer,
what the flush after it answers. -/
structure Writer where
  write : ℕ → List UInt8 → ℕ × Option IOErr
  flush : Option (ℕ → Option IOErr) := none

/-- A writer that takes everything. -/
structure Writer.Reliable (w : Writer) : Prop where
  write : ∀ k p, w.write k p = (p.length, none)
  flush : ∀ f, w.flush = some f → ∀ k, f k = none

/-- A writer that takes everything, with or without flushing. -/
def Writer.reliable (flushes : Bool) : Writer where
  write _ p := (p.length, none)
  flush := if flushes then some fun _ => none else none

theorem Writer.reliable_reliable (flushes : Bool) : (Writer.reliable flushes).Reliable := by
  refine ⟨fun _ _ => rfl, ?_⟩
  intro f hf k
  cases flushes with
  | false => exact absurd hf (by simp [reliable])
  | true => rw [← Option.some_inj.mp hf]

/-- From its `k`-th call on, the writer takes nothing and fails. -/
def Writer.DeadFrom (w : Writer) (k : ℕ) : Prop := ∀ k' ≥ k, ∀ p, ∃ e, w.write k' p = (0, some e)

/-- A writer that takes everything until it fails, and has failed for good then. -/
def Writer.FailStop (w : Writer) : Prop :=
  ∀ k p, w.write k p = (p.length, none) ∨ ∃ n e, w.write k p = (n, some e) ∧ w.DeadFrom (k + 1)

/-! ## Buffers -/

/-- What the runtime panics with. -/
inductive Panic where
  | sliceBounds
  | indexRange
  | nilPointer
  deriving DecidableEq, Repr

/-- A computation that does not panic, step by step. -/
theorem bind_eq_ok {α β : Type} {x : Except Panic α} {f : α → Except Panic β} {b : β} :
    (x >>= f) = .ok b ↔ ∃ a, x = .ok a ∧ f a = .ok b := by
  cases x with
  | error p =>
    refine ⟨fun h => absurd h (by simp [bind, Except.bind]), ?_⟩
    rintro ⟨a, ha, -⟩
    exact absurd ha (by simp)
  | ok a => exact ⟨fun h => ⟨a, rfl, h⟩, fun ⟨a', ha, hf⟩ => Except.ok.inj ha ▸ hf⟩

/-- A byte slice. -/
structure Buffer where
  len : ℕ
  get : ℕ → UInt8

namespace Buffer

/-- The bounds check of `buf[lo:hi]`. -/
def slice (b : Buffer) (lo hi : ℕ) : Except Panic Unit :=
  if lo ≤ hi ∧ hi ≤ b.len then .ok () else .error .sliceBounds

/-- `buf[i] = x`. -/
def set (b : Buffer) (i : ℕ) (x : UInt8) : Except Panic Buffer :=
  if i < b.len then .ok { b with get := Function.update b.get i x } else .error .indexRange

/-- What a read into `buf[off:]` leaves in the buffer. -/
def fill (b : Buffer) (off : ℕ) (data : List UInt8) : Buffer :=
  { b with get := fun i => if off ≤ i then (data[i - off]?).getD (b.get i) else b.get i }

/-- `for i := 0; i < n; i++ { buf[off+i] = 0 }`. -/
def zero (b : Buffer) (off : ℕ) : ℕ → Except Panic Buffer
  | 0 => .ok b
  | n + 1 => (b.zero off n).bind fun b => b.set (off + n) 0

/-- The content of `buf[0:n]`. -/
def take (b : Buffer) (n : ℕ) : List UInt8 := (List.range n).map b.get

theorem slice_eq_ok {b : Buffer} {lo hi : ℕ} (hle : lo ≤ hi) (hlen : hi ≤ b.len) :
    b.slice lo hi = .ok () :=
  if_pos ⟨hle, hlen⟩

theorem set_eq_ok {b : Buffer} {i : ℕ} (h : i < b.len) (x : UInt8) :
    b.set i x = .ok { b with get := Function.update b.get i x } :=
  if_pos h

theorem len_of_set {b b' : Buffer} {i : ℕ} {x : UInt8} (h : b.set i x = .ok b') :
    b'.len = b.len := by
  rw [set] at h
  split_ifs at h
  rw [← Except.ok.inj h]

theorem len_of_zero {off : ℕ} : ∀ {n : ℕ} {b b' : Buffer}, b.zero off n = .ok b' → b'.len = b.len
  | 0, b, b', h => by rw [← Except.ok.inj h]
  | n + 1, b, b', h => by
    obtain ⟨b₁, hzero, hset⟩ := bind_eq_ok.mp h
    exact (len_of_set hset).trans (len_of_zero hzero)

/-- Writing zeros inside the buffer. -/
theorem zero_eq_ok {b : Buffer} {off : ℕ} : ∀ {n : ℕ}, off + n ≤ b.len →
    b.zero off n = .ok { b with get := fun i => if off ≤ i ∧ i < off + n then 0 else b.get i }
  | 0, _ => by
    have hget : (fun i => if off ≤ i ∧ i < off + 0 then 0 else b.get i) = b.get := by
      funext i
      rw [if_neg (by omega)]
    rw [hget, zero]
  | n + 1, h => by
    rw [zero, zero_eq_ok (n := n) (by omega)]
    show set _ (off + n) 0 = _
    rw [set, if_pos (show off + n < b.len by omega)]
    congr 2
    funext i
    by_cases hi : i = off + n
    · rw [hi, Function.update_self, if_pos (by omega)]
    · rw [Function.update_of_ne hi]
      show (if off ≤ i ∧ i < off + n then 0 else b.get i) = _
      by_cases hin : off ≤ i ∧ i < off + n
      · rw [if_pos hin, if_pos (by omega)]
      · rw [if_neg hin, if_neg (by omega)]

/-- The content of the front of a buffer, byte by byte. -/
theorem take_eq_of_get {b : Buffer} {l : List UInt8} (h : ∀ i (hi : i < l.length), b.get i = l[i]) :
    b.take l.length = l := by
  refine List.ext_getElem (by simp [take]) ?_
  intro i hi hi'
  simp only [take, List.getElem_map, List.getElem_range]
  exact h i hi'

/-- What was read into the front of the buffer. -/
theorem take_fill_zero (b : Buffer) (data : List UInt8) :
    (b.fill 0 data).take data.length = data := by
  refine take_eq_of_get ?_
  intro i hi
  simp [fill, hi]

end Buffer

end Core
end ForwardProxy
