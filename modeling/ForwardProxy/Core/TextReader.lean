import ForwardProxy.Core.BufReader

/-!
# Lines and headers off a buffered reader (`textproto.Reader`)

A header is a sequence of lines and a blank one behind them.  A line that starts with spaces
continues the line before; the spaces are skipped byte by byte before the rest of the line is read.
The functions here return the bytes they take off the stream, so that nothing is said about what the
lines mean.
-/

namespace ForwardProxy
namespace Core
namespace BufReader

/-- `readLineSlice` of `textproto`, with the `ReadLine` it calls: a line of any length, here with
the bytes that end it. -/
def readLineLoop : ℕ → List UInt8 → BufReader → Option (Except BufErr (List UInt8) × BufReader)
  | 0, _, _ => none
  | fuel + 1, acc, b =>
    match b.readSlice with
    | none => none
    | some ((line, none), b) => some (.ok (acc ++ line), b)
    | some ((line, some .bufferFull), b) =>
      -- a '\r' at the end is put back, because a '\n' may follow
      if line.getLast? = some cr then
        readLineLoop fuel (acc ++ line.dropLast) { b with buf := cr :: b.buf }
      else readLineLoop fuel (acc ++ line) b
    | some ((line, some err), b) =>
      if line = [] then some (.error err, b) else some (.ok (acc ++ line), b)

/-- `readLineSlice` of `textproto`. -/
def readLine (b : BufReader) : Option (Except BufErr (List UInt8) × BufReader) :=
  readLineLoop (b.content.length + 1) [] b

/-- A space or a tab. -/
def isBlankByte (c : UInt8) : Bool := c == 32 || c == 9

/-- The loop of `skipSpace`. -/
def skipSpaceLoop : ℕ → List UInt8 → BufReader → Option (List UInt8 × BufReader)
  | 0, _, _ => none
  | fuel + 1, acc, b =>
    match b.peek.buf with
    | [] => some (acc, b.peek)
    | c :: buf =>
      if isBlankByte c then skipSpaceLoop fuel (acc ++ [c]) { b.peek with buf := buf }
      else some (acc, b.peek)

/-- `skipSpace` of `textproto`, with the bytes that it skips. -/
def skipSpace (b : BufReader) : Option (List UInt8 × BufReader) :=
  skipSpaceLoop (b.content.length + 1) [] b

/-- The line that ends a header. -/
def isBlankLine (line : List UInt8) : Bool := line == [newline] || line == [cr, newline]

/-- The loop of `readMIMEHeader`, with the one of `readContinuedLineSlice` in it: lines up to and
with a blank one.  `continued` means that spaces were skipped in front of the line, which makes it
a part of the line before. -/
def readHeaderLoop : ℕ → Bool → List UInt8 → BufReader →
    Option (Except BufErr (List UInt8) × BufReader)
  | 0, _, _, _ => none
  | fuel + 1, continued, acc, b =>
    match b.readLine with
    | none => none
    | some (.error err, b) => some (.error err, b)
    | some (.ok line, b) =>
      if !continued && isBlankLine line then some (.ok (acc ++ line), b)
      else
        match b.skipSpace with
        | none => none
        | some (spaces, b) => readHeaderLoop fuel (!spaces.isEmpty) (acc ++ line ++ spaces) b

/-- `ReadMIMEHeader` of `textproto`, for the bytes it takes off the stream. -/
def readHeader (b : BufReader) : Option (Except BufErr (List UInt8) × BufReader) :=
  readHeaderLoop (b.content.length + 1) false [] b

/-! ## What is taken off the stream -/

section Spec

variable {t h : List UInt8} {b : BufReader}

theorem readLineLoop_spec (acc : List UInt8) {l : List UInt8} {fuel : ℕ}
    (hinv : Inv t (l ++ newline :: h, b)) (hl : newline ∉ l) (hfuel : l.length < fuel) :
    ∃ b', readLineLoop fuel acc b = some (.ok (acc ++ (l ++ [newline])), b') ∧
      Fetches (l ++ newline :: h, b) (h, b') := by
  induction fuel generalizing l acc b with
  | zero => exact absurd hfuel (Nat.not_lt_zero _)
  | succ fuel ih =>
    rcases readSlice_spec hinv hl with ⟨b', hslice, hrun⟩ | ⟨b', l', hslice, hrun, hlen, rfl⟩
    · exact ⟨b', by rw [readLineLoop, hslice], hrun⟩
    · rw [List.length_append, hlen, size] at hfuel
      by_cases hcr : b'.buf.getLast? = some cr
      · -- all but the '\r' is taken
        obtain ⟨q, hq⟩ : ∃ q, b'.buf = q ++ [cr] := List.getLast?_eq_some_iff.mp hcr
        have htext : b'.buf ++ l' ++ newline :: h = q ++ ((cr :: l') ++ newline :: h) := by
          simp [hq]
        have htake : Fetches (b'.buf ++ l' ++ newline :: h, b')
            ((cr :: l') ++ newline :: h, { b' with buf := [cr] }) := by
          rw [htext]
          exact fetches_take _ hq
        obtain ⟨b'', heq', hrun'⟩ := ih (acc ++ q) (hinv.fetches (hrun.trans htake))
          (fun hmem => hl (by rw [hq]; simpa using Or.inr hmem)) (by rw [List.length_cons]; omega)
        refine ⟨b'', ?_, (hrun.trans htake).trans hrun'⟩
        rw [readLineLoop, hslice]
        simp only [hcr, if_true]
        rw [hq, List.dropLast_concat, heq']
        simp
      · have htake : Fetches (b'.buf ++ l' ++ newline :: h, b')
            (l' ++ newline :: h, { b' with buf := [] }) := by
          rw [List.append_assoc]
          exact fetches_take _ (by simp)
        obtain ⟨b'', heq', hrun'⟩ := ih (acc ++ b'.buf) (hinv.fetches (hrun.trans htake))
          (fun hmem => hl (List.mem_append_right _ hmem)) (by omega)
        refine ⟨b'', ?_, (hrun.trans htake).trans hrun'⟩
        rw [readLineLoop, hslice]
        simp only [if_neg hcr]
        rw [heq']
        simp

/-- `readLineSlice` takes the next line off the stream. -/
theorem readLine_spec {l : List UInt8} (hinv : Inv t (l ++ newline :: h, b)) (hl : newline ∉ l) :
    ∃ b', b.readLine = some (.ok (l ++ [newline]), b') ∧
      Fetches (l ++ newline :: h, b) (h, b') := by
  have hlen := congrArg List.length hinv.content
  refine readLineLoop_spec [] hinv hl ?_
  simp only [List.length_append] at hlen
  omega

theorem skipSpaceLoop_spec (acc : List UInt8) {spaces : List UInt8} {c : UInt8} {fuel : ℕ}
    (hinv : Inv t (spaces ++ c :: h, b)) (hspaces : ∀ d ∈ spaces, isBlankByte d = true)
    (hc : isBlankByte c = false) (hfuel : spaces.length < fuel) :
    ∃ b', skipSpaceLoop fuel acc b = some (acc ++ spaces, b') ∧
      Fetches (spaces ++ c :: h, b) (c :: h, b') := by
  induction fuel generalizing spaces acc b with
  | zero => exact absurd hfuel (Nat.not_lt_zero _)
  | succ fuel ih =>
    obtain ⟨hrun, hne⟩ := fetches_peek hinv (by simp)
    obtain ⟨d, buf, hbuf⟩ := List.exists_cons_of_ne_nil hne
    have hcontent := (hinv.fetches hrun).content
    simp only [BufReader.content, hbuf, List.cons_append] at hcontent
    cases spaces with
    | nil =>
      obtain ⟨rfl, -⟩ := List.cons.inj hcontent
      refine ⟨b.peek, ?_, hrun⟩
      rw [skipSpaceLoop, hbuf]
      simp [hc]
    | cons e spaces =>
      obtain ⟨rfl, -⟩ := List.cons.inj hcontent
      have hd : isBlankByte d = true := hspaces d List.mem_cons_self
      have hstep : Fetches (d :: spaces ++ c :: h, b)
        (spaces ++ c :: h, { b.peek with buf := buf }) :=
        hrun.tail (.take hbuf)
      obtain ⟨b', heq, hrun'⟩ := ih (acc ++ [d]) (hinv.fetches hstep)
        (fun x hx => hspaces x (List.mem_cons_of_mem _ hx)) (Nat.lt_of_succ_lt_succ hfuel)
      refine ⟨b', ?_, hstep.trans hrun'⟩
      rw [skipSpaceLoop, hbuf]
      simp only [hd, if_true]
      rw [heq]
      simp

/-- `skipSpace` takes the spaces in front of the next line off the stream. -/
theorem skipSpace_spec {spaces : List UInt8} {c : UInt8} (hinv : Inv t (spaces ++ c :: h, b))
    (hspaces : ∀ d ∈ spaces, isBlankByte d = true) (hc : isBlankByte c = false) :
    ∃ b', b.skipSpace = some (spaces, b') ∧ Fetches (spaces ++ c :: h, b) (c :: h, b') := by
  have hlen := congrArg List.length hinv.content
  refine skipSpaceLoop_spec [] hinv hspaces hc ?_
  simp only [List.length_append] at hlen
  omega

/-- The lines of a header and the one that ends it. -/
def headerText (lines : List (List UInt8)) (last : List UInt8) : List UInt8 :=
  lines.flatMap (· ++ [newline]) ++ (last ++ [newline])

theorem headerText_nil (last : List UInt8) : headerText [] last = last ++ [newline] := rfl

theorem headerText_cons (l : List UInt8) (lines : List (List UInt8)) (last : List UInt8) :
    headerText (l :: lines) last = l ++ newline :: headerText lines last := by
  simp [headerText]

theorem length_lt_headerText (lines : List (List UInt8)) (last : List UInt8) :
    lines.length < (headerText lines last).length := by
  induction lines with
  | nil => simp [headerText_nil]
  | cons l lines ih =>
    rw [headerText_cons, List.length_append, List.length_cons, List.length_cons]
    omega

/-- A line that does not end a header. -/
def Solid (l : List UInt8) : Prop := newline ∉ l ∧ isBlankLine (l ++ [newline]) = false

/-- A line that ends a header. -/
def Final (l : List UInt8) : Prop := l = [] ∨ l = [cr]

theorem Final.notMem {l : List UInt8} (h : Final l) : newline ∉ l := by
  rcases h with rfl | rfl <;> decide

/-- A line is spaces and then something that is no space, if only what ends the line. -/
theorem exists_spaces (l h : List UInt8) : ∃ spaces l' c rest, l = spaces ++ l' ∧
    l' ++ newline :: h = c :: rest ∧ (∀ d ∈ spaces, isBlankByte d = true) ∧
      isBlankByte c = false := by
  induction l with
  | nil => exact ⟨[], [], newline, h, rfl, rfl, by simp, rfl⟩
  | cons d l ih =>
    by_cases hd : isBlankByte d = true
    · obtain ⟨spaces, l', c, rest, rfl, htext, hspaces, hc⟩ := ih
      refine ⟨d :: spaces, l', c, rest, rfl, htext, ?_, hc⟩
      intro x hx
      rcases List.mem_cons.mp hx with rfl | hx
      · exact hd
      · exact hspaces x hx
    · exact ⟨[], d :: l, d, l ++ newline :: h, rfl, rfl, by simp, by simpa using hd⟩

/-- One turn of the loop, at a line that does not end the header: the line and the spaces in front
of the next one are taken. -/
theorem readHeaderLoop_turn (fuel : ℕ) (acc spaces : List UInt8) {l l' : List UInt8}
    {continued : Bool} {c : UInt8} {rest : List UInt8}
    (hinv : Inv t (l ++ newline :: (spaces ++ l' ++ newline :: h), b)) (hl : newline ∉ l)
    (hcur : continued = true ∨ Solid l) (hspaces : ∀ d ∈ spaces, isBlankByte d = true)
    (hrest : l' ++ newline :: h = c :: rest) (hc : isBlankByte c = false) :
    ∃ b', readHeaderLoop (fuel + 1) continued acc b =
        readHeaderLoop fuel (!spaces.isEmpty) (acc ++ (l ++ [newline]) ++ spaces) b' ∧
      Fetches (l ++ newline :: (spaces ++ l' ++ newline :: h), b) (l' ++ newline :: h, b') := by
  obtain ⟨b₁, hline, hrun₁⟩ := readLine_spec hinv hl
  have htext : spaces ++ l' ++ newline :: h = spaces ++ c :: rest := by
    rw [List.append_assoc, hrest]
  have hinv₁ := hinv.fetches hrun₁
  rw [htext] at hinv₁
  obtain ⟨b₂, hskip, hrun₂⟩ := skipSpace_spec hinv₁ hspaces hc
  rw [← htext, ← hrest] at hrun₂
  refine ⟨b₂, ?_, hrun₁.trans hrun₂⟩
  have hgo : (!continued && isBlankLine (l ++ [newline])) = false := by
    rcases hcur with hcur | hcur
    · rw [hcur]
      rfl
    · rw [hcur.2, Bool.and_false]
  rw [readHeaderLoop, hline]
  simp only [hgo, Bool.false_eq_true, if_false, hskip]

/-- The last turn of the loop. -/
theorem readHeaderLoop_last (acc : List UInt8) {last : List UInt8} {fuel : ℕ}
    (hinv : Inv t (headerText [] last, b)) (hlast : Final last) :
    ∃ b', readHeaderLoop (fuel + 1) false acc b = some (.ok (acc ++ headerText [] last), b') ∧
      Fetches (headerText [] last, b) ([], b') := by
  rw [headerText_nil] at hinv ⊢
  obtain ⟨b', hline, hrun⟩ := readLine_spec hinv hlast.notMem
  have hblank : isBlankLine (last ++ [newline]) = true := by
    rcases hlast with rfl | rfl <;> decide
  refine ⟨b', ?_, hrun⟩
  rw [readHeaderLoop, hline]
  simp only [hblank, Bool.not_false, Bool.and_self, if_true]

/-- The loop of the header, at a line that does not end it. -/
theorem readHeaderLoop_spec (acc : List UInt8) {l last : List UInt8} {lines : List (List UInt8)}
    {continued : Bool} {fuel : ℕ} (hinv : Inv t (l ++ newline :: headerText lines last, b))
    (hl : newline ∉ l) (hcur : continued = true ∨ Solid l) (hlines : ∀ m ∈ lines, Solid m)
    (hlast : Final last) (hfuel : lines.length + 1 < fuel) :
    ∃ b', readHeaderLoop fuel continued acc b =
        some (.ok (acc ++ (l ++ newline :: headerText lines last)), b') ∧
      Fetches (l ++ newline :: headerText lines last, b) ([], b') := by
  obtain ⟨fuel, rfl⟩ : ∃ n, fuel = n + 1 := Nat.exists_eq_add_one_of_ne_zero (by omega)
  induction lines generalizing l acc b continued fuel with
  | nil =>
    obtain ⟨fuel, rfl⟩ : ∃ n, fuel = n + 1 :=
      Nat.exists_eq_add_one_of_ne_zero (by simp only [List.length_nil] at hfuel; omega)
    -- no spaces stand in front of the line that ends the header
    obtain ⟨c, rest, hrest, hc⟩ : ∃ c rest, last ++ newline :: [] = c :: rest ∧
        isBlankByte c = false := by
      rcases hlast with rfl | rfl
      · exact ⟨newline, [], rfl, rfl⟩
      · exact ⟨cr, [newline], rfl, rfl⟩
    obtain ⟨b₁, hturn, hrun₁⟩ := readHeaderLoop_turn (fuel + 1) acc [] hinv hl hcur (by simp)
      hrest hc
    obtain ⟨b₂, hdone, hrun₂⟩ := readHeaderLoop_last (acc ++ (l ++ [newline]))
      (hinv.fetches hrun₁) hlast
    refine ⟨b₂, ?_, hrun₁.trans hrun₂⟩
    rw [hturn]
    simpa using hdone
  | cons m lines ih =>
    rw [headerText_cons] at hinv ⊢
    have hm := hlines m List.mem_cons_self
    obtain ⟨spaces, l', c, rest, rfl, hrest, hspaces, hc⟩ :=
      exists_spaces m (headerText lines last)
    obtain ⟨b₁, hturn, hrun₁⟩ := readHeaderLoop_turn fuel acc spaces hinv hl hcur hspaces hrest hc
    have hcur' : (!spaces.isEmpty) = true ∨ Solid l' := by
      cases spaces with
      | nil => exact Or.inr hm
      | cons d spaces => exact Or.inl rfl
    obtain ⟨fuel, rfl⟩ : ∃ n, fuel = n + 1 :=
      Nat.exists_eq_add_one_of_ne_zero (by simp only [List.length_cons] at hfuel; omega)
    obtain ⟨b₂, hdone, hrun₂⟩ := ih (acc ++ (l ++ [newline]) ++ spaces) (hinv.fetches hrun₁)
      (fun hmem => hm.1 (List.mem_append_right _ hmem)) hcur'
      (fun x hx => hlines x (List.mem_cons_of_mem _ hx)) fuel
      (by simp only [List.length_cons] at hfuel; omega)
    refine ⟨b₂, ?_, hrun₁.trans hrun₂⟩
    rw [hturn, hdone]
    simp

/-- `ReadMIMEHeader` takes the header off the stream, and nothing behind it. -/
theorem readHeader_spec {lines : List (List UInt8)} {last : List UInt8}
    (hinv : Inv t (headerText lines last, b)) (hlines : ∀ m ∈ lines, Solid m)
    (hlast : Final last) :
    ∃ b', b.readHeader = some (.ok (headerText lines last), b') ∧
      Fetches (headerText lines last, b) ([], b') := by
  have hlen := congrArg List.length hinv.content
  have hlt := length_lt_headerText lines last
  simp only [List.length_append] at hlen
  rw [readHeader]
  cases lines with
  | nil => exact readHeaderLoop_last [] hinv hlast
  | cons m lines =>
    have hm := hlines m List.mem_cons_self
    rw [List.length_cons] at hlt
    rw [headerText_cons] at hinv ⊢
    exact readHeaderLoop_spec [] hinv hm.1 (Or.inr hm)
      (fun x hx => hlines x (List.mem_cons_of_mem _ hx)) hlast (by omega)

end Spec

end BufReader

end Core
end ForwardProxy
