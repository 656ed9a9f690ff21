import ForwardProxy.Tunnel.Loops

/-!
# What a tunnel relays

The proof has three parts.

* *The pool is used as it should be* (`Separate`): the loops hold different buffers, so what one of
  them has read is still in its buffer when it is written.
* *Each loop keeps its books* (`Inv`), whatever the interleaving.
* *The loop to the client never waits for the other one*, and every step takes it closer to its end
  (`Copying.rank`), so from every state it can go on to its end (`Finishes`).

## Main results

* `tunnel_relay`: what the target has accepted begins the stream of the client, what the client was
  given is the stream of the target, and the end of the one direction is not the end of the other.
-/

namespace ForwardProxy
namespace Tunnel

open ForwardProxy.Core Padding

/-! ## Every interleaving -/

/-- The loops hold different buffers. -/
structure Separate (s : State) : Prop where
  len : ∀ b, (s.heap b).len = bufferSize
  apart : ∀ b, s.up.pc.holds = some b → s.down.pc.holds ≠ some b

/-- What holds in every state of a tunnel between a client whose stream is `content` and
`target`. -/
structure Inv (t : Ends) (content : List UInt8) (target : Source) (padding : Bool) (s : State) :
    Prop where
  separate : Separate s
  up : UpInv t.target content s.heap s.up
  down : DownInv t.client target.bytes target.Eager target.final s.heap s.down
  paddingType : s.down.paddingType = if padding then .addPadding else .noPadding

variable {t : Ends} {content : List UInt8} {target : Source} {padding : Bool} {s s' : State}

theorem Inv.step_up (h : Inv t content target padding s) {buf : ℕ}
    (hs : step t s (.up buf) = some s') : Inv t content target padding s' := by
  obtain ⟨⟨l, heap⟩, hl, rfl⟩ := Option.map_eq_some_iff.mp hs
  have hm := Copying.move_of_step hl
  obtain ⟨hheap, hlen⟩ := hm.heap h.separate.len
  refine ⟨⟨hlen, fun b hb => ?_⟩, h.up.move rfl rfl h.separate.len hm, h.down.congr fun b hb => ?_,
    h.paddingType⟩
  · rcases hm.holds hb with hheld | hfree
    · exact h.separate.apart b hheld
    · exact hfree
  · exact hheap b fun hup => h.separate.apart b hup hb

theorem Inv.step_down (h : Inv t content target padding s) {buf : ℕ}
    (hs : step t s (.down buf) = some s') : Inv t content target padding s' := by
  obtain ⟨⟨l, heap⟩, hl, rfl⟩ := Option.map_eq_some_iff.mp hs
  have hm := Copying.move_of_step hl
  obtain ⟨hheap, hlen⟩ := hm.heap h.separate.len
  refine ⟨⟨hlen, fun b hup hb => ?_⟩, h.up.congr fun b hb => ?_,
    h.down.move rfl rfl h.separate.len hm, hm.paddingType.trans h.paddingType⟩
  · rcases hm.holds hb with hheld | hfree
    · exact h.separate.apart b hup hheld
    · exact hfree hup
  · exact hheap b fun hdown => h.separate.apart b hb hdown

/-- What others do to a buffer that neither loop holds. -/
theorem Inv.step_others (h : Inv t content target padding s) {buf : ℕ} {written : Buffer}
    (hs : step t s (.others buf written) = some s') : Inv t content target padding s' := by
  simp only [step] at hs
  split_ifs at hs with hfree
  rw [← Option.some_inj.mp hs]
  simp only [not_or, not_not] at hfree
  obtain ⟨hup, hdown, hlen⟩ := hfree
  refine ⟨⟨fun b => ?_, h.separate.apart⟩, h.up.congr fun b hb => ?_, h.down.congr fun b hb => ?_,
    h.paddingType⟩
  · show (Function.update s.heap buf written b).len = bufferSize
    by_cases hb : b = buf
    · rw [hb, Function.update_self]
      exact hlen
    · rw [Function.update_of_ne hb]
      exact h.separate.len b
  · refine Function.update_of_ne ?_ ..
    rintro rfl
    exact hup hb
  · refine Function.update_of_ne ?_ ..
    rintro rfl
    exact hdown hb

theorem Inv.step_hangUp (h : Inv t content target padding s) {src : Source}
    (hs : step t s (.hangUp src) = some s') : Inv t content target padding s' := by
  simp only [step] at hs
  split at hs
  · split_ifs at hs with hcut
    rw [← Option.some_inj.mp hs]
    exact ⟨⟨h.separate.len, h.separate.apart⟩, h.up.cut hcut, h.down, h.paddingType⟩
  · exact absurd hs nofun

theorem Inv.step {e : Event} (h : Inv t content target padding s) (hs : step t s e = some s') :
    Inv t content target padding s' := by
  cases e with
  | up buf => exact h.step_up hs
  | down buf => exact h.step_down hs
  | others buf written => exact h.step_others hs
  | hangUp src => exact h.step_hangUp hs

/-- Nothing but its own steps changes the loop to the client. -/
theorem down_eq_of_step {e : Event} (hs : step t s e = some s') (he : ∀ buf, e ≠ .down buf) :
    s'.down = s.down := by
  cases e with
  | up buf =>
    obtain ⟨r, -, rfl⟩ := Option.map_eq_some_iff.mp hs
    rfl
  | down buf => exact absurd rfl (he buf)
  | others buf written =>
    simp only [Tunnel.step] at hs
    split_ifs at hs
    rw [← Option.some_inj.mp hs]
  | hangUp src =>
    simp only [Tunnel.step] at hs
    split at hs
    · split_ifs at hs
      rw [← Option.some_inj.mp hs]
    · exact absurd hs nofun

/-! ## The way to the end -/

/-- How far a loop is from its end: a turn that goes round again has taken something from the
reader. -/
def Copying.rank (l : Copying) : ℕ :=
  match l.pc with
  | .entered => 2 * l.src.weight + 6
  | .reading _ => 2 * l.src.weight + 5
  | .writing _ _ none => 2 * l.src.weight + 6
  | .writing _ _ (some _) => 4
  | .copied _ _ => 3
  | .closing _ => 2
  | .returned _ => 1
  | .panicked _ => 0

theorem Copying.Move.rank_lt {c : Copier} {closes : Bool} {other : Option ℕ}
    {heap heap' : ℕ → Buffer} {l l' : Copying} (h : l.Move c closes other heap l' heap')
    (hlen : ∀ b, (heap b).len = bufferSize) : l'.rank < l.rank := by
  cases h with
  | take b hpc hfree => simp [Copying.rank, hpc]
  | read b nr er st hpc hread =>
    have hpos : 0 < (l.withBuffer (heap b)).buf.len := by
      show 0 < (heap b).len
      rw [hlen]
      decide
    cases er with
    | some e => simp [Copying.rank, hpc, Copying.after]
    | none =>
      have hlt : st.src.weight < l.src.weight := (progresses_readTurn hpos hread).2 rfl
      simp only [Copying.rank, hpc, Copying.after]
      omega
  | readPanic b p hpc hread => simp [Copying.rank, hpc]
  | writeFails b nr er err st hpc hwrite =>
    cases er with
    | some e => simp [Copying.rank, hpc, Copying.after]
    | none => simp [Copying.rank, hpc, Copying.after]
  | writeLast b nr e st hpc hwrite => simp [Copying.rank, hpc, Copying.after]
  | write b nr st hpc hwrite =>
    have hsrc : st.src = l.src := (writeTurn_src hwrite).1
    simp [Copying.rank, hpc, Copying.after, hsrc]
  | writePanic b nr er p hpc hwrite =>
    cases er with
    | some e => simp [Copying.rank, hpc]
    | none => simp [Copying.rank, hpc]
  | giveBack b err hpc => simp [Copying.rank, hpc]
  | close err hpc => simp [Copying.rank, hpc]

/-- A loop that has not returned can go on, whatever the other one does. -/
theorem Copying.exists_step (dst : Writer) (closes : Bool) (rand : ℕ → Fin 256) (other : Option ℕ)
    (heap : ℕ → Buffer) {l : Copying} (hret : ∀ err, l.pc ≠ .returned err)
    (hrun : ∀ p, l.pc ≠ .panicked p) : ∃ buf r, l.step dst closes rand other heap buf = some r := by
  -- the pool has a buffer that the other loop does not hold
  obtain ⟨buf, hbuf⟩ : ∃ buf, other ≠ some buf := by
    cases other with
    | none => exact ⟨0, nofun⟩
    | some b => exact ⟨b + 1, by simp⟩
  refine ⟨buf, ?_⟩
  simp only [Copying.step]
  cases hpc : l.pc with
  | entered => exact ⟨_, if_neg hbuf⟩
  | reading b =>
    dsimp only
    split
    · exact ⟨_, rfl⟩
    · exact ⟨_, rfl⟩
  | writing b nr er =>
    dsimp only
    split
    · exact ⟨_, rfl⟩
    · exact ⟨_, rfl⟩
    · cases er with
      | some e => exact ⟨_, rfl⟩
      | none => exact ⟨_, rfl⟩
  | copied b err => exact ⟨_, rfl⟩
  | closing err => exact ⟨_, rfl⟩
  | returned err => exact absurd hpc (hret err)
  | panicked p => exact absurd hpc (hrun p)

/-- The loop to the client can go on to its end by its own steps alone; if the client takes
everything, it ends with what the target ended with. -/
def Finishes (t : Ends) (target : Source) (s : State) : Prop :=
  ∃ es s' err, (∀ e ∈ es, ∃ buf, e = .down buf) ∧ runFrom (step t) s es = some s' ∧
    s'.down.pc = .returned err ∧ (t.client.Reliable → err = endErr target.final)

theorem Inv.finishes (h : Inv t content target padding s) : Finishes t target s := by
  have hstep : ∀ s, Inv t content target padding s → ¬ (∃ err, s.down.pc = .returned err) →
      ∃ e s', (∃ buf, e = Event.down buf) ∧ Tunnel.step t s e = some s' ∧
        Inv t content target padding s' ∧ s'.down.rank < s.down.rank := by
    intro s hinv hgoal
    obtain ⟨buf, r, hr⟩ := Copying.exists_step t.client t.clientCloses t.rand s.up.pc.holds s.heap
      (fun err hpc => hgoal ⟨err, hpc⟩) hinv.down.running
    have hs : Tunnel.step t s (.down buf) = some { s with down := r.1, heap := r.2 } :=
      Option.map_eq_some_iff.mpr ⟨r, hr, rfl⟩
    exact ⟨.down buf, _, ⟨buf, rfl⟩, hs, hinv.step hs,
      (Copying.move_of_step hr).rank_lt hinv.separate.len⟩
  obtain ⟨es, s', hes, hrun, hinv, err, hpc⟩ :=
    exists_runFrom_of_rank (fun s => s.down.rank) hstep h
  exact ⟨es, s', err, hes, hrun, hpc, fun hrel => hinv.down.reliable hrel err (by rw [hpc]; rfl)⟩

/-! ## Beginnings -/

/-- How a tunnel between `client` and `target` begins, and what the stream of the client is. -/
inductive Start (t : Ends) (heap : ℕ → Buffer) (client target : Source) :
    Bool → List UInt8 → State → Prop
  | plain : Start t heap client target false client.bytes (dualStream heap client target false)
  /-- The client sends a stream, or the front of it.  The content is what the stream decodes to. -/
  | padded {stream : List UInt8} (hclient : client.bytes <+: stream) :
      Start t heap client target true (unframe numFirstPaddings stream).1
        (dualStream heap client target true)
  /-- The stream is what the direction that adds padding makes of `plain`, each of whose reads
  delivers something.  The content is `plain` itself. -/
  | encoded {add : Copier} {plain : Source} {buf : Buffer} {r : CopyResult}
      (hadd : add.paddingType = .addPadding) (hdst : add.dst.Reliable) (heager : plain.Eager)
      (hbuf : buf.len = bufferSize) (hrun : flushingIoCopy add plain buf = some (.ok r))
      (hclient : client.bytes <+: r.sink) :
      Start t heap client target true plain.bytes (dualStream heap client target true)
  /-- Some bytes were buffered when the connection was hijacked. -/
  | hijacked {buffered accepted : List UInt8} {s : State}
      (h : serveHijack t heap (.ok buffered) none client target = (accepted, .ok s)) :
      Start t heap client target false (buffered ++ client.bytes) s

/-- The books of the loop to the client are in order at first. -/
theorem downInv_dualStream (heap : ℕ → Buffer) (client : Source) (w : Writer) :
    DownInv w target.bytes target.Eager target.final heap
      (dualStream heap client target padding).down := by
  refine ⟨fun _ => ⟨?_, rfl⟩, nofun, nofun, fun _ _ => nofun, nofun⟩
  cases padding with
  | false => exact List.nil_append _
  | true =>
    exact ⟨[], [], rfl, rfl, le_rfl, Nat.zero_le _, fun _ => rfl, nofun,
      fun heager => ⟨heager, .inl rfl⟩⟩

/-- What an encoder has sent decodes to what it was given. -/
theorem unframe_of_add {add : Copier} {plain : Source} {buf : Buffer} {r : CopyResult}
    (hadd : add.paddingType = .addPadding) (hdst : add.dst.Reliable) (heager : plain.Eager)
    (hbuf : buf.len = bufferSize) (hrun : flushingIoCopy add plain buf = some (.ok r)) :
    (unframe numFirstPaddings r.sink).1 = plain.bytes := by
  obtain ⟨fs, raw, hle, hraw, hbytes, hne, hend⟩ := ends_add hdst hadd
    (show ({ buf := buf, src := plain } : CopyState).buf.len = bufferSize from hbuf) heager
    (Nat.zero_add numFirstPaddings)
  obtain rfl : _ = r := by
    simpa using (flushingIoCopy_eq (by rw [hbuf]; decide) hend).symm.trans hrun
  rw [← hbytes]
  exact unframe_wire ⟨fs, raw, hle, hraw⟩ hne

/-- What the target takes of the buffered bytes begins them, and if it does not take all of them it
takes nothing more. -/
theorem accepted_cases (htarget : t.target.FailStop) (buffered : List UInt8) :
    buffered.take (t.target.write 0 buffered).1 = buffered ∨ t.target.DeadFrom 1 := by
  rcases htarget 0 buffered with hok | ⟨n, e, -, hdead⟩
  · rw [hok, List.take_length]
    exact .inl rfl
  · exact .inr hdead

theorem Start.inv {heap : ℕ → Buffer} (hheap : ∀ b, (heap b).len = bufferSize)
    (htarget : t.target.FailStop) {client : Source}
    (h : Start t heap client target padding content s) : Inv t content target padding s := by
  cases h with
  | plain =>
    refine ⟨⟨hheap, nofun⟩, ⟨List.nil_prefix, fun _ => .inl ?_, nofun⟩,
      downInv_dualStream heap client t.client, rfl⟩
    exact List.prefix_rfl
  | padded hclient =>
    refine ⟨⟨hheap, nofun⟩, ⟨List.nil_prefix, fun _ => .inl ?_, nofun⟩,
      downInv_dualStream heap client t.client, rfl⟩
    exact unframe_mono _ hclient
  | encoded hadd hdst heager hbuf hrun hclient =>
    refine ⟨⟨hheap, nofun⟩, ⟨List.nil_prefix, fun _ => .inl ?_, nofun⟩,
      downInv_dualStream heap client t.client, rfl⟩
    rw [← unframe_of_add hadd hdst heager hbuf hrun]
    exact unframe_mono _ hclient
  | @hijacked buffered accepted s h =>
    by_cases hpos : 0 < buffered.length
    · simp only [serveHijack, if_pos hpos] at h
      obtain ⟨rfl, hs⟩ := Prod.mk.inj h
      rw [← Except.ok.inj hs]
      refine ⟨⟨hheap, nofun⟩, ⟨?_, fun _ => ?_, nofun⟩,
        downInv_dualStream heap client t.client, rfl⟩
      · exact (List.take_prefix _ _).trans (List.prefix_append _ _)
      · rcases accepted_cases htarget buffered with hall | hdead
        · refine .inl ?_
          show buffered.take (t.target.write 0 buffered).1 ++ [] ++ client.bytes <+: _
          rw [hall, List.append_nil]
        · exact .inr hdead
    · obtain rfl : buffered = [] := List.length_eq_zero_iff.mp (Nat.eq_zero_of_not_pos hpos)
      obtain ⟨rfl, hs⟩ := Prod.mk.inj h
      rw [← Except.ok.inj hs]
      refine ⟨⟨hheap, nofun⟩, ⟨List.nil_prefix, fun _ => .inl ?_, nofun⟩,
      downInv_dualStream heap client t.client, rfl⟩
      exact List.prefix_rfl

/-! ## The relay -/

/-- What the client was given is the whole stream of the target.  With padding it is in frames, at
most `NumFirstPaddings` of them, and if every read of the target delivers something, bytes follow
only after that many. -/
def Delivered (padding : Bool) (target : Source) (given : List UInt8) : Prop :=
  match padding with
  | false => given = target.bytes
  | true => ∃ fs raw, given = encodeFrames fs ++ raw ∧ payloads fs ++ raw = target.bytes ∧
      fs.length ≤ numFirstPaddings ∧ (∀ f ∈ fs, f.payload ≠ []) ∧
      (target.Eager → fs.length < numFirstPaddings → raw = [])

theorem Inv.delivered (h : Inv t content target padding s) (hpc : s.down.pc = .returned none) :
    target.final = .eof ∧ Delivered padding target s.down.sink := by
  obtain ⟨hfinal, hbytes, hcarried⟩ := h.down.ended (by rw [hpc]; rfl)
  refine ⟨hfinal, ?_⟩
  rw [h.paddingType] at hcarried
  cases padding with
  | false =>
    have htotal : s.down.sink ++ s.down.src.bytes = target.bytes := hcarried
    rwa [hbytes, List.append_nil] at htotal
  | true =>
    obtain ⟨fs, raw, hframed⟩ := hcarried
    have htotal := hframed.total
    rw [hbytes, List.append_nil] at htotal
    refine ⟨fs, raw, hframed.sink, htotal, hframed.length_le.trans hframed.numPadding_le,
      hframed.payload, fun heager hlt => ?_⟩
    rcases (hframed.eager heager).2 with hcount | ⟨hraw, -⟩
    · exact hframed.raw_eq_nil (hcount ▸ hlt)
    · exact hraw

/-- **What a tunnel relays.**  The target takes everything until it fails for good.  However a
connection is hijacked, what the target has accepted of the buffered bytes begins them.  However the
tunnel begins, however the two loops interleave and whatever happens to other buffers of the pool,
in every state:

* what the target has accepted begins the stream of the client;
* the target is half closed only when the loop from the client is at its end;
* no step but its own changes the loop to the client, and that loop can go on to its end; if the
  client takes everything it ends without an error when the target ends with `EOF`;
* when `dualStream` has returned without an error, the target has ended with `EOF` and the client
  was given its whole stream, with padding if it is on. -/
theorem tunnel_relay (t : Ends) (htarget : t.target.FailStop) (heap : ℕ → Buffer)
    (hheap : ∀ b, (heap b).len = bufferSize) (client target : Source) :
    (∀ buffered flushErr,
      (serveHijack t heap (.ok buffered) flushErr client target).1 <+: buffered) ∧
    ∀ padding content s₀ s, Start t heap client target padding content s₀ →
      Reachable (step t) s₀ s →
      s.up.sink <+: content ∧
      (s.up.halfClosed = true → ∃ err, s.up.pc = .returned err) ∧
      (∀ e s', (∀ buf, e ≠ .down buf) → step t s e = some s' → s'.down = s.down) ∧
      Finishes t target s ∧
      (s.down.pc = .returned none → target.final = .eof ∧
        Delivered padding target s.down.sink) := by
  constructor
  · intro buffered flushErr
    have haccepted :
        (if 0 < buffered.length then buffered.take (t.target.write 0 buffered).1 else []) <+:
          buffered := by
      split_ifs
      · exact List.take_prefix _ _
      · exact List.nil_prefix
    cases flushErr with
    | none => exact haccepted
    | some err => exact haccepted
  · intro padding content s₀ s hstart hreach
    have hinv : Inv t content target padding s :=
      hreach.induction_on_step (hstart.inv hheap htarget) fun _ _ _ h hs => h.step hs
    exact ⟨hinv.up.sink, hinv.up.closed, fun e s' he hs => down_eq_of_step hs he, hinv.finishes,
      hinv.delivered⟩

/-- A tunnel whose ends take everything. -/
def reliableEnds : Ends where
  target := Writer.reliable false
  client := Writer.reliable true
  targetCloses := true
  clientCloses := false
  rand := (copier .noPadding).rand

/-- The byte `A` in a frame with two bytes of padding. -/
def frameA : Source := { chunks := [[0, 1], [2, 65, 0, 0]], glued := true }

/-- The loop from the client reads the frame, writes its payload and sees the end of the stream;
then the loop to the client, with the other buffer, does the same with `B`. -/
def paddedCrossing : List Event :=
  [.up 0, .down 1, .up 0, .down 0, .up 0, .up 0, .up 0, .up 0, .up 0, .down 0, .down 0, .down 0]

/-- Without padding the end of the stream is seen one turn earlier. -/
def crossing : List Event :=
  [.up 0, .down 1, .up 0, .down 0, .up 0, .up 0, .up 0, .down 0, .down 0, .down 0]

/-- The state behind a hijack with `X` in the buffer. -/
def hijackedX (client target : Source) : State :=
  let s := dualStream (fun _ => pooledBuffer) client target false
  { s with up := { s.up with sink := [88], writes := 1 } }

/-- A padded tunnel, and one behind a hijack with a byte in the buffer. -/
theorem tunnel_relay_crossing :
    (∃ s, runFrom (step reliableEnds) (dualStream (fun _ => pooledBuffer) frameA
        { chunks := [[66]], glued := true } true) paddedCrossing = some s ∧
      s.up.halfClosed = true ∧ s.down.pc = .returned none ∧ s.up.sink <+: [65] ∧
      Delivered true { chunks := [[66]], glued := true } s.down.sink) ∧
    ∃ s, runFrom (step reliableEnds) (hijackedX { chunks := [[65]], glued := true }
        { chunks := [[66]], glued := true }) crossing = some s ∧
      s.up.halfClosed = true ∧ s.down.pc = .returned none ∧ s.up.sink <+: [88, 65] ∧
      s.down.sink = [66] := by
  have hrelay := fun client => (tunnel_relay reliableEnds (fun _ _ => .inl rfl)
    (fun _ => pooledBuffer) (fun _ => rfl) client { chunks := [[66]], glued := true }).2
  constructor
  · have hrun : ((runFrom (step reliableEnds) (dualStream (fun _ => pooledBuffer) frameA
        { chunks := [[66]], glued := true } true) paddedCrossing).map
        fun s => (s.up.halfClosed, s.down.pc)) = some (true, .returned none) := by decide +kernel
    obtain ⟨s, hs, hend⟩ := Option.map_eq_some_iff.mp hrun
    obtain ⟨hclosed, hpc⟩ := Prod.mk.inj hend
    obtain ⟨hsink, -, -, -, hdelivered⟩ :=
      hrelay frameA true _ _ s (.padded List.prefix_rfl) ⟨paddedCrossing, hs⟩
    have hcontent : (unframe numFirstPaddings frameA.bytes).1 = [65] := by decide
    rw [hcontent] at hsink
    exact ⟨s, hs, hclosed, hpc, hsink, (hdelivered hpc).2⟩
  · have hrun : ((runFrom (step reliableEnds) (hijackedX { chunks := [[65]], glued := true }
        { chunks := [[66]], glued := true }) crossing).map
        fun s => (s.up.halfClosed, s.down.pc)) = some (true, .returned none) := by decide +kernel
    obtain ⟨s, hs, hend⟩ := Option.map_eq_some_iff.mp hrun
    obtain ⟨hclosed, hpc⟩ := Prod.mk.inj hend
    have hstart : Start reliableEnds (fun _ => pooledBuffer) { chunks := [[65]], glued := true }
        { chunks := [[66]], glued := true } false ([88] ++ [65])
        (hijackedX { chunks := [[65]], glued := true } { chunks := [[66]], glued := true }) :=
      @Start.hijacked reliableEnds _ _ _ [88] [88] _ rfl
    obtain ⟨hsink, -, -, -, hdelivered⟩ := hrelay _ false _ _ s hstart ⟨crossing, hs⟩
    exact ⟨s, hs, hclosed, hpc, hsink, (hdelivered hpc).2⟩

end Tunnel
end ForwardProxy
