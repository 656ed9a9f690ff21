import ForwardProxy.Core.NetIP
import ForwardProxy.Core.Transition
import ForwardProxy.Padding.RoundTrip

/-!
# `dualStream` as a transition system (`forwardproxy.go`)

A tunnel is two copy loops, one from the client to the target in a goroutine of its own, and one
from the target to the client in the goroutine of the request.  Each takes a buffer from
`bufferPool`, copies, gives the buffer back and closes the writing side of what it wrote to.

The loops interleave at every read and at every write.  They share the memory of the buffers: the
pool hands out a buffer that no one else holds, with whatever content it was given back with, and a
buffer that neither loop holds is used by others as they like.  What is read into a buffer has to be
there when it is written.

When `dualStream` returns, the caller closes both connections, and the loop from the client may
still run: what it can read from then on is a part of what was to come (`hangUp`), and its writes
fail.
-/

namespace ForwardProxy
namespace Tunnel

open ForwardProxy.Core Padding

/-- Where a loop stands. -/
inductive Pc where
  /-- About to take a buffer from the pool. -/
  | entered
  /-- At the head of the loop, with this buffer. -/
  | reading (buf : ℕ)
  /-- The read has returned `nr` and `er`. -/
  | writing (buf nr : ℕ) (er : Option IOErr)
  /-- The loop is left; about to give back the buffer. -/
  | copied (buf : ℕ) (err : Option IOErr)
  /-- About to call `CloseWrite`. -/
  | closing (err : Option IOErr)
  | returned (err : Option IOErr)
  | panicked (p : Panic)
  deriving DecidableEq

/-- One copy loop: the variables of `flushingIoCopy` but for the buffer, and what became of the
writer. -/
structure Copying where
  paddingType : PaddingType
  src : Source
  sink : List UInt8 := []
  writes : ℕ := 0
  numPadding : ℕ := 0
  written : ℕ := 0
  /-- `CloseWrite` was called on the writer. -/
  halfClosed : Bool := false
  pc : Pc := .entered

/-- The buffer that a loop holds. -/
def Pc.holds : Pc → Option ℕ
  | .reading buf => some buf
  | .writing buf _ _ => some buf
  | .copied buf _ => some buf
  | _ => none

namespace Copying

/-- The variables together with the buffer. -/
def withBuffer (l : Copying) (buf : Buffer) : CopyState :=
  { buf := buf, src := l.src, sink := l.sink, writes := l.writes, numPadding := l.numPadding,
    written := l.written }

/-- The variables after a half of a turn. -/
def after (l : Copying) (st : CopyState) (pc : Pc) : Copying :=
  { l with
    src := st.src, sink := st.sink, writes := st.writes, numPadding := st.numPadding
    written := st.written, pc := pc }

end Copying

/-- The other ends of a tunnel, which do not change. -/
structure Ends where
  target : Writer
  client : Writer
  /-- Whether they implement `closeWriter`. -/
  targetCloses : Bool
  clientCloses : Bool
  /-- What the calls of `rand.Intn(256)` return. -/
  rand : ℕ → Fin 256

/-- The state of a tunnel. -/
structure State where
  /-- The buffers of the pool, by their address. -/
  heap : ℕ → Buffer
  /-- From the client to the target. -/
  up : Copying
  /-- From the target to the client. -/
  down : Copying

/-- One action. -/
inductive Event where
  /-- The next action of the loop from the client; `buf` is what the pool will hand out. -/
  | up (buf : ℕ)
  | down (buf : ℕ)
  /-- Someone else writes to a buffer. -/
  | others (buf : ℕ) (content : Buffer)
  /-- The connection to the client is closed. -/
  | hangUp (src : Source)

/-- The next action of a loop, with the memory.  `other` is the buffer that the other loop holds. -/
def Copying.step (dst : Writer) (closes : Bool) (rand : ℕ → Fin 256) (other : Option ℕ)
    (heap : ℕ → Buffer) (l : Copying) (buf : ℕ) : Option (Copying × (ℕ → Buffer)) :=
  let c : Copier := { dst := dst, paddingType := l.paddingType, rand := rand }
  match l.pc with
  | .entered => if other = some buf then none else some ({ l with pc := .reading buf }, heap)
  | .reading b =>
    match readTurn c (l.withBuffer (heap b)) with
    | .error p => some ({ l with pc := .panicked p }, heap)
    | .ok (nr, er, st) => some (l.after st (.writing b nr er), Function.update heap b st.buf)
  | .writing b nr er =>
    match writeTurn c nr (l.withBuffer (heap b)) with
    | .error p => some ({ l with pc := .panicked p }, heap)
    | .ok (some err, st) => some (l.after st (.copied b (some err)), heap)
    | .ok (none, st) =>
      match er with
      | some er => some (l.after st (.copied b (if er = .eof then none else some er)), heap)
      | none => some (l.after st (.reading b), heap)
  | .copied _ err => some ({ l with pc := .closing err }, heap)
  | .closing err => some ({ l with pc := .returned err, halfClosed := closes }, heap)
  | .returned _ => none
  | .panicked _ => none

/-- One step of a tunnel.  `none` means that the action is not enabled. -/
def step (t : Ends) (s : State) : Event → Option State
  | .up buf =>
    (s.up.step t.target t.targetCloses t.rand s.down.pc.holds s.heap buf).map fun r =>
      { s with up := r.1, heap := r.2 }
  | .down buf =>
    (s.down.step t.client t.clientCloses t.rand s.up.pc.holds s.heap buf).map fun r =>
      { s with down := r.1, heap := r.2 }
  | .others buf content =>
    if s.up.pc.holds = some buf ∨ s.down.pc.holds = some buf ∨ content.len ≠ bufferSize then none
    else some { s with heap := Function.update s.heap buf content }
  | .hangUp src =>
    match s.down.pc with
    | .returned _ =>
      if src.bytes <+: s.up.src.bytes then some { s with up := { s.up with src := src } } else none
    | _ => none

/-- `dualStream(target, clientReader, clientWriter, padding)`, when both loops are about to
begin. -/
def dualStream (heap : ℕ → Buffer) (client target : Source) (padding : Bool) : State where
  heap := heap
  up := { paddingType := if padding then .removePadding else .noPadding, src := client }
  down := { paddingType := if padding then .addPadding else .noPadding, src := target }

/-- `serveHijack`: what the target has accepted before the loops begin, and the error or the tunnel.
`hijacked` is the outcome of `Hijack` with the bytes in `brw.Reader`, `flushErr` that of
`brw.Flush`. -/
def serveHijack (t : Ends) (heap : ℕ → Buffer) (hijacked : Except GoString (List UInt8))
    (flushErr : Option GoString) (client target : Source) :
    List UInt8 × Except (ℕ × GoString) State :=
  match hijacked with
  | .error err => ([], .error (500, ascii "hijack failed: " ++ err))
  | .ok buffered =>
    let n := if 0 < buffered.length then 1 else 0
    let accepted := if 0 < buffered.length then buffered.take (t.target.write 0 buffered).1 else []
    match flushErr with
    | some err => (accepted, .error (500, ascii "failed to flush to client: " ++ err))
    | none =>
      let s := dualStream heap client target false
      (accepted, .ok { s with up := { s.up with sink := accepted, writes := n } })

end Tunnel
end ForwardProxy
