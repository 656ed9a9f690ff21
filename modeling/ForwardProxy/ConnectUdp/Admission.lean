import ForwardProxy.ConnectUdp.Association
import ForwardProxy.Core.CountMap
import ForwardProxy.Core.Transition

/-!
# Admission of CONNECT-UDP associations

Any number of requests run `serveConnectUDP` at once, on one set of counters.  The state here is
the counters, the associations that were ever admitted with how far their `release` has come,
the open UDP sockets, and the requests, each a program of `ConnectUdp.Association` at some point
of its run.  A label lets one request perform its next operation, so every interleaving is a
run.  Others may call `acquireConnectUDP` as well and call the `release` they get as often as
they like; for them the calls are labels of their own.

## Stages

What a request may do depends on what it has (`Stage`): nothing, an association, an association
with a socket.  This is a protocol (`admission`) that `serveConnectUDP` keeps to
(`keeps_serveConnectUDP`), on whichever of its paths it ends: with a socket in hand it does
nothing about the association, and it ends with neither.
-/

namespace ForwardProxy
namespace ConnectUdp

open ForwardProxy.Core Prog Acl Dial Serve

/-! ## The counters -/

/-- The fields of the handler that `connectUDPMu` protects. -/
structure Counters where
  active : ℤ := 0
  byClient : CountMap GoString := ∅
  nextID : UInt64 := 0

/-- `connectUDPMaxActive`, or its default. -/
def maxActive (h : Handler) : ℤ := if h.connectUDPMaxActive ≤ 0 then 512 else h.connectUDPMaxActive

/-- `connectUDPMaxClientActive`, or its default. -/
def maxClient (h : Handler) : ℤ :=
  if h.connectUDPMaxClientActive ≤ 0 then 128 else h.connectUDPMaxClientActive

/-- The critical section of `acquireConnectUDP`: the counters afterwards, and the identifier
unless the caller is refused. -/
def Counters.acquireConnectUDP (h : Handler) (c : Counters) (client : GoString) :
    Counters × Option UInt64 :=
  if maxActive h ≤ c.active then (c, none)
  else if maxClient h ≤ c.byClient.get client then (c, none)
  else
    ({ active := c.active + 1, byClient := c.byClient.increment client, nextID := c.nextID + 1 },
      some (c.nextID + 1))

/-- The critical section of `release`. -/
def Counters.release (c : Counters) (client : GoString) : Counters :=
  { c with active := c.active - 1, byClient := c.byClient.decrement client }

/-! ## Stages -/

/-- What a request has. -/
inductive Stage where
  | fresh
  /-- An association, and no socket yet. -/
  | holding (association : ℕ)
  /-- An association with an open socket. -/
  | connected (association udp : ℕ)
  /-- An association whose socket has been closed. -/
  | closed (association udp : ℕ)
  /-- It runs the function under `once.Do`. -/
  | releasing (association : ℕ)
  | finished
  deriving DecidableEq, Repr

namespace Stage

/-- The association that is still to be released. -/
def association : Stage → Option ℕ
  | .fresh => none
  | .holding k => some k
  | .connected k _ => some k
  | .closed k _ => some k
  | .releasing k => some k
  | .finished => none

/-- The socket that is open. -/
def socket : Stage → Option ℕ
  | .connected _ udp => some udp
  | _ => none

/-- The stage after an operation. -/
def next (stage : Stage) : (o : Op) → Resp o → Stage
  | .acquire _, none => .finished
  | .acquire _, some (k, _) => .holding k
  | .dial _, (some udp, none) => match stage with
    | .holding k => .connected k udp
    | stage => stage
  | .closeUDP _, _ => match stage with
    | .connected k udp => .closed k udp
    | stage => stage
  | .beginRelease k _, true => .releasing k
  | .beginRelease _ _, false => .finished
  | .release _, _ => .finished
  | _, _ => stage

/-- The operations a stage allows. -/
def Allows (stage : Stage) : Op → Prop
  | .acquire _ => stage = .fresh
  | .dial _ => ∃ k, stage = .holding k
  | .closeUDP udp => ∃ k, stage = .connected k udp ∨ stage = .closed k udp
  | .beginRelease k _ => stage = .holding k ∨ ∃ udp, stage = .closed k udp
  | .release k => stage = .releasing k
  | _ => True

end Stage

/-- The protocol of a request. -/
def admission : Protocol Resp Stage := ⟨Stage.Allows, Stage.next⟩

/-- A program keeps to the protocol. -/
abbrev Keeps {α : Type} (Q : α → Stage → Prop) (stage : Stage) (p : Prog Resp α) : Prop :=
  Follows admission Q stage p

/-! ## `serveConnectUDP` keeps to the protocol -/

theorem keeps_dialConnectUDPTarget (k : ℕ) (addresses : List GoString) :
    Keeps (fun res stage => match res with
      | some udp => stage = .connected k udp
      | none => stage = .holding k) (.holding k) (dialConnectUDPTarget addresses) := by
  induction addresses with
  | nil => exact rfl
  | cons address addresses ih =>
    refine ⟨⟨k, rfl⟩, ?_⟩
    rintro ⟨_ | udp, _ | err⟩
    · exact ih
    · exact ih
    · exact rfl
    · exact ih

theorem keeps_run (k udp : ℕ) :
    Keeps (fun _ stage => stage = .closed k udp) (.connected k udp) (run udp) :=
  ⟨trivial, fun _ => ⟨trivial, fun _ => ⟨⟨k, Or.inl rfl⟩, fun _ =>
    ⟨trivial, fun _ => ⟨trivial, fun _ => rfl⟩⟩⟩⟩⟩

/-- The deferred `udp.Close` comes second if the association has run. -/
theorem keeps_serveSocket (k udp : ℕ) :
    Keeps (fun _ stage => stage = .connected k udp ∨ stage = .closed k udp) (.connected k udp)
      (serveSocket udp) := by
  refine ⟨trivial, fun _ => ⟨trivial, ?_⟩⟩
  rintro (_ | _)
  · exact Or.inl rfl
  · show Keeps _ (.connected k udp) (run udp >>= _)
    refine follows_bind.mpr ((keeps_run k udp).mono ?_)
    exact fun _ _ hstage => Or.inr hstage

/-- Between admission and release a request ends without a socket. -/
theorem keeps_serveResolved (k : ℕ) (resolved : ResolvedTarget) :
    Keeps (fun _ stage => stage = .holding k ∨ ∃ udp, stage = .closed k udp) (.holding k)
      (serveResolved resolved) := by
  refine ⟨trivial, ?_⟩
  rintro (_ | _)
  · exact Or.inl rfl
  refine ⟨trivial, ?_⟩
  rintro (_ | err)
  · refine ⟨trivial, ?_⟩
    rintro (_ | _ | _)
    · exact Or.inl rfl
    · exact Or.inl rfl
    · show Keeps _ (.holding k) (dialConnectUDPTarget resolved.addresses >>= _)
      refine follows_bind.mpr ((keeps_dialConnectUDPTarget k resolved.addresses).mono ?_)
      rintro (_ | udp) stage hstage
      · exact Or.inl hstage
      · rw [show stage = .connected k udp from hstage]
        show Keeps _ (.connected k udp) (serveSocket udp >>= _)
        refine follows_bind.mpr ((keeps_serveSocket k udp).mono ?_)
        rintro res stage (rfl | rfl)
        · exact ⟨⟨k, Or.inl rfl⟩, fun _ => Or.inr ⟨udp, rfl⟩⟩
        · exact ⟨⟨k, Or.inr rfl⟩, fun _ => Or.inr ⟨udp, rfl⟩⟩
  · exact Or.inl rfl

theorem keeps_serveAdmitted (h : Handler) (k : ℕ) (target : ConnectUDPTarget) :
    Keeps (fun _ stage => stage = .holding k ∨ ∃ udp, stage = .closed k udp) (.holding k)
      (serveAdmitted h target) := by
  unfold serveAdmitted
  split
  · exact Or.inl rfl
  · rw [perform_bind]
    refine ⟨trivial, fun answer => ?_⟩
    dsimp only
    split
    · exact Or.inl rfl
    · exact keeps_serveResolved k _

/-- **`serveConnectUDP` keeps to the protocol**, and ends with nothing left to release. -/
theorem keeps_serveConnectUDP (lib : Lib) (h : Handler) (r : Request) :
    Keeps (fun _ stage => stage.association = none) .fresh (serveConnectUDP lib h r) := by
  unfold serveConnectUDP
  split
  · exact rfl
  · rename_i target _
    split_ifs
    · exact rfl
    · refine ⟨rfl, ?_⟩
      rintro (_ | ⟨k, id⟩)
      · exact rfl
      · show Keeps _ (.holding k) (serveAdmitted h target >>= _)
        refine follows_bind.mpr ((keeps_serveAdmitted h k target).mono ?_)
        rintro ⟨reason, err⟩ stage hstage
        refine ⟨hstage, ?_⟩
        rintro (_ | _)
        · exact rfl
        · exact ⟨rfl, fun _ => rfl⟩

/-! ## The machine -/

/-- How far the `release` of an association has come: the state of its `sync.Once`. -/
inductive Once where
  | idle
  | running
  | done
  deriving DecidableEq, Repr

/-- An association that was admitted. -/
structure Admitted where
  client : GoString
  id : UInt64
  once : Once := .idle
  /-- The request that holds it; `none` if someone else called `acquireConnectUDP`. -/
  request : Option ℕ
  deriving DecidableEq, Repr

/-- The association has not been released. -/
def Admitted.outstanding (a : Admitted) : Bool := a.once != .done

/-- A request: what it has still to do, and its stage, which no step depends on. -/
structure Served where
  prog : Prog Resp (Request × Option ServeError)
  stage : Stage

/-- The state of a handler that serves CONNECT-UDP requests. -/
structure State where
  counters : Counters := {}
  /-- All associations ever admitted, in order. -/
  associations : List Admitted := []
  /-- The UDP sockets that are open. -/
  sockets : List ℕ := []
  /-- How many sockets were ever opened. -/
  dialled : ℕ := 0
  requests : ℕ → Option Served := fun _ => none

/-- The labels. -/
inductive Event where
  /-- A request arrives; it gets the number `i`. -/
  | request (i : ℕ) (r : Request)
  /-- The request performs its next operation. -/
  | perform (i : ℕ) (x : Exchange)
  /-- Someone else calls `acquireConnectUDP`. -/
  | acquire (client : GoString)
  /-- Someone else calls the `release` that such a call returned. -/
  | beginRelease (association : ℕ)
  | release (association : ℕ)

namespace State

/-- What the environment may answer: `acquireConnectUDP` answers by the counters, a call of
`once.Do` waits as long as another one is running, and a dial returns a new connection or an
error, but not both. -/
def possible (h : Handler) (s : State) : (o : Op) → Resp o → Bool
  | .acquire client, r =>
    r = (s.counters.acquireConnectUDP h client).2.map fun id => (s.associations.length, id)
  | .beginRelease k _, first =>
    match s.associations[k]? with
    | some a => (a.once = .idle && first) || (a.once = .done && !first)
    | none => false
  | .dial _, (conn, err) => conn = none || (conn = some s.dialled && err = none)
  | _, _ => true

/-- `acquireConnectUDP`, called by a request or by someone else. -/
def acquire (h : Handler) (s : State) (client : GoString) (request : Option ℕ) : State :=
  match s.counters.acquireConnectUDP h client with
  | (counters, none) => { s with counters := counters }
  | (counters, some id) =>
    { s with counters := counters, associations := s.associations ++ [{ client, id, request }] }

/-- The `sync.Once` of an association moves on. -/
def setOnce (s : State) (k : ℕ) (a : Admitted) (once : Once) : State :=
  { s with associations := s.associations.set k { a with once := once } }

/-- The function under the `sync.Once` of an association runs. -/
def release (s : State) (k : ℕ) (a : Admitted) : State :=
  { s.setOnce k a .done with counters := s.counters.release a.client }

/-- The request becomes this. -/
def setRequest (s : State) (i : ℕ) (q : Served) : State :=
  { s with requests := Function.update s.requests i (some q) }

/-- What an operation of request `i` does. -/
def effect (h : Handler) (s : State) (i : ℕ) : (o : Op) → Resp o → State
  | .acquire client, _ => s.acquire h client (some i)
  | .beginRelease k _, true => (s.associations[k]?).elim s fun a => s.setOnce k a .running
  | .release k, _ => (s.associations[k]?).elim s fun a => s.release k a
  | .dial _, (some udp, _) => { s with sockets := udp :: s.sockets, dialled := s.dialled + 1 }
  | .closeUDP udp, _ => { s with sockets := s.sockets.erase udp }
  | _, _ => s

end State

open State

/-- One step. -/
def step (lib : Lib) (h : Handler) (s : State) : Event → Option State
  | .request i r =>
    if (s.requests i).isNone then some (s.setRequest i ⟨serveConnectUDP lib h r, .fresh⟩) else none
  | .perform i x => do
    let q ← s.requests i
    let p ← q.prog.advance x
    if s.possible h x.1 x.2 then
      return (s.effect h i x.1 x.2).setRequest i ⟨p, q.stage.next x.1 x.2⟩
    else none
  | .acquire client => some (s.acquire h client none)
  | .beginRelease k => do
    let a ← s.associations[k]?
    match a.request, a.once with
    | none, .idle => return s.setOnce k a .running
    | none, .done => return s
    | _, _ => none
  | .release k => do
    let a ← s.associations[k]?
    if a.request = none ∧ a.once = .running then return s.release k a else none

/-- The ways in which a step can happen. -/
inductive Move (lib : Lib) (h : Handler) (s : State) : Event → State → Prop
  | request {i : ℕ} {r : Request} (hi : s.requests i = none) :
      Move lib h s (.request i r) (s.setRequest i ⟨serveConnectUDP lib h r, .fresh⟩)
  | perform {i : ℕ} {o : Op} {r : Resp o} {q : Served} {p : Prog Resp (Request × Option ServeError)}
      (hi : s.requests i = some q) (hp : q.prog.advance ⟨o, r⟩ = some p)
      (hr : s.possible h o r = true) :
      Move lib h s (.perform i ⟨o, r⟩) ((s.effect h i o r).setRequest i ⟨p, q.stage.next o r⟩)
  | acquire {client : GoString} : Move lib h s (.acquire client) (s.acquire h client none)
  | beginRelease {k : ℕ} {a : Admitted} (ha : s.associations[k]? = some a) (hreq : a.request = none)
      (honce : a.once = .idle) : Move lib h s (.beginRelease k) (s.setOnce k a .running)
  | releaseAgain {k : ℕ} {a : Admitted} (ha : s.associations[k]? = some a)
      (honce : a.once = .done) : Move lib h s (.beginRelease k) s
  | release {k : ℕ} {a : Admitted} (ha : s.associations[k]? = some a) (hreq : a.request = none)
      (honce : a.once = .running) : Move lib h s (.release k) (s.release k a)

theorem move_of_step {lib : Lib} {h : Handler} {s s' : State} {e : Event}
    (hs : step lib h s e = some s') : Move lib h s e s' := by
  cases e with
  | request i r =>
    simp only [step] at hs
    split at hs
    · rename_i hi
      cases hs
      exact .request (Option.isNone_iff_eq_none.mp hi)
    · cases hs
  | perform i x =>
    obtain ⟨o, r⟩ := x
    obtain ⟨q, hi, hs⟩ := Option.bind_eq_some_iff.mp hs
    obtain ⟨p, hp, hs⟩ := Option.bind_eq_some_iff.mp hs
    split at hs
    · rename_i hr
      cases hs
      exact .perform hi hp hr
    · cases hs
  | acquire client =>
    cases hs
    exact .acquire
  | beginRelease k =>
    obtain ⟨a, ha, hs⟩ := Option.bind_eq_some_iff.mp hs
    split at hs
    · rename_i hreq honce
      cases hs
      exact .beginRelease ha hreq honce
    · rename_i hreq honce
      cases hs
      exact .releaseAgain ha honce
    · cases hs
  | release k =>
    obtain ⟨a, ha, hs⟩ := Option.bind_eq_some_iff.mp hs
    split at hs
    · rename_i hg
      cases hs
      exact .release ha hg.1 hg.2
    · cases hs

end ConnectUdp
end ForwardProxy
