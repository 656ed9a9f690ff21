import Mathlib.Logic.Function.Basic
import ForwardProxy.Core.Transition
import ForwardProxy.HttpClient.Dialer

/-!
# Tunnels that share an upstream connection

Several calls of `DialContext` run at once, and the tunnels they make on a cached HTTP/2
connection are streams of it.  The state here is the cache, the raw connections with whether
they are still open, the calls, each a program of `HttpClient.Dialer` at some point of its
run, and the tunnels that are live, each under the number of the call that made it.  A label
lets one call perform its next operation, so every interleaving of the calls, operation by
operation, is a run.

A tunnel is live from the moment the upstream has answered 200 until it is closed.  Closing an
HTTP/2 tunnel closes its stream and nothing else; an HTTP/1 tunnel is its raw connection.

## Ownership

What a call may do with a connection depends on how it came by it (`Role`): it owns a
connection that it has dialled itself, until it has a tunnel on it or has put it into the
cache, and it only uses the one it found in the cache.  This is a protocol (`ownership`) that
`DialContext` keeps to (`keeps_dialContext`); what follows from it for the interleaving is the
subject of `HttpClient.Isolation`.

The protocol has one hole, because the code has it: a call whose attempt on the cached
connection failed closes that connection (`Role.failed`), although it does not own it.
-/

namespace ForwardProxy
namespace HttpClient

open ForwardProxy.Core Prog

/-! ## Roles -/

/-- What a call is doing with which connection. -/
inductive Role where
  | start
  /-- It tries the cached connection. -/
  | reusing (rawConn : ℕ)
  /-- The attempt on the cached connection failed. -/
  | failed (rawConn : ℕ)
  /-- It has dialled the connection, and no one else knows it. -/
  | owner (rawConn : ℕ)
  /-- It has a tunnel on the HTTP/2 connection, or has put it into the cache. -/
  | published (rawConn : ℕ)
  /-- It has made the connection itself into a tunnel. -/
  | handedOver
  deriving DecidableEq, Repr

namespace Role

/-- The connection a call in this role may still use. -/
def conn : Role → Option ℕ
  | .start => none
  | .reusing rc => some rc
  | .failed rc => some rc
  | .owner rc => some rc
  | .published rc => some rc
  | .handedOver => none

/-- The attempt on the connection failed. -/
def fail : Role → Role
  | .reusing rc => .failed rc
  | role => role

/-- The role after an operation. -/
def next (role : Role) : (o : Op) → Resp o → Role
  | .cached, some (rc, true) => .reusing rc
  | .dial _ _, .ok rc => .owner rc
  | .dialTLS _ _, .ok (rc, _) => .owner rc
  | .tlsDial _ _, .ok rc => .owner rc
  | .roundTrip rc _, .ok resp => if resp.statusCode = 200 then .published rc else role.fail
  | .roundTrip _ _, .error _ => role.fail
  | .readResponse _, .ok resp => if resp.statusCode = 200 then .handedOver else role
  | .setCached rc, _ => .published rc
  | _, _ => role

/-- A call in this role dials next, if it does anything. -/
def Dials (role : Role) : Prop := role = .start ∨ ∃ rc, role = .failed rc

/-- The operations a role allows. -/
def Allows (role : Role) : Op → Prop
  | .cached => role = .start
  | .dial _ _ => role.Dials
  | .dialTLS _ _ => role.Dials
  | .tlsDial _ _ => role.Dials
  | .roundTrip rc _ => role = .reusing rc ∨ role = .owner rc
  | .close rc => role = .failed rc ∨ role = .owner rc
  | .setCached rc => role = .published rc ∨ role = .owner rc
  | .handshake rc => role = .owner rc
  | .negotiated rc => role = .owner rc
  | .newClientConn rc => role = .owner rc
  | .write rc _ => role = .owner rc
  | .readResponse rc => role = .owner rc

end Role

/-- The protocol of a call. -/
def ownership : Protocol Resp Role := ⟨Role.Allows, Role.next⟩

/-! ## `DialContext` keeps to the protocol -/

/-- A program keeps to the protocol. -/
abbrev Keeps {α : Type} (Q : α → Role → Prop) (role : Role) (p : Prog Resp α) : Prop :=
  Follows ownership Q role p

/-- Without a tunnel an attempt leaves the role, but for the failure. -/
theorem keeps_connectHttp2 {role : Role} {rc : ℕ} (h : role = .reusing rc ∨ role = .owner rc)
    (req : ConnectRequest) :
    Keeps (fun res role' => role' = role.fail ∨ role' = .published rc ∧ res.2 = none) role
      (connectHttp2 req rc) := by
  have hclose : role.fail.Allows (.close rc) := by
    rcases h with rfl | rfl
    · exact Or.inl rfl
    · exact Or.inr rfl
  refine ⟨h, ?_⟩
  rintro (err | resp)
  · exact ⟨hclose, fun _ => Or.inl rfl⟩
  · show Keeps _ (if resp.statusCode = 200 then Role.published rc else role.fail)
      (if resp.statusCode ≠ 200 then _ else _)
    by_cases hresp : resp.statusCode = 200
    · rw [if_pos hresp, if_neg (not_not.mpr hresp)]
      exact Or.inr ⟨rfl, rfl⟩
    · rw [if_neg hresp, if_pos hresp]
      exact ⟨hclose, fun _ => Or.inl rfl⟩

theorem keeps_connectHttp1 (req : ConnectRequest) (rc : ℕ) :
    Keeps (fun _ _ => True) (.owner rc) (connectHttp1 req rc) := by
  have hclose : (Role.owner rc).Allows (.close rc) := Or.inr rfl
  refine ⟨rfl, ?_⟩
  rintro (_ | err)
  · refine ⟨rfl, ?_⟩
    rintro (err | resp)
    · exact ⟨hclose, fun _ => trivial⟩
    · show Keeps _ (if resp.statusCode = 200 then Role.handedOver else .owner rc)
        (if resp.statusCode ≠ 200 then _ else _)
      by_cases hresp : resp.statusCode = 200
      · rw [if_pos hresp, if_neg (not_not.mpr hresp)]
        trivial
      · rw [if_neg hresp, if_pos hresp]
        exact ⟨hclose, fun _ => trivial⟩
  · exact ⟨hclose, fun _ => trivial⟩

theorem keeps_startHttp2 (c : HTTPConnectDialer) (req : ConnectRequest) (rc : ℕ) :
    Keeps (fun _ _ => True) (.owner rc) (startHttp2 c req rc) := by
  refine ⟨rfl, ?_⟩
  rintro (_ | err)
  · show Keeps _ (.owner rc) (connectHttp2 req rc >>= _)
    refine follows_bind.mpr ((keeps_connectHttp2 (Or.inr rfl) req).mono ?_)
    rintro ⟨proxyConn, err⟩ role hrole
    have hset : role.Allows (.setCached rc) := hrole.elim Or.inr fun h => Or.inl h.1
    by_cases herr : err = none
    · simp only [herr, ne_eq, not_true_eq_false, if_false]
      split_ifs
      · exact ⟨hset, fun _ => trivial⟩
      · trivial
    · simp only [herr, ne_eq, not_false_eq_true, if_true]
      exact ⟨hrole.elim Or.inr fun h => absurd h.2 herr, fun _ => trivial⟩
  · exact ⟨Or.inr rfl, fun _ => trivial⟩

theorem keeps_connectNegotiated (c : HTTPConnectDialer) (req : ConnectRequest) (rc : ℕ)
    (negotiatedProtocol : GoString) :
    Keeps (fun _ _ => True) (.owner rc) (connectNegotiated c req rc negotiatedProtocol) := by
  unfold connectNegotiated
  split_ifs
  · exact keeps_connectHttp1 req rc
  · exact keeps_startHttp2 c req rc
  · exact ⟨Or.inr rfl, fun _ => trivial⟩

theorem keeps_dialFresh {role : Role} (h : role.Dials) (c : HTTPConnectDialer)
    (network : GoString) (req : ConnectRequest) :
    Keeps (fun _ _ => True) role (dialFresh c network req) := by
  unfold dialFresh
  split_ifs
  · refine ⟨h, ?_⟩
    rintro (err | rc)
    · trivial
    · exact keeps_connectNegotiated c req rc []
  · refine ⟨h, ?_⟩
    rintro (err | ⟨rc, negotiatedProtocol⟩)
    · trivial
    · exact keeps_connectNegotiated c req rc negotiatedProtocol
  · refine ⟨h, ?_⟩
    rintro (err | rc)
    · trivial
    · refine ⟨rfl, ?_⟩
      rintro (_ | err)
      · exact ⟨rfl, fun negotiatedProtocol => keeps_connectNegotiated c req rc negotiatedProtocol⟩
      · trivial
  · trivial

theorem keeps_dialCached (c : HTTPConnectDialer) (req : ConnectRequest) :
    Keeps (fun res role => res = none → role.Dials) .start (dialCached c req) := by
  unfold dialCached
  split_ifs
  · refine ⟨rfl, ?_⟩
    rintro (_ | ⟨rc, _ | _⟩)
    · exact fun _ => Or.inl rfl
    · exact fun _ => Or.inl rfl
    · show Keeps _ (.reusing rc) (connectHttp2 req rc >>= _)
      refine follows_bind.mpr ((keeps_connectHttp2 (Or.inl rfl) req).mono ?_)
      rintro ⟨proxyConn, err⟩ role (rfl | ⟨-, rfl⟩)
      · exact fun _ => Or.inr ⟨rc, rfl⟩
      · exact fun h => absurd h (by simp)
  · exact fun _ => Or.inl rfl

/-- **`DialContext` keeps to the protocol.** -/
theorem keeps_dialContext (c : HTTPConnectDialer) (network address : GoString)
    (ctxHeader : Option Header) :
    Keeps (fun _ _ => True) .start (dialContext c network address ctxHeader) := by
  refine follows_bind.mpr ((keeps_dialCached c _).mono ?_)
  rintro (_ | res) role hrole
  · exact keeps_dialFresh (hrole rfl) c network _
  · trivial

/-! ## The machine -/

/-- The raw connection of a tunnel. -/
def Conn.rawConn : Conn → ℕ
  | .raw rc => rc
  | .http2 rc => rc

/-- A call: what it has still to do, and its role, which no step depends on. -/
structure Call where
  prog : Prog Resp Result
  role : Role

/-- The state of a dialer that is in use. -/
structure State where
  /-- `cachedH2RawConn` and `cachedH2ClientConn`. -/
  cache : Option ℕ := none
  /-- The raw connections made so far; whether this process has not closed them. -/
  raws : List Bool := []
  calls : ℕ → Option Call := fun _ => none
  /-- The live tunnels, by the call that made them. -/
  live : ℕ → Option Conn := fun _ => none

/-- The labels. -/
inductive Event where
  /-- `DialContext` is called; the call gets the number `i`. -/
  | call (i : ℕ) (network address : GoString) (ctxHeader : Option Header)
  /-- The call performs its next operation. -/
  | perform (i : ℕ) (x : Exchange)
  /-- `Close` of the tunnel that the call returned. -/
  | closeTunnel (i : ℕ)

namespace State

/-- The raw connection has not been closed. -/
abbrev Open (s : State) (rc : ℕ) : Prop := s.raws[rc]? = some true

/-- What the environment may answer: the cache is read as it is, a new connection gets the
next number, and no response comes over a connection that was closed. -/
def possible (s : State) : (o : Op) → Resp o → Bool
  | .cached, r => r.map Prod.fst = s.cache
  | .dial _ _, .ok rc => rc = s.raws.length
  | .dialTLS _ _, .ok (rc, _) => rc = s.raws.length
  | .tlsDial _ _, .ok rc => rc = s.raws.length
  | .roundTrip rc _, .ok _ => s.Open rc
  | .readResponse rc, .ok _ => s.Open rc
  | _, _ => true

/-- A raw connection is made. -/
def addRaw (s : State) : State := { s with raws := s.raws ++ [true] }

/-- A raw connection is closed. -/
def closeRaw (s : State) (rc : ℕ) : State := { s with raws := s.raws.set rc false }

/-- Call `i` has a tunnel. -/
def addTunnel (s : State) (i : ℕ) (t : Conn) : State :=
  { s with live := Function.update s.live i (some t) }

/-- The call becomes this. -/
def setCall (s : State) (i : ℕ) (call : Call) : State :=
  { s with calls := Function.update s.calls i (some call) }

/-- What an operation of call `i` does. -/
def effect (s : State) (i : ℕ) : (o : Op) → Resp o → State
  | .dial _ _, .ok _ => s.addRaw
  | .dialTLS _ _, .ok _ => s.addRaw
  | .tlsDial _ _, .ok _ => s.addRaw
  | .roundTrip rc _, .ok resp => if resp.statusCode = 200 then s.addTunnel i (.http2 rc) else s
  | .readResponse rc, .ok resp => if resp.statusCode = 200 then s.addTunnel i (.raw rc) else s
  | .close rc, _ => s.closeRaw rc
  | .setCached rc, _ => { s with cache := some rc }
  | _, _ => s

/-- `Close` of a tunnel: of both ends of the stream, or of the raw connection. -/
def closeTunnel (s : State) (i : ℕ) : Conn → State
  | .http2 _ => { s with live := Function.update s.live i none }
  | .raw rc => { s.closeRaw rc with live := Function.update s.live i none }

end State

open State

/-- One step. -/
def step (c : HTTPConnectDialer) (s : State) : Event → Option State
  | .call i network address ctxHeader =>
    if (s.calls i).isNone then
      some (s.setCall i ⟨dialContext c network address ctxHeader, .start⟩)
    else none
  | .perform i x => do
    let call ← s.calls i
    let p ← call.prog.advance x
    if s.possible x.1 x.2 then
      return (s.effect i x.1 x.2).setCall i ⟨p, call.role.next x.1 x.2⟩
    else none
  | .closeTunnel i => (s.live i).map (s.closeTunnel i)

/-- The ways in which a step can happen. -/
inductive Move (c : HTTPConnectDialer) (s : State) : Event → State → Prop
  | call {i : ℕ} {network address : GoString} {ctxHeader : Option Header}
      (hi : s.calls i = none) :
      Move c s (.call i network address ctxHeader)
        (s.setCall i ⟨dialContext c network address ctxHeader, .start⟩)
  | perform {i : ℕ} {o : Op} {r : Resp o} {call : Call} {p : Prog Resp Result}
      (hi : s.calls i = some call) (hp : call.prog.advance ⟨o, r⟩ = some p)
      (hr : s.possible o r = true) :
      Move c s (.perform i ⟨o, r⟩) ((s.effect i o r).setCall i ⟨p, call.role.next o r⟩)
  | closeTunnel {i : ℕ} {t : Conn} (hi : s.live i = some t) :
      Move c s (.closeTunnel i) (s.closeTunnel i t)

theorem move_of_step {c : HTTPConnectDialer} {s s' : State} {e : Event}
    (h : step c s e = some s') : Move c s e s' := by
  cases e with
  | call i network address ctxHeader =>
    simp only [step] at h
    split at h
    · rename_i hi
      cases h
      exact .call (Option.isNone_iff_eq_none.mp hi)
    · cases h
  | perform i x =>
    obtain ⟨o, r⟩ := x
    obtain ⟨call, hi, h⟩ := Option.bind_eq_some_iff.mp h
    obtain ⟨p, hp, h⟩ := Option.bind_eq_some_iff.mp h
    split at h
    · rename_i hr
      cases h
      exact .perform hi hp hr
    · cases h
  | closeTunnel i =>
    obtain ⟨t, hi, rfl⟩ := Option.map_eq_some_iff.mp h
    exact .closeTunnel hi

end HttpClient
end ForwardProxy
