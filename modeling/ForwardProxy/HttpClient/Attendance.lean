import ForwardProxy.HttpClient.Dialer

/-!
# How `DialContext` looks after its connections

A call of `DialContext` that has started HTTP/2 on a connection, or has taken one out of the cache,
has it in its charge until it has closed it, has put it into the cache, or has made a tunnel of it
(`Charge`).  Which operations a charge allows, and what they make of it, is a protocol
(`attendance`) that `DialContext` keeps to, and at its end the call has nothing in its charge
(`attends_dialContext`).

The protocol knows more than that of `HttpClient.Tunnels`: a connection that was closed is not in
anybody's charge, and on a connection of its own a call either starts HTTP/2 or makes it a tunnel
itself.
-/

namespace ForwardProxy
namespace HttpClient

open ForwardProxy.Core Prog

/-! ## What a call has in its charge -/

/-- What a call has done with which connection. -/
inductive Charge where
  | start
  /-- It tries the cached connection, and will close it if that fails. -/
  | reusing (rawConn : ℕ)
  /-- It has dialled the connection. -/
  | dialled (rawConn : ℕ)
  /-- It has started HTTP/2 on the connection it has dialled. -/
  | http2 (rawConn : ℕ)
  /-- It has a tunnel on that connection, and is about to put it into the cache. -/
  | caching (rawConn : ℕ)
  /-- It has closed that connection. -/
  | closed (rawConn : ℕ)
  | over
  deriving DecidableEq, Repr

namespace Charge

/-- The HTTP/2 connection that the call has still to close, to cache, or to make a tunnel of. -/
def conn : Charge → Option ℕ
  | .reusing rc => some rc
  | .http2 rc => some rc
  | .caching rc => some rc
  | _ => none

/-- The call got a tunnel. -/
def tunnel (c : HTTPConnectDialer) : Charge → Charge
  | .http2 rc => if c.enableH2ConnReuse then .caching rc else .over
  | _ => .over

/-- The call closed the connection. -/
def close : Charge → Charge
  | .reusing _ => .start
  | .http2 rc => .closed rc
  | charge => charge

/-- The charge after an operation. -/
def next (c : HTTPConnectDialer) (charge : Charge) : (o : Op) → Resp o → Charge
  | .cached, some (rc, true) => .reusing rc
  | .dial _ _, .ok rc => .dialled rc
  | .dialTLS _ _, .ok (rc, _) => .dialled rc
  | .tlsDial _ _, .ok rc => .dialled rc
  | .newClientConn rc, _ => .http2 rc
  | .roundTrip _ _, .ok resp => if resp.statusCode = 200 then charge.tunnel c else charge
  | .readResponse _, .ok resp => if resp.statusCode = 200 then .over else charge
  | .close _, _ => charge.close
  | .setCached _, _ => .over
  | _, _ => charge

/-- The operations a charge allows. -/
def Allows (charge : Charge) : Op → Prop
  | .cached => charge = .start
  | .dial _ _ => charge = .start
  | .dialTLS _ _ => charge = .start
  | .tlsDial _ _ => charge = .start
  | .handshake rc => charge = .dialled rc
  | .negotiated rc => charge = .dialled rc
  | .newClientConn rc => charge = .dialled rc
  | .write rc _ => charge = .dialled rc
  | .readResponse rc => charge = .dialled rc
  | .roundTrip rc _ => charge = .reusing rc ∨ charge = .http2 rc
  | .close rc => charge = .reusing rc ∨ charge = .dialled rc ∨ charge = .http2 rc ∨
      charge = .closed rc
  | .setCached rc => charge = .caching rc ∨ charge = .closed rc

end Charge

/-- The protocol of a call that looks after its connections. -/
def attendance (c : HTTPConnectDialer) : Protocol Resp Charge := ⟨Charge.Allows, Charge.next c⟩

/-! ## `DialContext` looks after its connections -/

/-- A program keeps to the protocol. -/
abbrev Attends {α : Type} (c : HTTPConnectDialer) (Q : α → Charge → Prop) (charge : Charge)
    (p : Prog Resp α) : Prop :=
  Follows (attendance c) Q charge p

section Attends

variable (c : HTTPConnectDialer)

theorem attends_connectHttp2 {charge : Charge} {rc : ℕ}
    (h : charge = .reusing rc ∨ charge = .http2 rc) (req : ConnectRequest) :
    Attends c (fun res charge' => charge' = charge.close ∨
      charge' = charge.tunnel c ∧ res.2 = none) charge (connectHttp2 req rc) := by
  have hclose : charge.Allows (.close rc) := h.elim Or.inl fun h => Or.inr (Or.inr (Or.inl h))
  refine ⟨h, ?_⟩
  rintro (err | resp)
  · exact ⟨hclose, fun _ => Or.inl rfl⟩
  · show Attends c _ (if resp.statusCode = 200 then charge.tunnel c else charge)
      (if resp.statusCode ≠ 200 then _ else _)
    by_cases hresp : resp.statusCode = 200
    · rw [if_pos hresp, if_neg (not_not.mpr hresp)]
      exact Or.inr ⟨rfl, rfl⟩
    · rw [if_neg hresp, if_pos hresp]
      exact ⟨hclose, fun _ => Or.inl rfl⟩

theorem attends_connectHttp1 (req : ConnectRequest) (rc : ℕ) :
    Attends c (fun _ charge => charge.conn = none) (.dialled rc) (connectHttp1 req rc) := by
  have hclose : (Charge.dialled rc).Allows (.close rc) := Or.inr (Or.inl rfl)
  refine ⟨rfl, ?_⟩
  rintro (_ | err)
  · refine ⟨rfl, ?_⟩
    rintro (err | resp)
    · exact ⟨hclose, fun _ => rfl⟩
    · show Attends c _ (if resp.statusCode = 200 then Charge.over else .dialled rc)
        (if resp.statusCode ≠ 200 then _ else _)
      by_cases hresp : resp.statusCode = 200
      · rw [if_pos hresp, if_neg (not_not.mpr hresp)]
        exact follows_ret.mpr rfl
      · rw [if_neg hresp, if_pos hresp]
        exact ⟨hclose, fun _ => rfl⟩
  · exact ⟨hclose, fun _ => rfl⟩

theorem attends_startHttp2 (req : ConnectRequest) (rc : ℕ) :
    Attends c (fun _ charge => charge.conn = none) (.dialled rc) (startHttp2 c req rc) := by
  refine ⟨rfl, ?_⟩
  rintro (_ | err)
  · show Attends c _ (.http2 rc) (connectHttp2 req rc >>= _)
    refine follows_bind.mpr ((attends_connectHttp2 c (Or.inr rfl) req).mono ?_)
    rintro ⟨proxyConn, err⟩ charge hcharge
    by_cases herr : err = none
    · simp only [herr, ne_eq, not_true_eq_false, if_false]
      by_cases hreuse : c.enableH2ConnReuse = true
      · rw [Charge.tunnel, if_pos hreuse] at hcharge
        rw [if_pos hreuse]
        exact ⟨hcharge.elim Or.inr fun h => Or.inl h.1, fun _ => rfl⟩
      · rw [Charge.tunnel, if_neg hreuse] at hcharge
        rw [if_neg hreuse]
        rcases hcharge with rfl | ⟨rfl, -⟩
        · exact follows_ret.mpr rfl
        · exact follows_ret.mpr rfl
    · obtain rfl : charge = .closed rc := hcharge.resolve_right fun h => herr h.2
      simp only [herr, ne_eq, not_false_eq_true, if_true]
      exact ⟨Or.inr (Or.inr (Or.inr rfl)), fun _ => rfl⟩
  · exact ⟨Or.inr (Or.inr (Or.inl rfl)), fun _ => rfl⟩

theorem attends_connectNegotiated (req : ConnectRequest) (rc : ℕ) (negotiatedProtocol : GoString) :
    Attends c (fun _ charge => charge.conn = none) (.dialled rc)
      (connectNegotiated c req rc negotiatedProtocol) := by
  unfold connectNegotiated
  split_ifs
  · exact attends_connectHttp1 c req rc
  · exact attends_startHttp2 c req rc
  · exact ⟨Or.inr (Or.inl rfl), fun _ => rfl⟩

theorem attends_dialFresh (network : GoString) (req : ConnectRequest) :
    Attends c (fun _ charge => charge.conn = none) .start (dialFresh c network req) := by
  unfold dialFresh
  split_ifs
  · refine ⟨rfl, ?_⟩
    rintro (err | rc)
    · exact follows_ret.mpr rfl
    · exact attends_connectNegotiated c req rc []
  · refine ⟨rfl, ?_⟩
    rintro (err | ⟨rc, negotiatedProtocol⟩)
    · exact follows_ret.mpr rfl
    · exact attends_connectNegotiated c req rc negotiatedProtocol
  · refine ⟨rfl, ?_⟩
    rintro (err | rc)
    · exact follows_ret.mpr rfl
    · refine ⟨rfl, ?_⟩
      rintro (_ | err)
      · exact ⟨rfl, fun negotiatedProtocol => attends_connectNegotiated c req rc negotiatedProtocol⟩
      · exact follows_ret.mpr rfl
  · exact follows_ret.mpr rfl

theorem attends_dialCached (req : ConnectRequest) :
    Attends c (fun res charge => charge.conn = none ∧ (res = none → charge = .start)) .start
      (dialCached c req) := by
  unfold dialCached
  split_ifs
  · refine ⟨rfl, ?_⟩
    rintro (_ | ⟨rc, _ | _⟩)
    · exact follows_ret.mpr ⟨rfl, fun _ => rfl⟩
    · exact follows_ret.mpr ⟨rfl, fun _ => rfl⟩
    · show Attends c _ (.reusing rc) (connectHttp2 req rc >>= _)
      refine follows_bind.mpr ((attends_connectHttp2 c (Or.inl rfl) req).mono ?_)
      rintro ⟨proxyConn, err⟩ charge (rfl | ⟨rfl, rfl⟩)
      · exact follows_ret.mpr ⟨rfl, fun _ => rfl⟩
      · exact follows_ret.mpr ⟨rfl, fun h => absurd h (by simp)⟩
  · exact follows_ret.mpr ⟨rfl, fun _ => rfl⟩

/-- **`DialContext` looks after its connections**, and returns with none in its charge. -/
theorem attends_dialContext (network address : GoString) (ctxHeader : Option Header) :
    Attends c (fun _ charge => charge.conn = none) .start
      (dialContext c network address ctxHeader) := by
  refine follows_bind.mpr ((attends_dialCached c _).mono ?_)
  rintro (_ | res) charge ⟨hconn, hstart⟩
  · rw [hstart rfl]
    exact attends_dialFresh c network _
  · exact follows_ret.mpr hconn

end Attends

end HttpClient
end ForwardProxy
