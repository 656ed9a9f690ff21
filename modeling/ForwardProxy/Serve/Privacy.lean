import ForwardProxy.ConnectUdp.Association
import ForwardProxy.Serve.Unauthenticated

/-!
# What is left of a CONNECT-UDP target

The target of a CONNECT-UDP request stands in its URI, and the access log that is written after
`ServeHTTP` has returned is not to show it.  So the request is redacted, in `serveConnectUDP` and
again when `ServeHTTP` returns.  The redaction sets the parts of the URL one by one, and it leaves
out two of them: the raw form of the fragment, and the opaque part.

That a request does not show its target is a statement about two requests: they may differ in the
target, and what is left of them does not.
-/

namespace ForwardProxy
namespace Serve

open ForwardProxy.Core Prog

/-- The parts of a request's URI that can carry the target. -/
structure TargetParts where
  path : GoString
  rawPath : GoString
  opaqueData : GoString
  rawQuery : GoString
  forceQuery : Bool
  fragment : GoString
  rawFragment : GoString
  requestURI : GoString
  deriving DecidableEq, Repr

/-- The parts of a request. -/
def targetParts (r : Request) : TargetParts :=
  ⟨r.url.path, r.url.rawPath, r.url.opaqueData, r.url.rawQuery, r.url.forceQuery, r.url.fragment,
    r.url.rawFragment, r.requestURI⟩

/-- The request with other parts. -/
def withTarget (r : Request) (parts : TargetParts) : Request :=
  { r with
    url := { r.url with path := parts.path, rawPath := parts.rawPath,
                        opaqueData := parts.opaqueData, rawQuery := parts.rawQuery,
                        forceQuery := parts.forceQuery, fragment := parts.fragment,
                        rawFragment := parts.rawFragment }
    requestURI := parts.requestURI }

/-! ## The redaction -/

theorem isConnectUDPRequest_withTarget (r : Request) (parts : TargetParts) :
    isConnectUDPRequest (withTarget r parts) = isConnectUDPRequest r := rfl

/-- What the redaction leaves of a target. -/
theorem targetParts_redact (r : Request) :
    targetParts (redactConnectUDPRequest r) =
      { path := ascii "/.well-known/masque/udp/redacted/0/", rawPath := [],
        opaqueData := r.url.opaqueData, rawQuery := [], forceQuery := false, fragment := [],
        rawFragment := r.url.rawFragment,
        requestURI := ascii "/.well-known/masque/udp/redacted/0/" } := rfl

/-- The second redaction changes nothing. -/
theorem redact_redact (r : Request) :
    redactConnectUDPRequest (redactConnectUDPRequest r) = redactConnectUDPRequest r := rfl

/-- Two redacted requests show the same exactly when they had the same opaque part and the same raw
fragment. -/
theorem targetParts_redact_eq_iff (r₁ r₂ : Request) :
    targetParts (redactConnectUDPRequest r₁) = targetParts (redactConnectUDPRequest r₂) ↔
      r₁.url.opaqueData = r₂.url.opaqueData ∧ r₁.url.rawFragment = r₂.url.rawFragment := by
  rw [targetParts_redact, targetParts_redact, TargetParts.mk.injEq]
  exact ⟨fun h => ⟨h.2.2.1, h.2.2.2.2.2.2.1⟩, fun h => ⟨rfl, rfl, h.1, rfl, rfl, rfl, h.2, rfl⟩⟩

/-! ## Every way to return -/

/-- However `serveConnectUDP` returns, it has redacted the request. -/
theorem fst_of_runs_serveConnectUDP {lib : ConnectUdp.Lib} {h : Handler} {r : Request}
    {tr : List ConnectUdp.Exchange} {res : Request × Option ServeError}
    (hrun : Runs (ConnectUdp.serveConnectUDP lib h r) tr res) :
    res.1 = redactConnectUDPRequest r := by
  unfold ConnectUdp.serveConnectUDP at hrun
  cases htarget : ConnectUdp.parseConnectUDPTarget lib r with
  | none =>
    rw [htarget] at hrun
    rw [(runs_ret_iff.mp hrun).2]
  | some target =>
    rw [htarget] at hrun
    dsimp only at hrun
    by_cases hup : h.upstream.isSome = true
    · rw [if_pos hup] at hrun
      rw [(runs_ret_iff.mp hrun).2]
    · rw [if_neg hup] at hrun
      obtain ⟨place, tr', rfl, hrest⟩ := runs_op_iff.mp hrun
      rcases place with _ | ⟨association, id⟩
      · rw [(runs_ret_iff.mp hrest).2]
      · change Runs (ConnectUdp.serveAdmitted h target >>= _) tr' res at hrest
        obtain ⟨tr₁, tr₂, ⟨reason, err⟩, rfl, -, hrest⟩ := runs_bind_iff.mp hrest
        obtain ⟨tr₃, tr₄, u, rfl, -, hret⟩ := runs_bind_iff.mp hrest
        rw [(runs_ret_iff.mp hret).2]

/-- However `ServeHTTP` returns, it leaves a CONNECT-UDP request redacted. -/
theorem fst_of_runs_serveHTTP {hostsMatch : Request → Bool} {h : Handler} {r : Request}
    (hudp : isConnectUDPRequest r = true) {tr : List Exchange} {res : Request × Outcome}
    (hrun : Runs (serveHTTP hostsMatch h r) tr res) : res.1 = redactConnectUDPRequest r := by
  have hmethod : r.method = ascii "CONNECT" := by
    simp only [isConnectUDPRequest, Bool.and_eq_true, decide_eq_true_eq] at hudp
    exact hudp.1.1
  unfold serveHTTP at hrun
  rw [if_pos hudp] at hrun
  obtain ⟨tr₁, tr₂, verdict, rfl, -, hrest⟩ := runs_bind_iff.mp hrun
  rcases verdict with panic | authErr
  · rw [(runs_ret_iff.mp hrest).2]
  · obtain ⟨tr₃, tr₄, passed, rfl, -, hrest⟩ := runs_bind_iff.mp hrest
    rcases passed with _ | err
    · dsimp only at hrest
      rw [if_pos hmethod] at hrest
      obtain ⟨tr₅, tr₆, outcome, rfl, -, hret⟩ := runs_bind_iff.mp hrest
      rw [(runs_ret_iff.mp hret).2]
    · rw [(runs_ret_iff.mp hrest).2]

theorem nonempty_resp (o : Op) : Nonempty (Resp o) := by
  cases o <;> first | exact ⟨none⟩ | exact ⟨(none, none)⟩ | exact ⟨([] : List _)⟩ | exact ⟨()⟩ |
    exact ⟨(0 : ℕ)⟩ | exact ⟨(0 : UInt64)⟩ | exact ⟨.error { text := [] }⟩

/-- **The privacy of CONNECT-UDP targets.**  What `ServeHTTP` leaves of two CONNECT-UDP requests
that differ in nothing but their targets is the same, on every way to return, exactly when their
opaque parts and their raw fragments are the same.  The redaction in `serveConnectUDP` makes no
difference to it. -/
theorem connectUDP_privacy_iff (hostsMatch : Request → Bool) (h : Handler) (r : Request)
    (hudp : isConnectUDPRequest r = true) (parts₁ parts₂ : TargetParts) :
    ((∀ tr₁ res₁ tr₂ res₂, Runs (serveHTTP hostsMatch h (withTarget r parts₁)) tr₁ res₁ →
        Runs (serveHTTP hostsMatch h (withTarget r parts₂)) tr₂ res₂ →
          targetParts res₁.1 = targetParts res₂.1) ↔
      parts₁.opaqueData = parts₂.opaqueData ∧ parts₁.rawFragment = parts₂.rawFragment) ∧
    ∀ lib tr res, Runs (ConnectUdp.serveConnectUDP lib h (withTarget r parts₁)) tr res →
      redactConnectUDPRequest res.1 = redactConnectUDPRequest (withTarget r parts₁) := by
  have hudp₁ := (isConnectUDPRequest_withTarget r parts₁).trans hudp
  have hudp₂ := (isConnectUDPRequest_withTarget r parts₂).trans hudp
  refine ⟨?_, ?_⟩
  · refine Iff.trans ?_ (targetParts_redact_eq_iff (withTarget r parts₁) (withTarget r parts₂))
    constructor
    · intro hsame
      obtain ⟨tr₁, res₁, hrun₁⟩ := exists_runs nonempty_resp
        (serveHTTP hostsMatch h (withTarget r parts₁))
      obtain ⟨tr₂, res₂, hrun₂⟩ := exists_runs nonempty_resp
        (serveHTTP hostsMatch h (withTarget r parts₂))
      have heq := hsame tr₁ res₁ tr₂ res₂ hrun₁ hrun₂
      rwa [fst_of_runs_serveHTTP hudp₁ hrun₁, fst_of_runs_serveHTTP hudp₂ hrun₂] at heq
    · intro heq tr₁ res₁ tr₂ res₂ hrun₁ hrun₂
      rwa [fst_of_runs_serveHTTP hudp₁ hrun₁, fst_of_runs_serveHTTP hudp₂ hrun₂]
  · intro lib tr res hrun
    rw [fst_of_runs_serveConnectUDP hrun, redact_redact]

/-- A CONNECT-UDP request. -/
def probeRequest : Request :=
  { method := ascii "CONNECT"
    url := { scheme := ascii "https", host := ascii "proxy.example" }
    proto := ascii "connect-udp", protoMajor := 3, protoMinor := 0
    header := [(ascii "Capsule-Protocol", [ascii "?1"])]
    host := ascii "proxy.example" }

/-- The parts of the URI `/#` and a fragment that is not in its default encoding. -/
def fragmentParts (fragment rawFragment : GoString) : TargetParts :=
  { path := ascii "/", rawPath := [], opaqueData := [], rawQuery := [], forceQuery := false,
    fragment, rawFragment, requestURI := ascii "/#" ++ rawFragment }

theorem connectUDP_privacy_iff_plain :
    isConnectUDPRequest probeRequest = true ∧
    ∀ tr₁ res₁ tr₂ res₂,
      Runs (serveHTTP (fun _ => false) lockedHandler
        (withTarget probeRequest (fragmentParts (ascii "a") []))) tr₁ res₁ →
      Runs (serveHTTP (fun _ => false) lockedHandler
        (withTarget probeRequest (fragmentParts (ascii "b") []))) tr₂ res₂ →
          targetParts res₁.1 = targetParts res₂.1 := by
  have hudp : isConnectUDPRequest probeRequest = true := by decide
  refine ⟨hudp, (connectUDP_privacy_iff (fun _ => false) lockedHandler probeRequest hudp
    (fragmentParts (ascii "a") []) (fragmentParts (ascii "b") [])).1.mpr ?_⟩
  simp only [fragmentParts, and_self]

/-- **A target that remains.**  The handler turns the requests away, and the fragment of the URI is
still there in its raw form. -/
theorem rawFragment_remains :
    ∃ tr₁ res₁ tr₂ res₂,
      Runs (serveHTTP (fun _ => false) lockedHandler
        (withTarget probeRequest (fragmentParts (ascii "a") (ascii "%61")))) tr₁ res₁ ∧
      Runs (serveHTTP (fun _ => false) lockedHandler
        (withTarget probeRequest (fragmentParts (ascii "b") (ascii "%62")))) tr₂ res₂ ∧
      res₁.1.url.rawFragment = ascii "%61" ∧ res₂.1.url.rawFragment = ascii "%62" ∧
      targetParts res₁.1 ≠ targetParts res₂.1 := by
  have hrun : ∀ parts, ∃ tr res, Runs (serveHTTP (fun _ => false) lockedHandler
      (withTarget probeRequest parts)) tr res ∧
        res.1 = redactConnectUDPRequest (withTarget probeRequest parts) := by
    intro parts
    obtain ⟨tr, res, hrun⟩ := exists_runs nonempty_resp
      (serveHTTP (fun _ => false) lockedHandler (withTarget probeRequest parts))
    have hudp : isConnectUDPRequest (withTarget probeRequest parts) = true := rfl
    exact ⟨tr, res, hrun, fst_of_runs_serveHTTP hudp hrun⟩
  obtain ⟨tr₁, res₁, hrun₁, hleft₁⟩ := hrun (fragmentParts (ascii "a") (ascii "%61"))
  obtain ⟨tr₂, res₂, hrun₂, hleft₂⟩ := hrun (fragmentParts (ascii "b") (ascii "%62"))
  refine ⟨tr₁, res₁, tr₂, res₂, hrun₁, hrun₂, ?_, ?_, ?_⟩
  · rw [hleft₁]; rfl
  · rw [hleft₂]; rfl
  · rw [hleft₁, hleft₂]; decide

end Serve
end ForwardProxy
