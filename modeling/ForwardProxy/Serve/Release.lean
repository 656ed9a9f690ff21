import ForwardProxy.Serve.Passage

/-!
# What becomes of the connections that `ServeHTTP` obtains

`ServeHTTP` gets a connection in two places.  A CONNECT request gets one to its target, and its
closing is deferred at once, so it is closed on every way out: a flush that fails, a hijack that
fails, a panic over a body that is not there, the end of the tunnel.  Any other request gets one
from the upstream dialer, and that one is written to, read from, and never closed: the response
body, which is closed, does not own it.

A connection that comes together with an error is dropped in both places.

## Main results

* `released_iff`: in a run every connection has been closed exactly if none came from the upstream
  dialer for a request other than CONNECT, and none came together with an error.
-/

namespace ForwardProxy
namespace Serve

open ForwardProxy.Core Prog

/-! ## Connections in a run -/

/-- The connection that the operation returned. -/
def obtained : Exchange → Option ℕ
  | ⟨.dialContext _ _ _, answer⟩ => answer.1
  | ⟨.dialContextCheckACL _ _ _, answer⟩ => answer.1
  | _ => none

/-- Every connection that was obtained was closed later. -/
def Released : List Exchange → Prop
  | [] => True
  | x :: tr => (∀ conn, obtained x = some conn → ⟨.closeConn conn, ()⟩ ∈ tr) ∧ Released tr

/-- The operation returned a connection that no call of `Close` awaits. -/
def Abandoned : Exchange → Prop
  | ⟨.dialContext _ _ _, answer⟩ => answer.1 ≠ none
  | ⟨.dialContextCheckACL _ _ _, answer⟩ => answer.1 ≠ none ∧ answer.2 ≠ none
  | _ => False

theorem Abandoned.obtained_ne_none {x : Exchange} (hx : Abandoned x) : obtained x ≠ none := by
  obtain ⟨o, answer⟩ := x
  cases o <;> first | exact absurd hx id | exact hx | exact hx.1

/-- Only what goes to the network returns a connection. -/
theorem obtained_eq_none_of_not_outbound {x : Exchange} (hx : ¬ Outbound x.1) :
    obtained x = none := by
  obtain ⟨o, answer⟩ := x
  cases o <;> first | rfl | exact absurd trivial hx

/-- Operations that obtain nothing make no difference. -/
theorem released_append {pre tr : List Exchange} (hpre : ∀ x ∈ pre, obtained x = none) :
    Released (pre ++ tr) ↔ Released tr := by
  induction pre with
  | nil => exact Iff.rfl
  | cons x pre ih =>
    have hx : obtained x = none := hpre x List.mem_cons_self
    rw [List.cons_append, Released, ih fun y hy => hpre y (List.mem_cons_of_mem x hy)]
    simp [hx]

/-- Where nothing is closed, nothing may be obtained. -/
theorem released_iff_of_not_closed {tr : List Exchange}
    (hclose : ∀ x ∈ tr, ∀ conn, x.1 ≠ .closeConn conn) :
    Released tr ↔ ∀ x ∈ tr, obtained x = none := by
  induction tr with
  | nil => simp [Released]
  | cons x tr ih =>
    rw [Released, ih fun y hy => hclose y (List.mem_cons_of_mem x hy), List.forall_mem_cons]
    refine and_congr_left fun _ => ?_
    constructor
    · intro hx
      refine Option.eq_none_iff_forall_ne_some.mpr fun conn hconn => ?_
      exact hclose _ (List.mem_cons_of_mem x (hx conn hconn)) conn rfl
    · intro hx conn hconn
      exact absurd (hx.symm.trans hconn) (by simp)

/-! ## Requests other than CONNECT -/

/-- The operation is one of a request that is sent on. -/
def OfPlain : Op → Prop
  | .closeConn _ => False
  | .dialContextCheckACL _ _ _ => False
  | _ => True

theorem Local.ofPlain {o : Op} (ho : Local o) : OfPlain o := by
  cases o <;> first | exact absurd ho id | trivial

theorem ofPlain_of_runs_servePlain {h : Handler} {hostErr : Option ServeError}
    {ctxHeader : Option Header} {r : Request} {tr : List Exchange} {res : Request × Outcome}
    (hrun : Runs (servePlain h hostErr ctxHeader r) tr res) : ∀ x ∈ tr, OfPlain x.1 := by
  have hfollows : Follows (only OfPlain) (fun _ _ => True) ()
      (servePlain h hostErr ctxHeader r) := by
    refine follows_servePlain (fun _ => Local.ofPlain) ?_
    unfold send
    cases h.upstream with
    | none => exact follows_sendDirect (fun _ => Local.ofPlain) fun _ => trivial
    | some upstream =>
      exact follows_sendUpstream trivial (fun _ => trivial) (fun _ => trivial) _
  exact (hfollows.of_runs hrun).1

theorem abandoned_iff_of_ofPlain {x : Exchange} (hx : OfPlain x.1) :
    Abandoned x ↔ obtained x ≠ none := by
  obtain ⟨o, answer⟩ := x
  cases o <;> first | exact absurd hx id | exact Iff.rfl | simp [Abandoned, obtained]

/-- A request that is sent on closes no connection. -/
theorem released_iff_of_runs_servePlain {h : Handler} {hostErr : Option ServeError}
    {ctxHeader : Option Header} {r : Request} {tr : List Exchange} {res : Request × Outcome}
    (hrun : Runs (servePlain h hostErr ctxHeader r) tr res) :
    Released tr ↔ ∀ x ∈ tr, ¬ Abandoned x := by
  have hplain := ofPlain_of_runs_servePlain hrun
  have hclose : ∀ x ∈ tr, ∀ conn, x.1 ≠ .closeConn conn := by
    intro x hx conn heq
    have hfalse := hplain x hx
    rw [heq] at hfalse
    exact hfalse
  rw [released_iff_of_not_closed hclose]
  refine forall₂_congr fun x hx => ?_
  rw [abandoned_iff_of_ofPlain (hplain x hx), not_not]

/-! ## CONNECT requests -/

theorem obtained_eq_none_of_tunnelOp {conn : ℕ} {padding : Bool} {x : Exchange}
    (hx : TunnelOp conn padding x.1) : obtained x = none := by
  obtain ⟨o, answer⟩ := x
  cases o <;> first | rfl | exact absurd hx id

/-- Where nothing is obtained, nothing is to be closed. -/
theorem released_of_obtained_eq_none {tr : List Exchange} (htr : ∀ x ∈ tr, obtained x = none) :
    Released tr := by
  have hnil : Released (tr ++ []) := (released_append htr).mpr trivial
  rwa [List.append_nil] at hnil

theorem not_abandoned_of_obtained_eq_none {tr : List Exchange} (htr : ∀ x ∈ tr, obtained x = none) :
    ∀ x ∈ tr, ¬ Abandoned x :=
  fun x hx habandoned => habandoned.obtained_ne_none (htr x hx)

/-- The answer to the dial decides about a CONNECT: a connection without an error is closed after
its tunnel. -/
theorem released_iff_of_runs_serveConnect {r : Request} {ctxHeader : Option Header}
    {tr : List Exchange} {outcome : Outcome} (hrun : Runs (serveConnect r ctxHeader) tr outcome) :
    Released tr ↔ ∀ x ∈ tr, ¬ Abandoned x := by
  rcases runs_serveConnect_cases hrun with rfl | ⟨variant, headers, rest, -, rfl, hheaders, hrest⟩
  · exact iff_of_true trivial (by simp)
  have hnone : ∀ x ∈ headers, obtained x = none := fun x hx =>
    obtained_eq_none_of_not_outbound (not_outbound_setNaivePaddingResponseHeaders hheaders x hx)
  rw [released_append hnone, List.forall_mem_append,
    and_iff_right (not_abandoned_of_obtained_eq_none hnone)]
  rcases hrest with rfl | ⟨answer, rfl⟩ | ⟨hostPort, answer, rest', rfl, hanswer⟩
  · exact iff_of_true trivial (by simp)
  · exact iff_of_true ⟨nofun, trivial⟩ (by simp [Abandoned])
  rw [Released, List.forall_mem_cons]
  rcases hanswer with ⟨hdropped, rfl⟩ | ⟨conn, tunnel, rfl, htunnel, rfl⟩
  · -- the connection, if there is one, came together with an error
    rcases answer with ⟨_ | conn, _ | err⟩
    · exact iff_of_true ⟨nofun, trivial⟩ ⟨fun h => h.1 rfl, by simp⟩
    · exact iff_of_true ⟨nofun, trivial⟩ ⟨fun h => h.1 rfl, by simp⟩
    · exact absurd rfl (hdropped conn)
    · refine iff_of_false (fun h => ?_) fun h => h.1 ⟨Option.some_ne_none _, Option.some_ne_none _⟩
      exact absurd (h.1 conn rfl) List.not_mem_nil
  · have htail : ∀ x ∈ tunnel ++ [(⟨.closeConn conn, ()⟩ : Exchange)], obtained x = none := by
      intro x hx
      rcases List.mem_append.mp hx with hx | hx
      · exact obtained_eq_none_of_tunnelOp ((tunnelOp_of_runs_serveTunnel htunnel).2 x hx)
      · rw [List.mem_singleton.mp hx]
        rfl
    refine iff_of_true ⟨?_, released_of_obtained_eq_none htail⟩
      ⟨fun h => h.2 rfl, not_abandoned_of_obtained_eq_none htail⟩
    rintro conn' hconn
    obtain rfl := Option.some.inj hconn
    exact List.mem_append_right _ (List.mem_singleton_self _)

/-! ## Every request -/

/-- **Which connections are released.**  In a run of `ServeHTTP`, every connection that it obtained
has been closed by the time it returns exactly if none was obtained from the upstream dialer for a
request other than CONNECT, and none came together with an error. -/
theorem released_iff {hostsMatch : Request → Bool} {h : Handler} {r : Request} {tr : List Exchange}
    {res : Request × Outcome} (hrun : Runs (serveHTTP hostsMatch h r) tr res) :
    Released tr ↔ ∀ x ∈ tr, ¬ Abandoned x := by
  rcases runs_serveHTTP_cases hrun with hquiet | ⟨id, rest, rfl, -, hrest⟩
  · have hnone := fun x hx => obtained_eq_none_of_not_outbound (hquiet x hx)
    exact iff_of_true (released_of_obtained_eq_none hnone) (not_abandoned_of_obtained_eq_none hnone)
  have hnone : ∀ x ∈ recorded id, obtained x = none := fun x hx =>
    obtained_eq_none_of_not_outbound (not_outbound_recorded id x hx)
  rw [released_append hnone, List.forall_mem_append,
    and_iff_right (not_abandoned_of_obtained_eq_none hnone)]
  rcases hrest with ⟨-, hconnect⟩ | ⟨-, hplain⟩
  · exact released_iff_of_runs_serveConnect hconnect
  · exact released_iff_of_runs_servePlain hplain

/-- A CONNECT request whose reply cannot be flushed. -/
theorem released_iff_flushFails :
    ∃ tr res, Runs (serveHTTP (fun _ => false) { hideIP := true }
        { pageRequest with method := ascii "CONNECT", header := [] }) tr res ∧
      (⟨.closeConn 7, ()⟩ : Exchange) ∈ tr ∧ Released tr := by
  have hrun : Runs (serveHTTP (fun _ => false) { hideIP := true }
      { pageRequest with method := ascii "CONNECT", header := [] })
      [⟨.randIntn 32, (0 : ℕ)⟩, ⟨.randUint64, (0 : UInt64)⟩, ⟨.responseHeader, ([] : Header)⟩,
        ⟨.setResponseHeader (Header.set [] (ascii "Padding") (responsePadding 30 0)), ()⟩,
        ⟨.dialContextCheckACL (ascii "tcp") (ascii "target.example") none, (some 7, none)⟩,
        ⟨.writeHeader 200, ()⟩, ⟨.flush, some { text := ascii "broken" }⟩, ⟨.closeConn 7, ()⟩]
      ({ pageRequest with method := ascii "CONNECT", header := [] },
        .ok (some (handlerError 500 (ascii "ResponseWriter flush error: broken")))) := by
    exact .op (.op (.op (.op (.op (.op (.op (.op (.ret _))))))))
  refine ⟨_, _, hrun, by simp, (released_iff hrun).mpr ?_⟩
  simp [Abandoned]

/-- A request for a page whose host has a port. -/
def portRequest : Request := { pageRequest with host := ascii "target.example:80" }

/-- What is sent of it over the upstream. -/
def portRequestSent : Request :=
  withPort (withCredentials (ascii "user:pass")
    (outgoing { credentialedHandler with hideIP := true } portRequest))

/-- The page comes over the upstream and is forwarded. -/
def upstreamPage : List Exchange :=
  let via : Header := [(ascii "Via", [ascii "1.1 caddy"])]
  [⟨.dialContext (ascii "tcp") (ascii "target.example:80") none, (some 7, none)⟩,
    ⟨.writeRequest 7 portRequestSent, none⟩, ⟨.readResponse 7, .ok ⟨200, 1, 1, []⟩⟩,
    ⟨.closeBody, none⟩,
    ⟨.responseHeader, ([] : Header)⟩, ⟨.setResponseHeader [], ()⟩,
    ⟨.responseHeader, ([] : Header)⟩, ⟨.setResponseHeader via, ()⟩,
    ⟨.responseHeader, via⟩, ⟨.setResponseHeader via, ()⟩,
    ⟨.responseHeader, via⟩, ⟨.setResponseHeader via, ()⟩,
    ⟨.writeHeader 200, ()⟩, ⟨.copyResponseBody, none⟩, ⟨.closeResponseBody, ()⟩]

/-- The connection to the upstream stays open, although nothing failed. -/
theorem upstream_conn_not_closed :
    Runs (serveHTTP (fun _ => false) { credentialedHandler with hideIP := true } portRequest)
        upstreamPage (portRequestSent, .ok none) ∧ ¬ Released upstreamPage := by
  refine ⟨?_, ?_⟩
  · exact .op
      (.op (.op (.op (.op (.op (.op (.op (.op (.op (.op (.op (.op (.op (.op (.ret _)))))))))))))))
  · rintro ⟨hclosed, -⟩
    exact absurd (hclosed 7 rfl) (by simp)

end Serve
end ForwardProxy
