import ForwardProxy.Serve.Passage
import ForwardProxy.Tunnel.DualStream

/-!
# The padding that is announced, and the padding that is applied

A CONNECT request may ask for the framing of the padding protocol.  `negotiateNaivePadding` decides,
`setNaivePaddingResponseHeaders` announces the decision in the reply, and `dualStream` is told
whether to frame both directions of the tunnel.  These are three places, and for HTTP/1 the third
does not ask the first: `serveHijack` starts its tunnel without padding, after the reply has
announced what was negotiated.

The header of the response writer is one map, which `ServeHTTP` reads and changes.  `Coherent` says
so of a run, and `replyHeader` is what the map holds when the status is written.

## Main results

* `padding_agrees_iff`: negotiation, announcement and tunnel agree, except for an HTTP/1 request
  that negotiated padding.
-/

namespace ForwardProxy
namespace Serve

open ForwardProxy.Core Prog

/-! ## The header of the reply -/

/-- `naivePaddingTypeReplyHeader`. -/
def paddingTypeReply : GoString := ascii "Padding-Type-Reply"

/-- The header with which the reply goes out, if the writer has this one at first. -/
def replyHeader : Header → List Exchange → Header
  | header, [] => header
  | header, ⟨.writeHeader _, _⟩ :: _ => header
  | _, ⟨.setResponseHeader header, _⟩ :: tr => replyHeader header tr
  | header, _ :: tr => replyHeader header tr

/-- What is read of the header is what was last set. -/
def Coherent : Header → List Exchange → Prop
  | _, [] => True
  | header, ⟨.responseHeader, answer⟩ :: tr => answer = header ∧ Coherent header tr
  | _, ⟨.setResponseHeader header, _⟩ :: tr => Coherent header tr
  | header, _ :: tr => Coherent header tr

/-- The text of a variant in the reply. -/
def PaddingVariant.text : PaddingVariant → GoString
  | .none => ascii "0"
  | .variant1 => ascii "1"

/-- The request has the field `Padding-Type-Request`. -/
def asksForType (request : Header) : Bool :=
  (request.lookup (canonicalHeaderKey paddingTypeRequest)).isSome

/-- The header after `setNaivePaddingResponseHeaders` has filled in this padding. -/
def announce (request : Header) (variant : PaddingVariant) (padding : GoString) (header : Header) :
    Header :=
  let header := header.set (ascii "Padding") padding
  if asksForType request then header.set (ascii "Padding-Type-Reply") variant.text else header

theorem lookup_announce {request header : Header} (variant : PaddingVariant) (padding : GoString)
    (hfresh : header.lookup paddingTypeReply = none) :
    (announce request variant padding header).lookup paddingTypeReply =
      if asksForType request then some [variant.text] else none := by
  have hreply : canonicalHeaderKey (ascii "Padding-Type-Reply") = paddingTypeReply := by decide
  have hpadding : canonicalHeaderKey (ascii "Padding") ≠ paddingTypeReply := by decide
  unfold announce
  split_ifs with hasks
  · rw [Header.set, hreply, Header.lookup_insert_self]
  · rw [Header.set, Header.lookup_insert_of_ne _ hpadding, hfresh]

theorem replyHeader_recorded (id : Option GoString) (header : Header) (tr : List Exchange) :
    replyHeader header (recorded id ++ tr) = replyHeader header tr := by
  cases id <;> rfl

theorem coherent_recorded (id : Option GoString) (header : Header) (tr : List Exchange) :
    Coherent header (recorded id ++ tr) ↔ Coherent header tr := by
  cases id <;> exact Iff.rfl

/-- What `setNaivePaddingResponseHeaders` does to the header of the reply. -/
theorem exists_replyHeader_of_runs {request header : Header} {variant : PaddingVariant}
    {headers rest : List Exchange}
    (hrun : Runs (setNaivePaddingResponseHeaders request variant) headers ())
    (hcoherent : Coherent header (headers ++ rest)) :
    ∃ padding, replyHeader header (headers ++ rest) =
      replyHeader (announce request variant padding header) rest := by
  unfold setNaivePaddingResponseHeaders at hrun
  obtain ⟨n, tr₁, rfl, hrun₁⟩ := runs_op_iff.mp hrun
  obtain ⟨bits, tr₂, rfl, hrun₂⟩ := runs_op_iff.mp hrun₁
  obtain ⟨header₁, tr₃, rfl, hrun₃⟩ := runs_op_iff.mp hrun₂
  obtain ⟨u, tr₄, rfl, hrun₄⟩ := runs_op_iff.mp hrun₃
  obtain ⟨rfl, hcoherent⟩ := hcoherent
  refine ⟨responsePadding (n + 30) bits, ?_⟩
  rw [announce]
  change Runs (if asksForType request then _ else _) tr₄ () at hrun₄
  by_cases hasks : asksForType request = true
  · rw [if_pos hasks] at hrun₄ ⊢
    obtain ⟨header₂, tr₅, rfl, hrun₅⟩ := runs_op_iff.mp hrun₄
    obtain ⟨u, tr₆, rfl, hrun₆⟩ := runs_op_iff.mp hrun₅
    obtain ⟨rfl, -⟩ := runs_ret_iff.mp hrun₆
    obtain ⟨rfl, -⟩ := hcoherent
    cases variant <;> rfl
  · rw [if_neg hasks] at hrun₄ ⊢
    obtain ⟨rfl, -⟩ := runs_ret_iff.mp hrun₄
    rfl

/-! ## The tunnel -/

/-- Both directions of a tunnel are framed. -/
def Framed (s : Tunnel.State) : Prop :=
  s.up.paddingType = .removePadding ∧ s.down.paddingType = .addPadding

theorem framed_dualStream_iff (heap : ℕ → Buffer) (client target : Source) (padding : Bool) :
    Framed (Tunnel.dualStream heap client target padding) ↔ padding = true := by
  cases padding <;> simp [Framed, Tunnel.dualStream]

/-- A CONNECT that starts a tunnel has announced its padding, dialled and written its status. -/
theorem exists_tunnel_of_runs_serveConnect {r : Request} {ctxHeader : Option Header}
    {tr : List Exchange} {outcome : Outcome} (hrun : Runs (serveConnect r ctxHeader) tr outcome)
    {conn : ℕ} {padding : Bool} {answer : Option ServeError}
    (htunnel : ⟨.dualStream conn padding, answer⟩ ∈ tr) :
    ∃ variant headers hostPort dialed rest, negotiateNaivePadding r.header = .ok variant ∧
      Runs (setNaivePaddingResponseHeaders r.header variant) headers () ∧
      tr = headers ++ ⟨.dialContextCheckACL (ascii "tcp") hostPort ctxHeader, dialed⟩ ::
        ⟨.writeHeader 200, ()⟩ :: rest ∧
      padding = decide (r.protoMajor ≠ 1 ∧ variant = .variant1) := by
  rcases runs_serveConnect_cases hrun with rfl | ⟨variant, headers, rest, hok, rfl, hheaders, hrest⟩
  · exact absurd htunnel (List.not_mem_nil)
  have hin : ⟨.dualStream conn padding, answer⟩ ∈ rest := by
    refine (List.mem_append.mp htunnel).resolve_left fun hmem => ?_
    exact not_outbound_setNaivePaddingResponseHeaders hheaders _ hmem trivial
  rcases hrest with rfl | ⟨udp, rfl⟩ | ⟨hostPort, dialed, rest', rfl, hdialed⟩
  · exact absurd hin (List.not_mem_nil)
  · exact absurd (List.mem_singleton.mp hin) (by simp)
  have hin' : ⟨.dualStream conn padding, answer⟩ ∈ rest' := by
    refine (List.mem_cons.mp hin).resolve_left fun heq => ?_
    exact absurd (congrArg Sigma.fst heq) (by simp)
  rcases hdialed with ⟨-, rfl⟩ | ⟨conn', tunnel, rfl, hrun', rfl⟩
  · exact absurd hin' (List.not_mem_nil)
  obtain ⟨⟨rest, rfl⟩, hops⟩ := tunnelOp_of_runs_serveTunnel hrun'
  refine ⟨variant, headers, hostPort, _, _, hok, hheaders, rfl, ?_⟩
  rcases List.mem_append.mp hin' with hmem | hmem
  · exact (hops _ hmem).2
  · exact absurd (List.mem_singleton.mp hmem) (by simp)

/-! ## Agreement -/

/-- Negotiation, reply and tunnel agree: the tunnel is framed exactly if padding was negotiated, and
if the reply has a type, it says 1 exactly then. -/
def Agrees (variant : PaddingVariant) (reply : Header) (tunnel : Tunnel.State) : Prop :=
  (Framed tunnel ↔ variant = .variant1) ∧
    ∀ values, reply.lookup paddingTypeReply = some values → (values = [ascii "1"] ↔ Framed tunnel)

/-- **Announced and applied padding.**  If a CONNECT request starts a tunnel, then its negotiation
was successful, and negotiation, reply and tunnel agree exactly if it is not an HTTP/1 request that
negotiated padding. -/
theorem padding_agrees_iff {hostsMatch : Request → Bool} {h : Handler} {r : Request}
    (hmethod : r.method = ascii "CONNECT") {tr : List Exchange} {res : Request × Outcome}
    (hrun : Runs (serveHTTP hostsMatch h r) tr res) {header : Header}
    (hcoherent : Coherent header tr) (hfresh : header.lookup paddingTypeReply = none)
    {conn : ℕ} {padding : Bool} {answer : Option ServeError}
    (htunnel : ⟨.dualStream conn padding, answer⟩ ∈ tr)
    (heap : ℕ → Buffer) (client target : Source) :
    ∃ variant, negotiateNaivePadding r.header = .ok variant ∧
      (Agrees variant (replyHeader header tr) (Tunnel.dualStream heap client target padding) ↔
        ¬ (r.protoMajor = 1 ∧ variant = .variant1)) := by
  rcases runs_serveHTTP_cases hrun with hquiet | ⟨id, rest, rfl, -, hconnect | ⟨hplain, -⟩⟩
  · exact absurd trivial (hquiet _ htunnel)
  swap
  · exact absurd hmethod hplain
  rw [coherent_recorded] at hcoherent
  rw [replyHeader_recorded]
  have hrest : ⟨.dualStream conn padding, answer⟩ ∈ rest := by
    refine (List.mem_append.mp htunnel).resolve_left fun hmem => ?_
    exact not_outbound_recorded id _ hmem trivial
  obtain ⟨variant, headers, hostPort, dialed, rest', hok, hheaders, rfl, rfl⟩ :=
    exists_tunnel_of_runs_serveConnect hconnect.2 hrest
  refine ⟨variant, hok, ?_⟩
  obtain ⟨text, hreply⟩ := exists_replyHeader_of_runs hheaders hcoherent
  have hsent : (replyHeader header (headers ++ ⟨.dialContextCheckACL (ascii "tcp") hostPort
      (contextHeader h r), dialed⟩ :: ⟨.writeHeader 200, ()⟩ :: rest')).lookup paddingTypeReply =
        if asksForType r.header then some [variant.text] else none := by
    rw [hreply]
    exact lookup_announce variant text hfresh
  rw [Agrees, hsent, framed_dualStream_iff, decide_eq_true_iff]
  have htext : [variant.text] = [ascii "1"] ↔ variant = .variant1 := by
    cases variant <;> decide
  constructor
  · rintro ⟨hframed, -⟩ ⟨hone, hvariant⟩
    exact (hframed.mpr hvariant).1 hone
  · intro hnot
    have hframed : (r.protoMajor ≠ 1 ∧ variant = .variant1) ↔ variant = .variant1 :=
      ⟨fun h => h.2, fun h => ⟨fun hone => hnot ⟨hone, h⟩, h⟩⟩
    refine ⟨hframed, fun values hvalues => ?_⟩
    rw [hframed, ← htext]
    split_ifs at hvalues
    rw [← Option.some.inj hvalues]

/-- A CONNECT request of some version that asks for padding. -/
def tunnelRequest (protoMajor : ℕ) (proto : GoString) : Request where
  method := ascii "CONNECT"
  url := { host := ascii "target.example:443" }
  proto := proto
  protoMajor := protoMajor
  protoMinor := 1
  host := ascii "target.example:443"
  header := [(paddingTypeRequest, [ascii "1, 0"])]

/-- The header of the reply before the type is in it. -/
def paddedReply : Header := Header.set [] (ascii "Padding") (responsePadding 30 0)

/-- The operations up to the tunnel. -/
def beforeTunnel : List Exchange :=
  [⟨.randIntn 32, (0 : ℕ)⟩, ⟨.randUint64, (0 : UInt64)⟩, ⟨.responseHeader, ([] : Header)⟩,
    ⟨.setResponseHeader paddedReply, ()⟩, ⟨.responseHeader, paddedReply⟩,
    ⟨.setResponseHeader (paddedReply.set paddingTypeReply (ascii "1")), ()⟩,
    ⟨.dialContextCheckACL (ascii "tcp") (ascii "target.example:443") none, (some 0, none)⟩,
    ⟨.writeHeader 200, ()⟩, ⟨.flush, none⟩]

/-- Over HTTP/2 the tunnel is framed. -/
theorem padding_agrees_iff_http2 :
    ∃ tr res, Runs (serveHTTP (fun _ => false) { hideIP := true }
        (tunnelRequest 2 (ascii "HTTP/2.0"))) tr res ∧
      Coherent [] tr ∧ ⟨.dualStream 0 true, none⟩ ∈ tr ∧
      ∀ heap client target, Agrees .variant1 (replyHeader [] tr)
        (Tunnel.dualStream heap client target true) := by
  have hrun : Runs (serveHTTP (fun _ => false) { hideIP := true }
      (tunnelRequest 2 (ascii "HTTP/2.0")))
      (beforeTunnel ++ [⟨.dualStream 0 true, none⟩, ⟨.closeBody, none⟩, ⟨.closeConn 0, ()⟩])
      (tunnelRequest 2 (ascii "HTTP/2.0"), .ok none) :=
    .op (.op (.op (.op (.op (.op (.op (.op (.op (.op (.op (.op (.ret _))))))))))))
  have hcoherent : Coherent [] (beforeTunnel ++
      [⟨.dualStream 0 true, none⟩, ⟨.closeBody, none⟩, ⟨.closeConn 0, ()⟩]) := ⟨rfl, rfl, trivial⟩
  have hmem : (⟨.dualStream 0 true, none⟩ : Exchange) ∈ beforeTunnel ++
      [⟨.dualStream 0 true, none⟩, ⟨.closeBody, none⟩, ⟨.closeConn 0, ()⟩] := by simp
  refine ⟨_, _, hrun, hcoherent, hmem, fun heap client target => ?_⟩
  obtain ⟨variant, hok, hagrees⟩ :=
    padding_agrees_iff rfl hrun hcoherent rfl hmem heap client target
  have hvariant : negotiateNaivePadding (tunnelRequest 2 (ascii "HTTP/2.0")).header =
      .ok .variant1 := by decide
  obtain rfl := Except.ok.inj (hok.symm.trans hvariant)
  exact hagrees.mpr fun h => absurd h.1 (by decide)

/-- Over HTTP/1.1 the reply announces padding, and the tunnel has none. -/
theorem http1_announced_not_applied :
    ∃ tr res, Runs (serveHTTP (fun _ => false) { hideIP := true }
        (tunnelRequest 1 (ascii "HTTP/1.1"))) tr res ∧
      Coherent [] tr ∧ ⟨.dualStream 0 false, none⟩ ∈ tr ∧
      negotiateNaivePadding (tunnelRequest 1 (ascii "HTTP/1.1")).header = .ok .variant1 ∧
      (replyHeader [] tr).lookup paddingTypeReply = some [ascii "1"] ∧
      ∀ heap client target, ¬ Framed (Tunnel.dualStream heap client target false) := by
  refine ⟨beforeTunnel ++ [⟨.writeHeader 200, ()⟩, ⟨.hijack, none⟩, ⟨.buffered, ([] : GoString)⟩,
      ⟨.flushClient, none⟩, ⟨.dualStream 0 false, none⟩, ⟨.closeClient, ()⟩, ⟨.closeConn 0, ()⟩],
    (tunnelRequest 1 (ascii "HTTP/1.1"), .ok none), ?_, ?_, by simp, by decide, rfl,
    fun heap client target h => ?_⟩
  · exact .op (.op
      (.op (.op (.op (.op (.op (.op (.op (.op (.op (.op (.op (.op (.op (.op (.ret _))))))))))))))))
  · exact ⟨rfl, rfl, trivial⟩
  · exact absurd ((framed_dualStream_iff heap client target false).mp h) (by decide)

end Serve
end ForwardProxy
