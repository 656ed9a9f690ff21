import ForwardProxy.Core.Interp
import ForwardProxy.Dial.Status
import ForwardProxy.HttpClient.Granted

/-!
# A request through two proxies

A handler with an upstream does not dial its targets.  It asks another proxy for a tunnel, by
`HTTPConnectDialer.DialContext`, and relays through what that returns.  Here `ServeHTTP` is put on
top of the dialer: its operations `dialContext` and `dialContextCheckACL` are implemented by the
code that runs then, and a trace of the whole has the operations of the dialer where `ServeHTTP` has
a single call.

A CONNECT request is told 200, and bytes of its tunnel pass, only if before that the upstream has
answered 200 to a CONNECT for the target of the request (`upstream_tunnel`).  That is so although
the dialer can lose its errors: without an error and without a connection, `dialContextCheckACL`
reports a failed dial.  What the upstream has granted is closed again, and whatever else it says
ends in a 502 or a 504.
-/

namespace ForwardProxy
namespace Serve
namespace Chain

open ForwardProxy.Core Prog Dial
open HttpClient (HTTPConnectDialer Conn DialError connectRequest Granted)

/-! ## The code -/

/-- What is done by `ServeHTTP` with the dialer under it. -/
inductive Op where
  /-- An operation of `ServeHTTP`. -/
  | serve (o : Serve.Op)
  /-- An operation of the upstream dialer. -/
  | upstream (o : HttpClient.Op)
  /-- `ctx.Err`. -/
  | ctxErr

/-- The answers. -/
abbrev Resp : Op → Type
  | .serve o => Serve.Resp o
  | .upstream o => HttpClient.Resp o
  | .ctxErr => Option NetError

/-- An operation and its answer. -/
abbrev Exchange := Σ o, Resp o

/-- The number that `ServeHTTP` knows a connection of the dialer by. -/
def number : Conn → ℕ
  | .raw rawConn => 2 * rawConn
  | .http2 rawConn => 2 * rawConn + 1

/-- What the errors of the dialer are to `errors.Is` and `errors.As`, and what they say. -/
structure Errors where
  netError : DialError → NetError
  text : DialError → GoString

/-- `h.dialContext` of a handler with an upstream. -/
def dialContext (c : HTTPConnectDialer) (network address : GoString) (ctxHeader : Option Header) :
    Prog Resp HttpClient.Result :=
  interp (fun o => perform (Op.upstream o)) (HttpClient.dialContext c network address ctxHeader)

/-- `dialContextCheckACL` of a handler with an upstream.  The condition is evaluated from left to
right, so that `ctx.Err` is called only for a connection without an error; an error of the context
does not change any more. -/
def dialContextCheckACL (errors : Errors) (c : HTTPConnectDialer) (network hostPort : GoString)
    (ctxHeader : Option Header) : Prog Resp (Option ℕ × Option ServeError) := do
  if (Network.ofString network).isNone then
    return (none,
      some (handlerError 400 (ascii "network " ++ network ++ ascii " is not supported")))
  else
    match ← dialContext c network hostPort ctxHeader with
    | (some conn, none) =>
      match ← perform Op.ctxErr with
      | none => return (some (number conn), none)
      | some ctxErr =>
        perform (Op.serve (.closeConn (number conn)))
        return (none, some (tcpDialError (.net ctxErr)))
    | (conn, err) =>
      match conn with
      | some conn => perform (Op.serve (.closeConn (number conn)))
      | none => pure ()
      match ← perform Op.ctxErr with
      | none =>
        return (none,
          some (tcpDialError ((err.map fun e => .net (errors.netError e)).getD .dialFailed)))
      | some ctxErr => return (none, some (tcpDialError (.net ctxErr)))

/-- What the operations of `ServeHTTP` stand for. -/
def implementation (errors : Errors) (c : HTTPConnectDialer) (h : Handler) :
    (o : Serve.Op) → Prog Resp (Serve.Resp o)
  | .dialContext network address ctxHeader => do
    let (conn, err) ← dialContext c network address ctxHeader
    return (conn.map number, err.map fun e => { text := errors.text e })
  | .dialContextCheckACL network hostPort ctxHeader =>
    if h.upstream.isSome then dialContextCheckACL errors c network hostPort ctxHeader
    else perform (Op.serve (.dialContextCheckACL network hostPort ctxHeader))
  | o => perform (Op.serve o)

/-- `ServeHTTP` with the dialer under it. -/
def serveHTTP (errors : Errors) (c : HTTPConnectDialer) (hostsMatch : Request → Bool) (h : Handler)
    (r : Request) : Prog Resp (Request × Outcome) :=
  interp (implementation errors c h) (Serve.serveHTTP hostsMatch h r)

/-! ## The dialer in the whole -/

/-- An exchange of `ServeHTTP`, as one of the whole. -/
def ofServe (x : Serve.Exchange) : Exchange := ⟨.serve x.1, x.2⟩

/-- An exchange of the dialer, as one of the whole. -/
def ofUpstream (x : HttpClient.Exchange) : Exchange := ⟨.upstream x.1, x.2⟩

/-- The exchange with the upstream that this is. -/
def upstreamPart : Exchange → Option HttpClient.Exchange
  | ⟨.upstream o, answer⟩ => some ⟨o, answer⟩
  | _ => none

theorem filterMap_ofUpstream (tr : List HttpClient.Exchange) :
    (tr.map ofUpstream).filterMap upstreamPart = tr := by
  rw [List.filterMap_map]
  exact List.filterMap_some

theorem filterMap_ofServe (tr : List Serve.Exchange) :
    (tr.map ofServe).filterMap upstreamPart = [] := by
  rw [List.filterMap_map]
  exact List.filterMap_eq_nil_iff.mpr fun _ _ => rfl

theorem runs_dialContext {c : HTTPConnectDialer} {network address : GoString}
    {ctxHeader : Option Header} {tr : List Exchange} {res : HttpClient.Result}
    (hrun : Runs (dialContext c network address ctxHeader) tr res) :
    ∃ inner, Runs (HttpClient.dialContext c network address ctxHeader) inner res ∧
      tr = inner.map ofUpstream := by
  obtain ⟨inner, hinner, hexpands⟩ := runs_interp_iff.mp hrun
  refine ⟨inner, hinner, hexpands.eq_map fun x piece hpiece => ?_⟩
  obtain ⟨answer, rest, rfl, hret⟩ := runs_op_iff.mp hpiece
  obtain ⟨rfl, rfl⟩ := runs_ret_iff.mp hret
  rfl

/-- The upstream has granted a tunnel to this target on this connection. -/
def Grants (c : HTTPConnectDialer) (target : GoString) (ctxHeader : Option Header)
    (tr : List Exchange) (conn : Conn) : Prop :=
  Granted (connectRequest c target ctxHeader) (tr.filterMap upstreamPart) conn

theorem Grants.mono {c : HTTPConnectDialer} {target : GoString} {ctxHeader : Option Header}
    {tr tr' : List Exchange} {conn : Conn} (hgrants : Grants c target ctxHeader tr conn)
    (hsub : ∀ x ∈ tr, x ∈ tr') : Grants c target ctxHeader tr' conn := by
  refine HttpClient.Granted.mono hgrants fun x hx => ?_
  obtain ⟨y, hy, hpart⟩ := List.mem_filterMap.mp hx
  exact List.mem_filterMap.mpr ⟨y, hsub y hy, hpart⟩

section Dial

variable {errors : Errors} {c : HTTPConnectDialer} {target : GoString} {ctxHeader : Option Header}
  {tr : List Exchange}

/-- What the upstream has granted in a call of the dialer is what the call returns. -/
theorem grants_iff_of_runs {inner : List HttpClient.Exchange} {res : HttpClient.Result}
    {network : GoString} (hrun : Runs (HttpClient.dialContext c network target ctxHeader) inner res)
    {rest : List Exchange} (hrest : ∀ x ∈ rest, upstreamPart x = none) (conn : Conn) :
    Grants c target ctxHeader (inner.map ofUpstream ++ rest) conn ↔ res.1 = some conn := by
  have hanswers := (HttpClient.asks_dialContext c network target ctxHeader).end_of_runs_after hrun
  rw [Grants, List.filterMap_append, filterMap_ofUpstream, List.filterMap_eq_nil_iff.mpr hrest,
    List.append_nil]
  exact hanswers.granted conn

/-- The status of `tcpDialError`. -/
theorem status_tcpDialError_or (err : RaceError) :
    (tcpDialError err).status = some 502 ∨ (tcpDialError err).status = some 504 := by
  unfold tcpDialError
  split_ifs
  · exact .inr rfl
  · exact .inl rfl

/-- A call of `dialContextCheckACL` that goes through the upstream: it returns what was granted, or
a status, and then what was granted has been closed. -/
structure Dialled (c : HTTPConnectDialer) (target : GoString) (ctxHeader : Option Header)
    (tr : List Exchange) (answer : Option ℕ × Option ServeError) : Prop where
  /-- `ServeHTTP` itself does nothing in it but close. -/
  quiet : ∀ o r, (⟨.serve o, r⟩ : Exchange) ∈ tr → ∃ n, o = .closeConn n
  result : (∃ conn, answer = (some (number conn), none) ∧ Grants c target ctxHeader tr conn) ∨
    ∃ err, answer = (none, some err) ∧ (err.status = some 502 ∨ err.status = some 504)
  closed : ∀ conn, Grants c target ctxHeader tr conn →
    answer.1 = some (number conn) ∨ ⟨.serve (.closeConn (number conn)), ()⟩ ∈ tr

theorem notMem_map_ofUpstream {inner : List HttpClient.Exchange} {o : Serve.Op} {r : Serve.Resp o} :
    (⟨.serve o, r⟩ : Exchange) ∉ inner.map ofUpstream := by
  intro hmem
  obtain ⟨x, -, hx⟩ := List.mem_map.mp hmem
  cases (Sigma.mk.inj hx).1

/-- A call that ends without a connection. -/
theorem Dialled.of_failed {inner : List HttpClient.Exchange} {res : HttpClient.Result}
    {network : GoString} (hrun : Runs (HttpClient.dialContext c network target ctxHeader) inner res)
    {rest : List Exchange} (hrest : ∀ x ∈ rest, upstreamPart x = none)
    (hquiet : ∀ o r, (⟨.serve o, r⟩ : Exchange) ∈ rest → ∃ n, o = .closeConn n)
    (hclosed : ∀ conn, res.1 = some conn → ⟨.serve (.closeConn (number conn)), ()⟩ ∈ rest)
    (err : RaceError) :
    Dialled c target ctxHeader (inner.map ofUpstream ++ rest) (none, some (tcpDialError err)) where
  quiet o r hmem :=
    (List.mem_append.mp hmem).elim (fun h => absurd h notMem_map_ofUpstream) (hquiet o r)
  result := .inr ⟨_, rfl, status_tcpDialError_or err⟩
  closed conn hgrants :=
    .inr (List.mem_append_right _ (hclosed conn ((grants_iff_of_runs hrun hrest conn).mp hgrants)))

theorem dialled_of_runs {answer : Option ℕ × Option ServeError}
    (hrun : Runs (dialContextCheckACL errors c (ascii "tcp") target ctxHeader) tr answer) :
    Dialled c target ctxHeader tr answer := by
  unfold dialContextCheckACL at hrun
  rw [if_neg (by decide)] at hrun
  obtain ⟨dial, rest, ⟨conn, err⟩, rfl, hdial, hrest⟩ := runs_bind_iff.mp hrun
  obtain ⟨inner, hinner, rfl⟩ := runs_dialContext hdial
  rcases conn with _ | conn
  · -- no connection, whatever the error
    obtain ⟨ctxErr, rest', rfl, hret⟩ := runs_op_iff.mp hrest
    obtain ⟨err', rfl, rfl⟩ : ∃ err', rest' = [] ∧ answer = (none, some (tcpDialError err')) := by
      rcases ctxErr with _ | ctxErr
      · exact ⟨_, runs_ret_iff.mp hret⟩
      · exact ⟨_, runs_ret_iff.mp hret⟩
    exact .of_failed hinner (by simp [upstreamPart]) (by simp) (by simp) _
  rcases err with _ | err
  · obtain ⟨ctxErr, rest', rfl, hnext⟩ := runs_op_iff.mp hrest
    rcases ctxErr with _ | ctxErr
    · obtain ⟨rfl, rfl⟩ := runs_ret_iff.mp hnext
      have hgrants : ∀ conn', Grants c target ctxHeader (inner.map ofUpstream ++ [⟨.ctxErr, none⟩])
          conn' ↔ some conn = some conn' := grants_iff_of_runs hinner (by simp [upstreamPart])
      refine ⟨fun o r hmem => ?_, .inl ⟨conn, rfl, (hgrants conn).mpr rfl⟩,
        fun conn' hconn' => .inl ?_⟩
      · rcases List.mem_append.mp hmem with hmem | hmem
        · exact absurd hmem notMem_map_ofUpstream
        · simp at hmem
      · exact congrArg (Option.map number) ((hgrants conn').mp hconn')
    · obtain ⟨⟨⟩, rest'', rfl, hret⟩ := runs_op_iff.mp hnext
      obtain ⟨rfl, rfl⟩ := runs_ret_iff.mp hret
      refine .of_failed hinner (by simp [upstreamPart])
        (fun o r hmem => ⟨number conn, ?_⟩) (by simp) _
      simp only [List.mem_cons, List.not_mem_nil, or_false, Sigma.mk.injEq, reduceCtorEq, false_and,
        false_or, Op.serve.injEq] at hmem
      exact hmem.1
  · obtain ⟨⟨⟩, rest', rfl, hnext⟩ := runs_op_iff.mp hrest
    obtain ⟨ctxErr, rest'', rfl, hret⟩ := runs_op_iff.mp hnext
    -- the dialer never returns both; what follows does not depend on it
    obtain ⟨err', rfl, rfl⟩ : ∃ err', rest'' = [] ∧ answer = (none, some (tcpDialError err')) := by
      rcases ctxErr with _ | ctxErr
      · exact ⟨_, runs_ret_iff.mp hret⟩
      · exact ⟨_, runs_ret_iff.mp hret⟩
    refine .of_failed hinner (by simp [upstreamPart])
      (fun o r hmem => ⟨number conn, ?_⟩) (by simp) _
    simp only [List.mem_cons, List.not_mem_nil, or_false, Sigma.mk.injEq, reduceCtorEq, false_and,
      Op.serve.injEq] at hmem
    exact hmem.1

end Dial

/-! ## `ServeHTTP` on a CONNECT request -/

/-- The operation neither tells the client of a tunnel, nor dials, nor relays. -/
def Quiet : Serve.Op → Prop
  | .writeHeader statusCode => statusCode ≠ 200
  | .dialContext _ _ _ => False
  | .dialContextCheckACL _ _ _ => False
  | .writeTarget _ _ => False
  | .dualStream _ _ => False
  | _ => True

/-- The connection that bytes of a tunnel go to. -/
def relays : Serve.Op → Option ℕ
  | .writeTarget conn _ => some conn
  | .dualStream conn _ => some conn
  | _ => none

/-- The target of a CONNECT request. -/
def target (r : Request) : GoString := if r.url.host = [] then r.host else r.url.host

section Outer

variable {hostsMatch : Request → Bool} {h : Handler} {r : Request}

theorem quiet_of_preliminary {o : Serve.Op} (ho : Preliminary o) : Quiet o := by
  cases o with
  | writeHeader statusCode =>
    obtain rfl : statusCode = 407 := ho
    exact (by decide : 407 ≠ 200)
  | _ => first | exact absurd ho id | trivial

/-- How a CONNECT goes on from the answer to its dial. -/
inductive Sequel (r : Request) : Option ℕ × Option ServeError → List Serve.Exchange → Outcome → Prop
  | failed (conn : Option ℕ) (err : ServeError) : Sequel r (conn, some err) [] (.ok (some err))
  | nothing (err : ServeError) : Sequel r (none, none) [] (.ok (some err))
  | tunnel {conn : ℕ} {variant : PaddingVariant} {tunnel : List Serve.Exchange} {outcome : Outcome}
      (hrun : Runs (serveTunnel r variant conn) tunnel outcome) :
      Sequel r (some conn, none) (tunnel ++ [⟨.closeConn conn, ()⟩]) outcome

/-- A CONNECT that passed the gate is quiet, or it dials once, after quiet operations. -/
theorem runs_serveConnect {ctxHeader : Option Header} {tr : List Serve.Exchange} {outcome : Outcome}
    (hrun : Runs (serveConnect r ctxHeader) tr outcome) :
    (∀ x ∈ tr, Quiet x.1) ∨ ∃ headers answer rest,
      tr = headers ++ ⟨.dialContextCheckACL (ascii "tcp") (target r) ctxHeader, answer⟩ :: rest ∧
        (∀ x ∈ headers, Quiet x.1) ∧ Sequel r answer rest outcome := by
  unfold serveConnect at hrun
  generalize negotiateNaivePadding r.header = negotiated at hrun
  rcases negotiated with text | variant
  · rw [(runs_ret_iff.mp hrun).1]
    exact .inl fun x hx => absurd hx List.not_mem_nil
  dsimp only at hrun
  obtain ⟨headers, rest, u, rfl, hheaders, hrest⟩ := runs_bind_iff.mp hrun
  have hquiet := ((follows_setNaivePaddingResponseHeaders (fun _ => quiet_of_preliminary) r.header
    variant).of_runs hheaders).1
  by_cases hudp : isConnectUDPRequest r = true
  · rw [if_pos hudp] at hrest
    obtain ⟨answer, rest', rfl, hret⟩ := runs_op_iff.mp hrest
    rw [(runs_ret_iff.mp hret).1]
    refine .inl fun x hx => (List.mem_append.mp hx).elim (hquiet x) fun hx => ?_
    rw [List.mem_singleton.mp hx]
    trivial
  rw [if_neg hudp] at hrest
  by_cases hextended : isUnsupportedExtendedConnect r = true
  · rw [if_pos hextended] at hrest
    rw [(runs_ret_iff.mp hrest).1, List.append_nil]
    exact .inl hquiet
  rw [if_neg hextended] at hrest
  by_cases hpseudo : (r.protoMajor = 2 ∨ r.protoMajor = 3) ∧ (r.url.scheme ≠ [] ∨ r.url.path ≠ [])
  · rw [if_pos hpseudo] at hrest
    rw [(runs_ret_iff.mp hrest).1, List.append_nil]
    exact .inl hquiet
  rw [if_neg hpseudo] at hrest
  obtain ⟨answer, rest', rfl, hanswer⟩ := runs_op_iff.mp hrest
  refine .inr ⟨headers, answer, rest', rfl, hquiet, ?_⟩
  rcases answer with ⟨conn, _ | err⟩
  · rcases conn with _ | conn
    · obtain ⟨rfl, rfl⟩ := runs_ret_iff.mp hanswer
      exact .nothing _
    · change Runs (serveTunnel r variant conn >>= _) rest' outcome at hanswer
      obtain ⟨tunnel, closing, o, rfl, htunnel, hclosing⟩ := runs_bind_iff.mp hanswer
      obtain ⟨⟨⟩, last, rfl, hret⟩ := runs_op_iff.mp hclosing
      obtain ⟨rfl, rfl⟩ := runs_ret_iff.mp hret
      exact .tunnel htunnel
  · have hfailed : rest' = [] ∧ outcome = .ok (some err) := by
      rcases conn with _ | conn
      · exact runs_ret_iff.mp hanswer
      · exact runs_ret_iff.mp hanswer
    obtain ⟨rfl, rfl⟩ := hfailed
    exact .failed conn err

/-- The same for `ServeHTTP`. -/
theorem runs_connect (hmethod : r.method = ascii "CONNECT") {tr : List Serve.Exchange}
    {res : Request × Outcome} (hrun : Runs (Serve.serveHTTP hostsMatch h r) tr res) :
    (∀ x ∈ tr, Quiet x.1) ∨ ∃ headers answer rest,
      tr = headers ++ ⟨.dialContextCheckACL (ascii "tcp") (target r) (contextHeader h r), answer⟩ ::
        rest ∧ (∀ x ∈ headers, Quiet x.1) ∧ Sequel r answer rest res.2 := by
  unfold Serve.serveHTTP at hrun
  obtain ⟨tr₁, tr₂, verdict, rfl, hauth, hrest⟩ := runs_bind_iff.mp hrun
  obtain ⟨id, rfl⟩ := trace_of_runs_authenticate hauth
  have hid := fun x hx => quiet_of_preliminary (preliminary_recorded id x hx)
  rcases verdict with panic | authErr
  · rw [(runs_ret_iff.mp hrest).1, List.append_nil]
    exact .inl hid
  obtain ⟨tr₃, tr₄, passed, rfl, hgate, hpassed⟩ := runs_bind_iff.mp hrest
  have hquiet := ((follows_gate (fun _ => quiet_of_preliminary) authErr).of_runs hgate).1
  rcases passed with _ | err
  swap
  · rw [(runs_ret_iff.mp hpassed).1, List.append_nil]
    exact .inl fun x hx => (List.mem_append.mp hx).elim (hid x) (hquiet x)
  dsimp only at hpassed
  rw [if_pos hmethod] at hpassed
  obtain ⟨tr₅, tr₆, outcome, rfl, hconnect, hret⟩ := runs_bind_iff.mp hpassed
  obtain ⟨rfl, rfl⟩ := runs_ret_iff.mp hret
  rcases runs_serveConnect hconnect with hall | ⟨headers, answer, rest, rfl, hheaders, hsequel⟩
  · refine .inl fun x hx => ?_
    rw [List.append_nil, List.mem_append, List.mem_append] at hx
    exact hx.elim (hid x) fun hx => hx.elim (hquiet x) (hall x)
  · refine .inr ⟨recorded id ++ (tr₃ ++ headers), answer, rest, by simp, fun x hx => ?_, hsequel⟩
    rw [List.mem_append, List.mem_append] at hx
    exact hx.elim (hid x) fun hx => hx.elim (hquiet x) (hheaders x)

end Outer

/-! ## The whole -/

section Whole

variable {errors : Errors} {c : HTTPConnectDialer} {hostsMatch : Request → Bool} {h : Handler}
  {r : Request} {tr : List Exchange}

/-- The operation is performed as it is. -/
def Own : Serve.Op → Prop
  | .dialContext _ _ _ => False
  | .dialContextCheckACL _ _ _ => False
  | _ => True

theorem Quiet.own {o : Serve.Op} (ho : Quiet o) : Own o := by
  cases o <;> first | exact absurd ho id | trivial

theorem own_of_tunnelOp {conn : ℕ} {padding : Bool} {o : Serve.Op} (ho : TunnelOp conn padding o) :
    Own o := by
  cases o <;> first | exact absurd ho id | trivial

theorem eq_map_of_expands {outer : List Serve.Exchange} (hown : ∀ x ∈ outer, Own x.1)
    (hexpands : Expands (implementation errors c h) outer tr) : tr = outer.map ofServe := by
  induction hexpands with
  | nil => rfl
  | @cons x outer piece tr hpiece _ ih =>
    have hsingle : piece = [ofServe x] := by
      have hx := hown x List.mem_cons_self
      obtain ⟨o, answer⟩ := x
      cases o
      all_goals first
        | exact absurd hx id
        | (obtain ⟨answer', rest, rfl, hret⟩ := runs_op_iff.mp hpiece
           obtain ⟨rfl, rfl⟩ := runs_ret_iff.mp hret
           rfl)
    rw [hsingle, ih fun y hy => hown y (List.mem_cons_of_mem x hy)]
    rfl

theorem Sequel.own {answer : Option ℕ × Option ServeError} {rest : List Serve.Exchange}
    {outcome : Outcome} (hsequel : Sequel r answer rest outcome) : ∀ x ∈ rest, Own x.1 := by
  cases hsequel with
  | failed | nothing => exact fun x hx => absurd hx List.not_mem_nil
  | tunnel hrun =>
    intro x hx
    rcases List.mem_append.mp hx with hx | hx
    · exact own_of_tunnelOp ((tunnelOp_of_runs_serveTunnel hrun).2 x hx)
    · rw [List.mem_singleton.mp hx]
      trivial

/-- A run of the whole on a CONNECT request: it is quiet, or the dialer is called once, after quiet
operations, and the rest is that of `ServeHTTP` alone. -/
theorem runs_chain (hupstream : h.upstream.isSome = true) (hmethod : r.method = ascii "CONNECT")
    {res : Request × Outcome} (hrun : Runs (serveHTTP errors c hostsMatch h r) tr res) :
    (∃ outer : List Serve.Exchange, tr = outer.map ofServe ∧ ∀ x ∈ outer, Quiet x.1) ∨
      ∃ (headers rest : List Serve.Exchange) (piece : List Exchange)
        (answer : Option ℕ × Option ServeError),
        tr = headers.map ofServe ++ (piece ++ rest.map ofServe) ∧ (∀ x ∈ headers, Quiet x.1) ∧
          Dialled c (target r) (contextHeader h r) piece answer ∧ Sequel r answer rest res.2 := by
  obtain ⟨outer, houter, hexpands⟩ := runs_interp_iff.mp hrun
  rcases runs_connect hmethod houter with hquiet | ⟨headers, answer, rest, rfl, hquiet, hsequel⟩
  · exact .inl ⟨outer, eq_map_of_expands (fun x hx => (hquiet x hx).own) hexpands, hquiet⟩
  obtain ⟨tr₁, tr₂, rfl, hheaders, hrest⟩ := expands_append_iff.mp hexpands
  cases hrest with
  | @cons _ _ piece tr₃ hpiece hrest =>
    rw [eq_map_of_expands (fun x hx => (hquiet x hx).own) hheaders,
      eq_map_of_expands hsequel.own hrest]
    simp only [implementation, if_pos hupstream] at hpiece
    exact .inr ⟨headers, rest, piece, answer, rfl, hquiet, dialled_of_runs hpiece, hsequel⟩

/-- What comes behind a part of the trace that does not have it has the part before it. -/
theorem mem_of_append_eq {first rest pre post : List Exchange} {x : Exchange} (hx : x ∉ first)
    (heq : first ++ rest = pre ++ x :: post) : (∀ y ∈ first, y ∈ pre) ∧ x ∈ rest := by
  rcases List.append_eq_append_iff.mp heq with ⟨mid, rfl, rfl⟩ | ⟨mid, rfl, hmid⟩
  · exact ⟨fun y hy => List.mem_append_left _ hy, by simp⟩
  · cases mid with
    | nil =>
      rw [List.nil_append] at hmid
      exact ⟨fun y hy => by simpa using hy, by rw [← hmid]; exact List.mem_cons_self⟩
    | cons z mid =>
      obtain ⟨rfl, -⟩ := List.cons.inj hmid
      exact absurd (by simp) hx

theorem mem_map_ofServe {outer : List Serve.Exchange} {o : Serve.Op} {answer : Serve.Resp o}
    (hmem : (⟨.serve o, answer⟩ : Exchange) ∈ outer.map ofServe) : ⟨o, answer⟩ ∈ outer := by
  obtain ⟨⟨o', answer'⟩, hx, heq⟩ := List.mem_map.mp hmem
  obtain ⟨hop, hanswer⟩ := Sigma.mk.inj heq
  obtain rfl := Op.serve.inj hop
  obtain rfl := eq_of_heq hanswer
  exact hx

theorem not_quiet_of_relays {o : Serve.Op} {n : ℕ} (hrelays : relays o = some n) : ¬ Quiet o := by
  cases o <;> first | exact id | exact absurd hrelays (by simp [relays])

theorem eq_of_tunnelOp {o : Serve.Op} {n conn : ℕ} {padding : Bool} (hrelays : relays o = some n)
    (ho : TunnelOp conn padding o) : n = conn := by
  cases o with
  | writeTarget => exact (Option.some_inj.mp hrelays).symm.trans ho
  | dualStream => exact (Option.some_inj.mp hrelays).symm.trans ho.1
  | _ => exact absurd hrelays (by simp [relays])

/-- Up to the end of the dial nothing is told and nothing is relayed. -/
theorem Dialled.notMem {ctxHeader : Option Header} {address : GoString}
    {headers : List Serve.Exchange} {piece : List Exchange} {answer : Option ℕ × Option ServeError}
    (hdialled : Dialled c address ctxHeader piece answer) (hquiet : ∀ x ∈ headers, Quiet x.1)
    {o : Serve.Op} {a : Serve.Resp o} (ho : ¬ Quiet o) :
    (⟨.serve o, a⟩ : Exchange) ∉ headers.map ofServe ++ piece := by
  intro hmem
  rcases List.mem_append.mp hmem with hmem | hmem
  · exact ho (hquiet _ (mem_map_ofServe hmem))
  · obtain ⟨n, rfl⟩ := hdialled.quiet o a hmem
    exact ho trivial

/-- What the upstream grants in a run it grants in the dial. -/
theorem grants_iff {ctxHeader : Option Header} {address : GoString}
    {headers rest : List Serve.Exchange} {piece : List Exchange} (conn : Conn) :
    Grants c address ctxHeader (headers.map ofServe ++ (piece ++ rest.map ofServe)) conn ↔
      Grants c address ctxHeader piece conn := by
  rw [Grants, List.filterMap_append, List.filterMap_append, filterMap_ofServe, filterMap_ofServe,
    List.nil_append, List.append_nil, Grants]

end Whole

/-- **A tunnel is one the upstream has granted.**  For every CONNECT request to a handler with an
upstream, and whatever the upstream, the network and the client do:

* when the client is told 200, the upstream has answered 200 to a CONNECT for the target;
* bytes are relayed only over a connection on which it has;
* every connection on which it has is closed;
* if the dialer was called and the client is not told 200, the request ends with a 502 or a 504. -/
theorem upstream_tunnel {errors : Errors} {c : HTTPConnectDialer} {hostsMatch : Request → Bool}
    {h : Handler} {r : Request} (hupstream : h.upstream.isSome = true)
    (hmethod : r.method = ascii "CONNECT") {tr : List Exchange} {res : Request × Outcome}
    (hrun : Runs (serveHTTP errors c hostsMatch h r) tr res) :
    (∀ pre post, tr = pre ++ ⟨.serve (.writeHeader 200), ()⟩ :: post →
      ∃ conn, Grants c (target r) (contextHeader h r) pre conn) ∧
    (∀ pre o answer post n, tr = pre ++ ⟨.serve o, answer⟩ :: post → relays o = some n →
      ∃ conn, n = number conn ∧ Grants c (target r) (contextHeader h r) pre conn) ∧
    (∀ conn, Grants c (target r) (contextHeader h r) tr conn →
      ⟨.serve (.closeConn (number conn)), ()⟩ ∈ tr) ∧
    ((∃ o answer, ⟨.upstream o, answer⟩ ∈ tr) → ⟨.serve (.writeHeader 200), ()⟩ ∉ tr →
      ∃ err, res.2 = .ok (some err) ∧ (err.status = some 502 ∨ err.status = some 504)) := by
  rcases runs_chain hupstream hmethod hrun with
    ⟨outer, rfl, hquiet⟩ | ⟨headers, rest, piece, answer, rfl, hquiet, hdialled, hsequel⟩
  · -- nothing is told, relayed or granted without a dial
    refine ⟨fun pre post heq => ?_, fun pre o a post n heq hrelays => ?_,
      fun conn hgrants => ?_, ?_⟩
    · have hmem : (⟨.serve (.writeHeader 200), ()⟩ : Exchange) ∈ outer.map ofServe := by
        rw [heq]
        simp
      exact absurd rfl (hquiet _ (mem_map_ofServe hmem))
    · have hmem : (⟨.serve o, a⟩ : Exchange) ∈ outer.map ofServe := by
        rw [heq]
        simp
      exact absurd (hquiet _ (mem_map_ofServe hmem)) (not_quiet_of_relays hrelays)
    · rw [Grants, filterMap_ofServe] at hgrants
      exact absurd hgrants (HttpClient.ungranted_nil.not_granted _ conn)
    · rintro ⟨o, a, hmem⟩
      obtain ⟨x, -, hx⟩ := List.mem_map.mp hmem
      cases (Sigma.mk.inj hx).1
  have hloud : ¬ Quiet (.writeHeader 200) := fun ho => ho rfl
  have hbefore : ∀ (pre post : List Exchange) (o : Serve.Op) (a : Serve.Resp o), ¬ Quiet o →
      headers.map ofServe ++ (piece ++ rest.map ofServe) = pre ++ ⟨.serve o, a⟩ :: post →
      (∀ x ∈ piece, x ∈ pre) ∧ ⟨o, a⟩ ∈ rest := by
    intro pre post o a ho heq
    rw [← List.append_assoc] at heq
    obtain ⟨hsub, hrest⟩ := mem_of_append_eq (hdialled.notMem hquiet ho) heq
    exact ⟨fun x hx => hsub x (List.mem_append_right _ hx), mem_map_ofServe hrest⟩
  generalize res.2 = outcome at hsequel ⊢
  rcases hdialled.result with ⟨conn, rfl, hgrants⟩ | ⟨err, rfl, hstatus⟩
  · cases hsequel with
    | @tunnel _ variant tunnel _ hserve =>
      obtain ⟨⟨behind, hbehind⟩, htunnel⟩ := tunnelOp_of_runs_serveTunnel hserve
      refine ⟨fun pre post heq => ⟨conn, hgrants.mono (hbefore pre post _ _ hloud heq).1⟩,
        fun pre o a post n heq hrelays => ?_, fun conn' hconn' => ?_, fun _ hnot => ?_⟩
      · obtain ⟨hsub, hmem⟩ := hbefore pre post o a (not_quiet_of_relays hrelays) heq
        refine ⟨conn, ?_, hgrants.mono hsub⟩
        rcases List.mem_append.mp hmem with hmem | hmem
        · exact eq_of_tunnelOp hrelays (htunnel _ hmem)
        · obtain ⟨rfl, -⟩ := Sigma.mk.inj (List.mem_singleton.mp hmem)
          cases hrelays
      · rcases hdialled.closed conn' ((grants_iff conn').mp hconn') with heq | hclosed
        · rw [← Option.some_inj.mp heq]
          simp [ofServe]
        · simp [hclosed]
      · exact absurd (by simp [ofServe, hbehind]) hnot
  · cases hsequel with
    | failed =>
      refine ⟨fun pre post heq => ?_, fun pre o a post n heq hrelays => ?_, fun conn hgrants => ?_,
        fun _ _ => ⟨err, rfl, hstatus⟩⟩
      · exact absurd (hbefore pre post _ _ hloud heq).2 List.not_mem_nil
      · exact absurd (hbefore pre post o a (not_quiet_of_relays hrelays) heq).2 List.not_mem_nil
      · rcases hdialled.closed conn ((grants_iff conn).mp hgrants) with heq | hclosed
        · cases heq
        · simp [hclosed]

/-! ### A run

The cached connection to the upstream takes the request. -/

/-- A dialer for an upstream without credentials. -/
def plainDialer : HTTPConnectDialer :=
  { scheme := ascii "https", host := ascii "upstream.example:443" }

/-- A handler with that upstream, which hides the addresses of its clients. -/
def chained : Handler := { hideIP := true, upstream := some { user := none } }

/-- An HTTP/2 CONNECT. -/
def tunnelTo : Request where
  method := ascii "CONNECT"
  url := { host := ascii "target.example:443" }
  proto := ascii "HTTP/2.0"
  protoMajor := 2
  protoMinor := 0
  header := []
  host := ascii "target.example:443"

/-- The operations up to the status. -/
def beforeStatus : List Exchange :=
  [⟨.serve (.randIntn 32), (0 : ℕ)⟩, ⟨.serve .randUint64, (0 : UInt64)⟩,
    ⟨.serve .responseHeader, ([] : Header)⟩,
    ⟨.serve (.setResponseHeader (Header.set [] (ascii "Padding") (responsePadding 30 0))), ()⟩,
    ⟨.upstream .cached, some (3, true)⟩,
    ⟨.upstream (.roundTrip 3 (connectRequest plainDialer (ascii "target.example:443") none).http2),
      .ok ⟨200, ascii "200 OK"⟩⟩,
    ⟨.ctxErr, none⟩]

/-- The operations behind the status. -/
def behindStatus : List Exchange :=
  [⟨.serve .flush, none⟩, ⟨.serve (.dualStream 7 false), none⟩, ⟨.serve .closeBody, none⟩,
    ⟨.serve (.closeConn 7), ()⟩]

theorem upstream_tunnel_cached :
    ∃ res, Runs
        (serveHTTP ⟨fun _ => .canceled, fun _ => []⟩ plainDialer (fun _ => false) chained tunnelTo)
      (beforeStatus ++ ⟨.serve (.writeHeader 200), ()⟩ :: behindStatus) res ∧
      ∃ conn, Grants plainDialer (ascii "target.example:443") none beforeStatus conn := by
  have hrun : Runs (serveHTTP ⟨fun _ => .canceled, fun _ => []⟩ plainDialer (fun _ => false) chained
      tunnelTo) (beforeStatus ++ ⟨.serve (.writeHeader 200), ()⟩ :: behindStatus)
      (tunnelTo, .ok none) :=
    .op (.op (.op (.op (.op (.op (.op (.op (.op (.op (.op (.op (.ret _))))))))))))
  exact ⟨_, hrun, (upstream_tunnel rfl rfl hrun).1 _ _ rfl⟩

end Chain
end Serve
end ForwardProxy
