import ForwardProxy.Serve.Unauthenticated

/-!
# What a run of `ServeHTTP` looks like

A request either stops at the gate, and then nothing goes out, or it passes the gate without a
trace but for the name that the authentication records.  What follows is the run of one function:
`serveConnect` for a CONNECT, `servePlain` for any other request.  `runs_serveHTTP_cases` is that
alternative, and statements about whole runs are made from it.

A CONNECT in turn either ends before a connection is there, or it is the headers of the reply, the
dial, the tunnel and the closing of the connection, in this order (`runs_serveConnect_cases`).
`TunnelOp` lists what the tunnel consists of.
-/

namespace ForwardProxy
namespace Serve

open ForwardProxy.Core Prog

variable {hostsMatch : Request → Bool} {h : Handler} {r : Request}

/-! ## The gate -/

/-- The authentication records a name or nothing. -/
theorem trace_of_runs_authenticate {tr : List Exchange} {a : Outcome}
    (hrun : Runs (authenticate h r) tr a) : ∃ id, tr = recorded id := by
  unfold authenticate at hrun
  cases hcreds : h.authCredentials with
  | none =>
    rw [hcreds] at hrun
    exact ⟨none, (runs_ret_iff.mp hrun).1⟩
  | some creds =>
    rw [hcreds] at hrun
    dsimp only at hrun
    generalize checkCredentials creds r = verdict at hrun
    rcases verdict with panic | ⟨_ | id, err⟩
    · exact ⟨none, (runs_ret_iff.mp hrun).1⟩
    · exact ⟨none, (runs_ret_iff.mp hrun).1⟩
    · obtain ⟨u, tr', rfl, hret⟩ := runs_op_iff.mp hrun
      rw [(runs_ret_iff.mp hret).1]
      exact ⟨some id, rfl⟩

/-- A request passes the gate in silence, and only in a version that is supported; one that does not
pass sends nothing out. -/
theorem runs_gate_cases {authErr : Option ServeError} {tr : List Exchange}
    {res : Option (Option ServeError)} (hrun : Runs (gate hostsMatch h r authErr) tr res) :
    (res = none ∧ tr = [] ∧ (r.protoMajor = 1 ∨ r.protoMajor = 2 ∨ r.protoMajor = 3)) ∨
      res ≠ none ∧ ∀ x ∈ tr, ¬ Outbound x.1 := by
  rcases res with _ | e
  · obtain ⟨rfl, hpasses⟩ :=
      ((follows_gate (fun _ => Preliminary.clean) authErr).of_runs hrun).2 rfl
    rw [gate_eq_ret hpasses] at hrun
    exact .inl ⟨rfl, (runs_ret_iff.mp hrun).1, hpasses.2.2⟩
  · exact .inr ⟨Option.some_ne_none e, not_outbound_of_runs_gate hrun⟩

/-- **The runs of `ServeHTTP`.** -/
theorem runs_serveHTTP_cases {tr : List Exchange} {res : Request × Outcome}
    (hrun : Runs (serveHTTP hostsMatch h r) tr res) :
    (∀ x ∈ tr, ¬ Outbound x.1) ∨
      ∃ id rest, tr = recorded id ++ rest ∧
        (r.protoMajor = 1 ∨ r.protoMajor = 2 ∨ r.protoMajor = 3) ∧
        ((r.method = ascii "CONNECT" ∧ Runs (serveConnect r (contextHeader h r)) rest res.2) ∨
          r.method ≠ ascii "CONNECT" ∧
            Runs (servePlain h (hostError r) (contextHeader h r) r) rest res) := by
  unfold serveHTTP at hrun
  obtain ⟨tr₁, tr₂, verdict, rfl, hauth, hrest⟩ := runs_bind_iff.mp hrun
  obtain ⟨id, rfl⟩ := trace_of_runs_authenticate hauth
  rcases verdict with panic | authErr
  · rw [(runs_ret_iff.mp hrest).1, List.append_nil]
    exact Or.inl (not_outbound_recorded id)
  obtain ⟨tr₃, tr₄, passed, rfl, hgate, hpassed⟩ := runs_bind_iff.mp hrest
  rcases runs_gate_cases hgate with ⟨rfl, rfl, hversion⟩ | ⟨hsome, hquiet⟩
  · refine Or.inr ⟨id, tr₄, rfl, hversion, ?_⟩
    dsimp only at hpassed
    by_cases hmethod : r.method = ascii "CONNECT"
    · rw [if_pos hmethod] at hpassed
      obtain ⟨tr₅, tr₆, outcome, rfl, hconnect, hret⟩ := runs_bind_iff.mp hpassed
      obtain ⟨rfl, rfl⟩ := runs_ret_iff.mp hret
      exact Or.inl ⟨hmethod, by rwa [List.append_nil]⟩
    · rw [if_neg hmethod] at hpassed
      exact Or.inr ⟨hmethod, hpassed⟩
  · obtain ⟨err, rfl⟩ := Option.ne_none_iff_exists'.mp hsome
    rw [(runs_ret_iff.mp hpassed).1, List.append_nil]
    refine Or.inl fun x hx => ?_
    rcases List.mem_append.mp hx with hx | hx
    · exact not_outbound_recorded id x hx
    · exact hquiet x hx

/-! ## CONNECT -/

theorem not_outbound_setNaivePaddingResponseHeaders {request : Header} {variant : PaddingVariant}
    {headers : List Exchange} {u : Unit}
    (hrun : Runs (setNaivePaddingResponseHeaders request variant) headers u) :
    ∀ x ∈ headers, ¬ Outbound x.1 :=
  ((follows_setNaivePaddingResponseHeaders (fun _ => Preliminary.not_outbound) request
    variant).of_runs hrun).1

/-- The operations of a tunnel to this connection, with or without padding. -/
def TunnelOp (conn : ℕ) (padding : Bool) : Op → Prop
  | .writeHeader statusCode => statusCode = 200
  | .flush => True
  | .hijack => True
  | .buffered => True
  | .writeTarget conn' _ => conn' = conn
  | .flushClient => True
  | .closeClient => True
  | .closeBody => True
  | .dualStream conn' padding' => conn' = conn ∧ padding' = padding
  | _ => False

/-- A hijacked connection is relayed without padding. -/
theorem follows_serveHijack (conn : ℕ) :
    Follows (only (TunnelOp conn false)) (fun _ _ => True) () (serveHijack conn) := by
  refine ⟨rfl, fun _ => ⟨trivial, ?_⟩⟩
  rintro (_ | err)
  swap
  · trivial
  refine ⟨trivial, fun rbuf => ?_⟩
  show Follows _ _ _ (if _ then _ else _)
  by_cases hbuffered : rbuf ≠ []
  · rw [if_pos hbuffered]
    refine ⟨rfl, fun _ => ⟨trivial, ?_⟩⟩
    rintro (_ | err)
    · exact ⟨⟨rfl, rfl⟩, fun _ => ⟨trivial, fun _ => trivial⟩⟩
    · exact ⟨trivial, fun _ => trivial⟩
  · rw [if_neg hbuffered]
    refine ⟨trivial, ?_⟩
    rintro (_ | err)
    · exact ⟨⟨rfl, rfl⟩, fun _ => ⟨trivial, fun _ => trivial⟩⟩
    · exact ⟨trivial, fun _ => trivial⟩

/-- The tunnel that `serveTunnel` starts is padded as negotiated, but never for HTTP/1. -/
theorem tunnelOp_of_runs_serveTunnel {r : Request} {variant : PaddingVariant} {conn : ℕ}
    {tunnel : List Exchange} {outcome : Outcome}
    (hrun : Runs (serveTunnel r variant conn) tunnel outcome) :
    (∃ rest, tunnel = ⟨.writeHeader 200, ()⟩ :: rest) ∧
      ∀ x ∈ tunnel, TunnelOp conn (r.protoMajor ≠ 1 ∧ variant = .variant1) x.1 := by
  refine ⟨?_, ?_⟩
  · obtain ⟨u, rest, rfl, -⟩ := runs_op_iff.mp hrun
    exact ⟨rest, rfl⟩
  have hfollows : Follows (only (TunnelOp conn (r.protoMajor ≠ 1 ∧ variant = .variant1)))
      (fun _ _ => True) () (serveTunnel r variant conn) := by
    refine ⟨rfl, fun _ => ⟨trivial, ?_⟩⟩
    rintro (_ | err)
    swap
    · trivial
    show Follows _ _ _ (if _ then _ else _)
    by_cases hversion : r.protoMajor = 1
    · rw [if_pos hversion]
      have hraw : decide (r.protoMajor ≠ 1 ∧ variant = .variant1) = false := by simp [hversion]
      rw [hraw]
      exact follows_bind.mpr ((follows_serveHijack conn).mono fun _ _ _ => trivial)
    · rw [if_neg hversion]
      by_cases hbody : r.body = .absent
      · rw [if_pos hbody]
        trivial
      · rw [if_neg hbody]
        exact ⟨⟨rfl, by simp [hversion]⟩, fun _ => ⟨trivial, fun _ => trivial⟩⟩
  exact (hfollows.of_runs hrun).1

/-- A CONNECT that passed the gate ends before it dials, or with the answer to the dial, or with a
tunnel, after which the connection is closed. -/
theorem runs_serveConnect_cases {ctxHeader : Option Header} {tr : List Exchange} {outcome : Outcome}
    (hrun : Runs (serveConnect r ctxHeader) tr outcome) :
    tr = [] ∨ ∃ variant headers rest, negotiateNaivePadding r.header = .ok variant ∧
      tr = headers ++ rest ∧ Runs (setNaivePaddingResponseHeaders r.header variant) headers () ∧
        (rest = [] ∨ (∃ answer, rest = [⟨.serveConnectUDP r, answer⟩]) ∨
          ∃ hostPort answer rest',
            rest = ⟨.dialContextCheckACL (ascii "tcp") hostPort ctxHeader, answer⟩ :: rest' ∧
            ((∀ conn, answer ≠ (some conn, none)) ∧ rest' = [] ∨
              ∃ conn tunnel, answer = (some conn, none) ∧
                Runs (serveTunnel r variant conn) tunnel outcome ∧
                rest' = tunnel ++ [⟨.closeConn conn, ()⟩])) := by
  unfold serveConnect at hrun
  generalize negotiateNaivePadding r.header = negotiated at hrun ⊢
  rcases negotiated with text | variant
  · exact Or.inl (runs_ret_iff.mp hrun).1
  dsimp only at hrun
  obtain ⟨headers, rest, u, rfl, hheaders, hrest⟩ := runs_bind_iff.mp hrun
  refine Or.inr ⟨variant, headers, rest, rfl, rfl, hheaders, ?_⟩
  by_cases hudp : isConnectUDPRequest r = true
  · rw [if_pos hudp] at hrest
    obtain ⟨answer, tr', rfl, hret⟩ := runs_op_iff.mp hrest
    rw [(runs_ret_iff.mp hret).1]
    exact Or.inr (Or.inl ⟨answer, rfl⟩)
  rw [if_neg hudp] at hrest
  by_cases hextended : isUnsupportedExtendedConnect r = true
  · rw [if_pos hextended] at hrest
    exact Or.inl (runs_ret_iff.mp hrest).1
  rw [if_neg hextended] at hrest
  by_cases hpseudo : (r.protoMajor = 2 ∨ r.protoMajor = 3) ∧ (r.url.scheme ≠ [] ∨ r.url.path ≠ [])
  · rw [if_pos hpseudo] at hrest
    exact Or.inl (runs_ret_iff.mp hrest).1
  rw [if_neg hpseudo] at hrest
  obtain ⟨answer, rest', rfl, hanswer⟩ := runs_op_iff.mp hrest
  refine Or.inr (Or.inr ⟨_, answer, rest', rfl, ?_⟩)
  rcases answer with ⟨_ | conn, _ | err⟩
  · exact Or.inl ⟨by simp, (runs_ret_iff.mp hanswer).1⟩
  · exact Or.inl ⟨by simp, (runs_ret_iff.mp hanswer).1⟩
  · change Runs (serveTunnel r variant conn >>= _) rest' outcome at hanswer
    obtain ⟨tunnel, tr₂, o, rfl, htunnel, hclose⟩ := runs_bind_iff.mp hanswer
    obtain ⟨u, tr₃, rfl, hret⟩ := runs_op_iff.mp hclose
    obtain ⟨rfl, rfl⟩ := runs_ret_iff.mp hret
    exact Or.inr ⟨conn, tunnel, rfl, htunnel, rfl⟩
  · exact Or.inl ⟨by simp, (runs_ret_iff.mp hanswer).1⟩

end Serve
end ForwardProxy
