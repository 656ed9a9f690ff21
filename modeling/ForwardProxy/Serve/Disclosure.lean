import ForwardProxy.Serve.Chain

/-!
# What the upstream gets to see

The CONNECT requests that a handler sends to its upstream are put together from two sources: the URL
of the upstream, and what `ServeHTTP` has left in the context of the request.  The second is
overlaid on the first, so a field of the client could take the place of the credentials.  It cannot:
`ServeHTTP` copies the fields `Forwarded` and `X-Forwarded-For` only, in whatever spelling, and adds
to the first the address that the request came from; with `hide_ip` it leaves nothing.

`upstream_learns` says so for every request on every connection, for tunnels and for plain requests,
and whatever the upstream and the network do.
-/

namespace ForwardProxy
namespace Serve
namespace Chain

open ForwardProxy.Core Prog Dial
open HttpClient (HTTPConnectDialer ConnectRequest connectRequest newHTTPConnectDialer)

/-! ## The header of the context -/

/-- The fields of a client that are passed on. -/
def NamesAddress (key : GoString) : Prop :=
  toLower key = ascii "forwarded" ∨ toLower key = ascii "x-forwarded-for"

instance : DecidablePred NamesAddress := fun key =>
  inferInstanceAs
    (Decidable (toLower key = ascii "forwarded" ∨ toLower key = ascii "x-forwarded-for"))

theorem lookup_contextHeader {h : Handler} {r : Request} (hide : h.hideIP = false)
    (key : GoString) : ((contextHeader h r).getD []).lookup key =
      if key = ascii "Forwarded" then
        some ((r.header.lookup (ascii "Forwarded")).getD [] ++ [forwardedFor r])
      else if NamesAddress key then r.header.lookup key else none := by
  have hforwarded : canonicalHeaderKey (ascii "Forwarded") = ascii "Forwarded" := by decide
  have hnames : NamesAddress (ascii "Forwarded") := .inl (by decide)
  have hfilter : ∀ key, Header.lookup (r.header.filter fun e =>
      toLower e.1 = ascii "forwarded" ∨ toLower e.1 = ascii "x-forwarded-for") key =
        if NamesAddress key then r.header.lookup key else none :=
    fun key => Header.lookup_filter r.header NamesAddress key
  rw [contextHeader, hide, if_neg (by decide), Option.getD_some, Header.add, hforwarded]
  by_cases hkey : key = ascii "Forwarded"
  · rw [if_pos hkey, hkey, Header.lookup_insert_self, hfilter, if_pos hnames]
  · rw [if_neg hkey, Header.lookup_insert_of_ne _ (Ne.symm hkey), hfilter]

/-- A field that is passed on names addresses. -/
theorem namesAddress_of_lookup {h : Handler} {r : Request} {key : GoString} {values : List GoString}
    (hlookup : ((contextHeader h r).getD []).lookup key = some values) :
    h.hideIP = false ∧ NamesAddress key := by
  cases hide : h.hideIP with
  | true =>
    rw [contextHeader, hide, if_pos rfl] at hlookup
    cases hlookup
  | false =>
    rw [lookup_contextHeader hide] at hlookup
    refine ⟨rfl, ?_⟩
    split_ifs at hlookup with hkey hnames
    · rw [hkey]
      exact .inl (by decide)
    · exact hnames

/-! ## Which context the dialer gets -/

/-- A dial is made with the context of the request. -/
def InContext (h : Handler) (r : Request) : Serve.Op → Prop
  | .dialContext _ _ ctxHeader => ctxHeader = contextHeader h r
  | .dialContextCheckACL _ _ ctxHeader => ctxHeader = contextHeader h r
  | _ => True

theorem Own.inContext {h : Handler} {r : Request} {o : Serve.Op} (ho : Own o) :
    InContext h r o := by
  cases o <;> first | exact absurd ho id | trivial

theorem own_of_not_outbound {o : Serve.Op} (ho : ¬ Outbound o) : Own o := by
  cases o <;> first | trivial | exact absurd trivial ho

theorem inContext_of_runs {hostsMatch : Request → Bool} {h : Handler} {r : Request}
    {tr : List Serve.Exchange} {res : Request × Outcome}
    (hrun : Runs (Serve.serveHTTP hostsMatch h r) tr res) : ∀ x ∈ tr, InContext h r x.1 := by
  rcases runs_serveHTTP_cases hrun with hquiet | ⟨id, rest, rfl, -, ⟨-, hconnect⟩ | ⟨-, hplain⟩⟩
  · exact fun x hx => (own_of_not_outbound (hquiet x hx)).inContext
  · intro x hx
    rcases List.mem_append.mp hx with hx | hx
    · exact (own_of_not_outbound (not_outbound_recorded id x hx)).inContext
    rcases runs_serveConnect hconnect with hquiet | ⟨headers, answer, behind, rfl, hquiet, hsequel⟩
    · exact (hquiet x hx).own.inContext
    · rcases List.mem_append.mp hx with hx | hx
      · exact (hquiet x hx).own.inContext
      · rcases List.mem_cons.mp hx with rfl | hx
        · rfl
        · exact (hsequel.own x hx).inContext
  · intro x hx
    rcases List.mem_append.mp hx with hx | hx
    · exact (own_of_not_outbound (not_outbound_recorded id x hx)).inContext
    have hlocal : ∀ o, Local o → InContext h r o := by
      intro o ho
      cases o <;> first | exact absurd ho id | trivial
    have hfollows : Follows (only (InContext h r)) (fun _ _ => True) ()
        (servePlain h (hostError r) (contextHeader h r) r) := by
      refine follows_servePlain hlocal ?_
      unfold send
      cases h.upstream with
      | none => exact follows_sendDirect hlocal fun _ => trivial
      | some upstream =>
        exact follows_sendUpstream (P := InContext h r) rfl (fun _ => trivial) (fun _ => trivial) _
    exact (hfollows.of_runs hplain).1 x hx

/-! ## What is sent -/

/-- The request that an operation of the dialer sends. -/
def sent : HttpClient.Op → Option ConnectRequest
  | .roundTrip _ req => some req
  | .write _ req => some req
  | _ => none

theorem header_of_carries {req req' : ConnectRequest} {o : HttpClient.Op}
    (ho : HttpClient.Carries req o) (hsent : sent o = some req') : req'.header = req.header := by
  cases o with
  | roundTrip rawConn req'' =>
    rw [← Option.some_inj.mp hsent, show req'' = req.http2 from ho]
    rfl
  | write rawConn req'' =>
    rw [← Option.some_inj.mp hsent, show req'' = req.http1 from ho]
    rfl
  | _ => cases hsent

/-- Every request to the upstream is one for the context of the client's request. -/
def Tells (c : HTTPConnectDialer) (h : Handler) (r : Request) : Op → Prop
  | .upstream o => ∃ address, HttpClient.Carries (connectRequest c address (contextHeader h r)) o
  | _ => True

section Tells

variable {errors : Errors} {c : HTTPConnectDialer} {h : Handler} {r : Request}

theorem follows_dialContext (network address : GoString) :
    Follows (only (Tells c h r)) (fun _ _ => True) ()
      (dialContext c network address (contextHeader h r)) := by
  refine Follows.interp (fun o ho => ?_)
    (HttpClient.asks_dialContext c network address (contextHeader h r)).only_of_after
  exact ⟨⟨address, ho⟩, fun _ => trivial⟩

theorem follows_dialContextCheckACL (network hostPort : GoString) :
    Follows (only (Tells c h r)) (fun _ _ => True) ()
      (dialContextCheckACL errors c network hostPort (contextHeader h r)) := by
  unfold dialContextCheckACL
  split_ifs
  · trivial
  refine follows_bind.mpr ((follows_dialContext network hostPort).mono ?_)
  rintro ⟨_ | conn, err⟩ _ -
  · refine ⟨trivial, ?_⟩
    rintro (_ | ctxErr)
    · trivial
    · trivial
  rcases err with _ | err
  · refine ⟨trivial, ?_⟩
    rintro (_ | ctxErr)
    · trivial
    · exact ⟨trivial, fun _ => trivial⟩
  · refine ⟨trivial, fun _ => ⟨trivial, ?_⟩⟩
    rintro (_ | ctxErr)
    · trivial
    · trivial

theorem follows_implementation {o : Serve.Op} (ho : InContext h r o) :
    Follows (only (Tells c h r)) (fun _ _ => True) () (implementation errors c h o) := by
  cases o with
  | dialContext network address ctxHeader =>
    rw [show ctxHeader = contextHeader h r from ho]
    exact follows_bind.mpr ((follows_dialContext network address).mono fun _ _ _ => trivial)
  | dialContextCheckACL network hostPort ctxHeader =>
    rw [show ctxHeader = contextHeader h r from ho]
    unfold implementation
    split_ifs
    · exact follows_dialContextCheckACL network hostPort
    · exact ⟨trivial, fun _ => trivial⟩
  | _ => exact ⟨trivial, fun _ => trivial⟩

end Tells

/-- The credentials of a dialer for a URL. -/
theorem defaultHeader_of_newHTTPConnectDialer {parse : GoString → Except GoString URL}
    {proxyURLStr : GoString} {u : URL} {c : HTTPConnectDialer} (hparse : parse proxyURLStr = .ok u)
    (hnew : newHTTPConnectDialer parse proxyURLStr = .ok c) :
    c.defaultHeader = HttpClient.defaultHeader u.user := by
  unfold newHTTPConnectDialer at hnew
  rw [hparse] at hnew
  change (if _ then _ else _) = _ at hnew
  split_ifs at hnew
  all_goals rw [← Except.ok.inj hnew]

theorem lookup_defaultHeader {user : Option Userinfo} {key : GoString}
    (hkey : key ≠ ascii "Proxy-Authorization") :
    (HttpClient.defaultHeader user).lookup key = none := by
  have hcanonical : canonicalHeaderKey (ascii "Proxy-Authorization") =
      ascii "Proxy-Authorization" := by
    decide
  unfold HttpClient.defaultHeader
  split
  · split_ifs
    · rw [Header.set, hcanonical, Header.lookup_insert_of_ne _ (Ne.symm hkey)]
      rfl
    · rfl
  · rfl

/-- **What the upstream learns.**  Of every run of `ServeHTTP` with a dialer for the URL `u` under
it, and of every request that is sent to the upstream in it: the credentials are those of `u`; every
other field is one of the client's that names addresses, and there is none if the address is hidden;
and otherwise the address of the client stands last in `Forwarded`, behind what the client had
there. -/
theorem upstream_learns {parse : GoString → Except GoString URL} {proxyURLStr : GoString} {u : URL}
    {c : HTTPConnectDialer} (hparse : parse proxyURLStr = .ok u)
    (hnew : newHTTPConnectDialer parse proxyURLStr = .ok c) {errors : Errors}
    {hostsMatch : Request → Bool} {h : Handler} {r : Request} {tr : List Exchange}
    {res : Request × Outcome} (hrun : Runs (serveHTTP errors c hostsMatch h r) tr res)
    {o : HttpClient.Op} {answer : HttpClient.Resp o}
    (hmem : (⟨.upstream o, answer⟩ : Exchange) ∈ tr) {req : ConnectRequest}
    (hsent : sent o = some req) : req.header.lookup (ascii "Proxy-Authorization") =
      (HttpClient.defaultHeader u.user).lookup (ascii "Proxy-Authorization") ∧
    (∀ key values, key ≠ ascii "Proxy-Authorization" → req.header.lookup key = some values →
      h.hideIP = false ∧ NamesAddress key) ∧
    (h.hideIP = false → req.header.lookup (ascii "Forwarded") =
      some ((r.header.lookup (ascii "Forwarded")).getD [] ++ [forwardedFor r])) := by
  obtain ⟨outer, houter, hexpands⟩ := runs_interp_iff.mp hrun
  obtain ⟨x, hx, piece, hpiece, hy⟩ := hexpands.mem hmem
  obtain ⟨address, hcarries⟩ :=
    ((follows_implementation (inContext_of_runs houter x hx)).of_runs hpiece).1 _ hy
  have hlookup : ∀ key, req.header.lookup key =
      (((contextHeader h r).getD []).lookup key).or
        ((HttpClient.defaultHeader u.user).lookup key) := by
    intro key
    rw [header_of_carries hcarries hsent, connectRequest, Header.lookup_overlay,
      Header.lookup_overlay, defaultHeader_of_newHTTPConnectDialer hparse hnew]
    congr 1
    exact Option.or_none
  refine ⟨?_, fun key values hkey hvalues => ?_, fun hide => ?_⟩
  · -- a field of the client in that place would have to name addresses
    rw [hlookup]
    cases hctx : ((contextHeader h r).getD []).lookup (ascii "Proxy-Authorization") with
    | none => rfl
    | some values => exact absurd (namesAddress_of_lookup hctx).2 (by decide)
  · rw [hlookup, lookup_defaultHeader hkey, Option.or_none] at hvalues
    exact namesAddress_of_lookup hvalues
  · rw [hlookup, lookup_contextHeader hide, if_pos rfl]
    rfl

/-! ### A run

The client sends credentials of its own and an address in `Forwarded`; the upstream has others. -/

/-- An upstream with credentials. -/
def upstreamURL : URL :=
  { scheme := ascii "https", host := ascii "upstream.example:443"
    user := some ⟨ascii "u", some (ascii "p")⟩ }

/-- The dialer for it. -/
def credentialedDialer : HTTPConnectDialer :=
  { scheme := ascii "https", host := ascii "upstream.example:443"
    defaultHeader := [(ascii "Proxy-Authorization", [ascii "Basic dTpw"])] }

/-- A CONNECT with credentials. -/
def credentialedTunnel : Request :=
  { tunnelTo with
    header :=
      [(ascii "Proxy-Authorization", [ascii "Basic eDp5"]), (ascii "Forwarded", [ascii "for=a"])]
    remoteAddr := ascii "b" }

/-- The header that the upstream gets. -/
def disclosed : Header :=
  [(ascii "Forwarded", [ascii "for=a", ascii "for=\"b\""]),
    (ascii "Proxy-Authorization", [ascii "Basic dTpw"])]

/-- The upstream refuses the tunnel. -/
def refusedTunnel : List Exchange :=
  [⟨.serve (.randIntn 32), (0 : ℕ)⟩, ⟨.serve .randUint64, (0 : UInt64)⟩,
    ⟨.serve .responseHeader, ([] : Header)⟩,
    ⟨.serve (.setResponseHeader (Header.set [] (ascii "Padding") (responsePadding 30 0))), ()⟩,
    ⟨.upstream .cached, none⟩,
    ⟨.upstream (.tlsDial (ascii "tcp") (ascii "upstream.example:443")), .ok 0⟩,
    ⟨.upstream (.handshake 0), none⟩, ⟨.upstream (.negotiated 0), ([] : GoString)⟩,
    ⟨.upstream (.write 0 ⟨ascii "target.example:443", disclosed, 1, 1⟩), none⟩,
    ⟨.upstream (.readResponse 0), .ok ⟨403, ascii "403 Forbidden"⟩⟩, ⟨.upstream (.close 0), none⟩,
    ⟨.ctxErr, none⟩]

theorem upstream_learns_refusedTunnel :
    (∃ res, Runs (serveHTTP ⟨fun _ => .canceled, fun _ => []⟩ credentialedDialer (fun _ => false)
      { upstream := some { user := upstreamURL.user } } credentialedTunnel) refusedTunnel res) ∧
      disclosed.lookup (ascii "Proxy-Authorization") = some [ascii "Basic dTpw"] := by
  have hrun : Runs (serveHTTP ⟨fun _ => .canceled, fun _ => []⟩ credentialedDialer (fun _ => false)
      { upstream := some { user := upstreamURL.user } } credentialedTunnel) refusedTunnel
      (credentialedTunnel, .ok (some (tcpDialError (.net .canceled)))) :=
    .op (.op (.op (.op (.op (.op (.op (.op (.op (.op (.op (.op (.ret _))))))))))))
  have hparse : (fun _ => .ok upstreamURL : GoString → Except GoString URL) [] = .ok upstreamURL :=
    rfl
  have hnew : newHTTPConnectDialer (fun _ => .ok upstreamURL) [] = .ok credentialedDialer := rfl
  have hmem : (⟨.upstream (.write 0 ⟨ascii "target.example:443", disclosed, 1, 1⟩), none⟩ :
      Exchange) ∈ refusedTunnel := by simp [refusedTunnel]
  have hlearns := upstream_learns hparse hnew hrun hmem rfl
  exact ⟨⟨_, hrun⟩, hlearns.1.trans (by decide +kernel)⟩

end Chain
end Serve
end ForwardProxy
