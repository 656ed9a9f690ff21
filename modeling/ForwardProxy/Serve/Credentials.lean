import ForwardProxy.Serve.ServeHTTP

/-!
# Who gets to see proxy credentials

A request that is sent on loses its `Proxy-Authorization` field with the other hop-by-hop
fields.  Over an upstream it then gets a new one, made from the user information of the upstream
URL.  But what the request is written to is the connection that the upstream dialer returns, and
that is a tunnel which ends at the target: the dialer has already presented these credentials to
the upstream when it asked for the tunnel.  So the target is what receives them.

`sentHeader` is the header of an operation that sends a request towards its target.  That no such
operation carries the field is a protocol for the program (`Clean`), and the proof goes through
the program part by part.

## Main results

* `credentials_stay_iff`: a request that is not a CONNECT carries no `Proxy-Authorization` to its
  target, whatever the network does, exactly when it is not proxied, or there is no upstream, or
  the URL of the upstream has no user information, or it has an empty user name and no password.
-/

namespace ForwardProxy
namespace Serve

open ForwardProxy.Core Prog

/-! ## What is sent -/

/-- The name of the field. -/
def proxyAuthorization : GoString := ascii "Proxy-Authorization"

/-- The header of a request that goes towards its target. -/
def sentHeader : Op → Option Header
  | .roundTrip r => some r.header
  | .writeRequest _ r => some r.header
  | _ => none

/-- The operation sends no proxy credentials. -/
def Clean (o : Op) : Prop :=
  ∀ header, sentHeader o = some header → ¬ header.Carries proxyAuthorization

/-- A program all of whose operations are clean. -/
abbrev KeepsClean {α : Type} (Q : α → Prop) (p : Prog Resp α) : Prop :=
  Follows (only Clean) (fun a _ => Q a) () p

/-! ## The request that is sent on -/

theorem not_carries_removeHopByHop {header : Header} (hc : header.Canonical) :
    ¬ (removeHopByHop header).Carries proxyAuthorization := by
  have hmem : ascii "Proxy-Authorization" ∈ hopByHopHeaders := by decide
  have hkey : canonicalHeaderKey (ascii "Proxy-Authorization") = proxyAuthorization := by decide
  have hdel := (hc.foldl_del trimSpace
    (split (header.get (ascii "Connection")) 44)).not_carries_foldl_del hmem
  rwa [hkey] at hdel

/-- A field that is added is not the one in question. -/
theorem not_carries_add {header : Header} {key value : GoString}
    (hkey : canonicalHeaderKey (canonicalHeaderKey key) ≠ proxyAuthorization)
    (hc : ¬ header.Carries proxyAuthorization) :
    ¬ (header.add key value).Carries proxyAuthorization := by
  rw [Header.add, Header.carries_insert_iff]
  rintro (h | h)
  · exact hkey h
  · exact hc h.of_remove

theorem not_carries_outgoing (h : Handler) {r : Request} (hc : r.header.Canonical) :
    ¬ (outgoing h r).header.Carries proxyAuthorization := by
  have hremoved := not_carries_removeHopByHop hc
  have hforwarded : canonicalHeaderKey (canonicalHeaderKey (ascii "Forwarded")) ≠
      proxyAuthorization := by decide
  have hvia : canonicalHeaderKey (canonicalHeaderKey (ascii "Via")) ≠ proxyAuthorization := by
    decide
  unfold outgoing
  generalize removeHopByHop r.header = header at hremoved ⊢
  dsimp only
  split_ifs
  · exact hremoved
  · exact not_carries_add hforwarded hremoved
  · exact not_carries_add hvia hremoved
  · exact not_carries_add hvia (not_carries_add hforwarded hremoved)

theorem header_withPort (r : Request) : (withPort r).header = r.header := by
  unfold withPort
  split_ifs <;> rfl

theorem carries_withCredentials {creds : GoString} (hcreds : creds ≠ []) (r : Request) :
    (withCredentials creds r).header.Carries proxyAuthorization := by
  rw [withCredentials, if_neg hcreds]
  exact Header.carries_insert_iff.mpr (Or.inl (by decide))

/-! ## The parts that send nothing -/

/-- The operation is one on the response writer, on a body or on the replacer. -/
def Local : Op → Prop
  | .setUserID _ => True
  | .responseHeader => True
  | .setResponseHeader _ => True
  | .writeHeader _ => True
  | .write _ => True
  | .readBody => True
  | .closeBody => True
  | .copyResponseBody => True
  | .closeResponseBody => True
  | _ => False

theorem Local.clean {o : Op} (ho : Local o) : Clean o := by
  cases o <;> first | exact absurd ho id | exact nofun

/-- The operation is one of those before a dial: on the replacer, on the header of the response, a
page, the next handler or a random number.  The one status among them is a 407. -/
def Preliminary : Op → Prop
  | .setUserID _ => True
  | .responseHeader => True
  | .setResponseHeader _ => True
  | .writeHeader statusCode => statusCode = 407
  | .write _ => True
  | .next _ => True
  | .randIntn _ => True
  | .randUint64 => True
  | _ => False

theorem Preliminary.clean {o : Op} (ho : Preliminary o) : Clean o := by
  cases o <;> first | exact absurd ho id | exact nofun

section Quiet

variable {α : Type} {P : Op → Prop} {Q : α → Unit → Prop}

theorem follows_modifyResponseHeader (hget : P .responseHeader)
    (hset : ∀ header, P (.setResponseHeader header)) (f : Header → Header)
    {k : Unit → Prog Resp α} (hk : Follows (only P) Q () (k ())) :
    Follows (only P) Q () (modifyResponseHeader f >>= k) :=
  ⟨hget, fun _ => ⟨hset _, fun _ => hk⟩⟩

theorem follows_serveHiddenPage (hP : ∀ o, Preliminary o → P o) (authErr : Option ServeError) :
    Follows (only P) (fun _ _ => True) () (serveHiddenPage authErr) := by
  have hset : ∀ header, P (.setResponseHeader header) := fun _ => hP _ trivial
  refine follows_modifyResponseHeader (hP _ trivial) hset _ ?_
  split_ifs
  · refine follows_modifyResponseHeader (hP _ trivial) hset _ ?_
    exact ⟨hP _ rfl, fun _ => ⟨hP _ trivial, fun _ => trivial⟩⟩
  · exact ⟨hP _ trivial, fun _ => trivial⟩

theorem follows_setNaivePaddingResponseHeaders (hP : ∀ o, Preliminary o → P o) (request : Header)
    (paddingType : PaddingVariant) :
    Follows (only P) (fun _ _ => True) () (setNaivePaddingResponseHeaders request paddingType) := by
  have hset : ∀ header, P (.setResponseHeader header) := fun _ => hP _ trivial
  refine ⟨hP _ trivial, fun _ => ⟨hP _ trivial, fun _ => ?_⟩⟩
  refine follows_modifyResponseHeader (hP _ trivial) hset _ ?_
  split_ifs
  · exact ⟨hP _ trivial, fun _ => ⟨hset _, fun _ => trivial⟩⟩
  · trivial

theorem follows_forwardResponse (hP : ∀ o, Local o → P o) (response : Response) :
    Follows (only P) (fun _ _ => True) () (forwardResponse response) := by
  have hset : ∀ header, P (.setResponseHeader header) := fun _ => hP _ trivial
  have hget : P .responseHeader := hP _ trivial
  refine follows_modifyResponseHeader hget hset _ (follows_modifyResponseHeader hget hset _
    (follows_modifyResponseHeader hget hset _ (follows_modifyResponseHeader hget hset _ ?_)))
  exact ⟨hP _ trivial, fun _ => ⟨hP _ trivial, fun _ => trivial⟩⟩

theorem follows_finish (hP : ∀ o, Local o → P o) (r : Request) (response : Option Response)
    (err : Option ServeError) : Follows (only P) (fun _ _ => True) () (finish r response err) := by
  have hclose : Follows (only P) (fun _ _ => True) () (closeBody r) := by
    unfold closeBody
    cases r.body with
    | absent => trivial
    | buffered data => trivial
    | stream => exact ⟨hP _ trivial, fun _ => trivial⟩
  refine follows_bind.mpr (hclose.mono ?_)
  rintro (panic | _ | err') _ -
  · trivial
  · rcases err with _ | err <;> rcases response with _ | response
    · trivial
    · refine follows_bind.mpr ((follows_forwardResponse hP response).mono ?_)
      exact fun _ _ _ => ⟨hP _ trivial, fun _ => trivial⟩
    · trivial
    · exact ⟨hP _ trivial, fun _ => trivial⟩
  · trivial

end Quiet

/-! ## The parts that send -/

section Sending

variable {P : Op → Prop} {r : Request}

theorem follows_sendDirect (hP : ∀ o, Local o → P o)
    (hsend : ∀ body, P (.roundTrip { r with body := body })) :
    Follows (only P) (fun _ _ => True) () (sendDirect r) := by
  unfold sendDirect
  split_ifs
  · refine ⟨hP _ trivial, ?_⟩
    rintro (err | data)
    · trivial
    · exact ⟨hsend (.buffered data), fun _ => trivial⟩
  · exact ⟨hsend r.body, fun _ => trivial⟩

theorem follows_sendUpstream {upstream : Upstream} {ctxHeader : Option Header}
    (hdial : P (.dialContext (ascii "tcp")
      (withPort (withCredentials (Userinfo.string upstream.user) r)).url.host ctxHeader))
    (hsend : ∀ conn,
      P (.writeRequest conn (withPort (withCredentials (Userinfo.string upstream.user) r))))
    (hread : ∀ conn, P (.readResponse conn)) (hostErr : Option ServeError) :
    Follows (only P) (fun _ _ => True) () (sendUpstream upstream hostErr ctxHeader r) := by
  unfold sendUpstream
  refine ⟨hdial, ?_⟩
  rintro ⟨_ | upsConn, _ | err⟩
  · trivial
  · trivial
  · refine ⟨hsend upsConn, ?_⟩
    rintro (_ | err)
    · refine ⟨hread upsConn, ?_⟩
      rintro (err | response) <;> trivial
    · trivial
  · trivial

/-- A request that is sent on, from the sending to the end. -/
theorem follows_servePlain (hP : ∀ o, Local o → P o) {h : Handler} {hostErr : Option ServeError}
    {ctxHeader : Option Header}
    (hsend : Follows (only P) (fun _ _ => True) () (send h hostErr ctxHeader r)) :
    Follows (only P) (fun _ _ => True) () (servePlain h hostErr ctxHeader r) := by
  refine follows_bind.mpr (hsend.mono ?_)
  rintro ⟨r', outcome | ⟨response, err⟩⟩ _ -
  · trivial
  · exact follows_bind.mpr ((follows_finish hP r' response err).mono fun _ _ _ => trivial)

end Sending

/-! ## Which requests are proxied -/

/-- What the authentication says. -/
def authError (h : Handler) (r : Request) : Outcome :=
  match h.authCredentials with
  | none => .ok none
  | some authCredentials => (checkCredentials authCredentials r).map Prod.snd

/-- The request is one for the hidden page. -/
def ForHiddenPage (h : Handler) (r : Request) : Prop :=
  h.probeResistance.isSome ∧ h.probeResistance ≠ some [] ∧
    h.probeResistance = some (requestHost r)

/-- The gate lets the request through, once it is authenticated. -/
def Passes (hostsMatch : Request → Bool) (h : Handler) (r : Request) : Prop :=
  ¬ ForHiddenPage h r ∧ (hostsMatch r = false ∨ r.method = ascii "CONNECT") ∧
    (r.protoMajor = 1 ∨ r.protoMajor = 2 ∨ r.protoMajor = 3)

/-- A request that is not a CONNECT is proxied: it is authenticated, it is neither for the hidden
page nor for the proxy's own host names, and its version is supported. -/
def Proxied (hostsMatch : Request → Bool) (h : Handler) (r : Request) : Prop :=
  authError h r = .ok none ∧ ¬ ForHiddenPage h r ∧ hostsMatch r = false ∧
    (r.protoMajor = 1 ∨ r.protoMajor = 2 ∨ r.protoMajor = 3)

/-- The credentials that the code reads off the upstream URL; empty if there are none. -/
def upstreamCredentials (h : Handler) : GoString :=
  match h.upstream with
  | some upstream => Userinfo.string upstream.user
  | none => []

/-- There is an upstream, and its URL names a user or sets a password, be it an empty one. -/
def UpstreamNamesUser (h : Handler) : Prop :=
  ∃ upstream user, h.upstream = some upstream ∧ upstream.user = some user ∧
    (user.username ≠ [] ∨ user.password ≠ none)

theorem upstreamCredentials_ne_nil_iff {h : Handler} :
    upstreamCredentials h ≠ [] ↔ UpstreamNamesUser h := by
  unfold upstreamCredentials UpstreamNamesUser
  rcases h.upstream with _ | ⟨_ | ⟨username, password⟩⟩
  · simp
  · simp [Userinfo.string]
  · simp [Userinfo.string_eq_nil_iff, imp_iff_not_or]

section Program

variable {hostsMatch : Request → Bool} {h : Handler} {r : Request}

theorem keepsClean_authenticate (h : Handler) (r : Request) :
    KeepsClean (fun a => a = authError h r) (authenticate h r) := by
  unfold authenticate authError
  cases h.authCredentials with
  | none => rfl
  | some authCredentials =>
    dsimp only
    generalize checkCredentials authCredentials r = verdict
    rcases verdict with panic | ⟨_ | id, err⟩
    · exact follows_ret.mpr rfl
    · exact follows_ret.mpr rfl
    · exact ⟨nofun, fun _ => follows_ret.mpr rfl⟩

/-- Behind the gate are the requests that are authenticated and pass it. -/
theorem follows_gate {P : Op → Prop} (hP : ∀ o, Preliminary o → P o)
    (authErr : Option ServeError) :
    Follows (only P) (fun res _ => res = none → authErr = none ∧ Passes hostsMatch h r) ()
      (gate hostsMatch h r authErr) := by
  unfold gate Passes ForHiddenPage
  by_cases hhidden : h.probeResistance.isSome ∧ h.probeResistance ≠ some [] ∧
      h.probeResistance = some (requestHost r)
  · rw [if_pos hhidden]
    refine follows_bind.mpr ((follows_serveHiddenPage hP authErr).mono ?_)
    exact fun _ _ _ => nofun
  rw [if_neg hhidden]
  refine .ite (fun _ => ?_) fun hown => ?_
  · -- the exception for the proxy's own host names: the PAC file or the next handler
    exact .ite (fun _ => ⟨hP _ trivial, fun _ => nofun⟩) fun _ => ⟨hP _ trivial, fun _ => nofun⟩
  rcases authErr with _ | err
  · show Follows _ _ _ (if _ then _ else _)
    split_ifs with hversion
    · exact nofun
    · refine fun _ => ⟨rfl, hhidden, ?_, by omega⟩
      simpa [imp_iff_not_or] using hown
  · show Follows _ _ _ (if _ then _ else _)
    split_ifs
    · exact ⟨hP _ trivial, fun _ => nofun⟩
    · exact follows_modifyResponseHeader (hP _ trivial) (fun _ => hP _ trivial) _ nofun

/-- A request that is authenticated and passes does so in silence. -/
theorem gate_eq_ret (hpasses : Passes hostsMatch h r) :
    gate hostsMatch h r none = .ret none := by
  obtain ⟨hhidden, hown, hversion⟩ := hpasses
  unfold ForHiddenPage at hhidden
  unfold gate
  rw [if_neg hhidden, if_neg (by simpa [imp_iff_not_or] using hown)]
  exact if_neg (by omega)

theorem keepsClean_servePlain (hcreds : upstreamCredentials h = []) (hc : r.header.Canonical)
    (hostErr : Option ServeError) (ctxHeader : Option Header) :
    KeepsClean (fun _ => True) (servePlain h hostErr ctxHeader r) := by
  have hclean := not_carries_outgoing h hc
  refine follows_servePlain (fun _ => Local.clean) ?_
  unfold send
  cases hup : h.upstream with
  | none =>
    refine follows_sendDirect (fun _ => Local.clean) ?_
    rintro body header ⟨⟩
    exact hclean
  | some upstream =>
    refine follows_sendUpstream nofun ?_ (fun _ => nofun) hostErr
    rintro conn header ⟨⟩
    have hstring : Userinfo.string upstream.user = [] := by
      simpa [upstreamCredentials, hup] using hcreds
    rw [header_withPort, withCredentials, if_pos hstring]
    exact hclean

/-- Without upstream credentials, or if the request is not proxied, nothing is given away. -/
theorem keepsClean_serveHTTP (hmethod : r.method ≠ ascii "CONNECT") (hc : r.header.Canonical)
    (hsafe : ¬ (Proxied hostsMatch h r ∧ upstreamCredentials h ≠ [])) :
    KeepsClean (fun _ => True) (serveHTTP hostsMatch h r) := by
  refine follows_bind.mpr ((keepsClean_authenticate h r).mono ?_)
  rintro (panic | authErr) _ hauth
  · trivial
  · refine follows_bind.mpr ((follows_gate (fun _ => Preliminary.clean) authErr).mono ?_)
    rintro (_ | err) _ hgate
    · obtain ⟨rfl, hhidden, hown, hversion⟩ := hgate rfl
      have hcreds : upstreamCredentials h = [] := by
        by_contra hne
        exact hsafe ⟨⟨hauth.symm, hhidden, hown.resolve_right hmethod, hversion⟩, hne⟩
      show KeepsClean _ (if _ then _ else _)
      rw [if_neg hmethod]
      exact keepsClean_servePlain hcreds hc _ _
    · trivial

/-! ## A run that gives the credentials away -/

theorem exists_runs_authenticate (h : Handler) (r : Request) :
    ∃ tr, Runs (authenticate h r) tr (authError h r) := by
  unfold authenticate authError
  cases h.authCredentials with
  | none => exact ⟨[], .ret _⟩
  | some authCredentials =>
    dsimp only
    generalize checkCredentials authCredentials r = verdict
    rcases verdict with panic | ⟨_ | id, err⟩
    · exact ⟨[], .ret _⟩
    · exact ⟨[], .ret _⟩
    · exact ⟨[⟨.setUserID id, ()⟩], .op (.ret _)⟩

theorem runs_gate (hp : Proxied hostsMatch h r) : Runs (gate hostsMatch h r none) [] none := by
  obtain ⟨-, hhidden, hmatch, hversion⟩ := hp
  rw [gate_eq_ret ⟨hhidden, .inl hmatch, hversion⟩]
  exact .ret _

/-- The upstream dialer returns a connection, and the request is written to it. -/
theorem exists_runs_servePlain (hcreds : upstreamCredentials h ≠ [])
    (hostErr : Option ServeError) (ctxHeader : Option Header) (r : Request) :
    ∃ tr res, Runs (servePlain h hostErr ctxHeader r) tr res ∧
      ∃ x ∈ tr, sentHeader x.1 =
        some (withCredentials (upstreamCredentials h) (outgoing h r)).header := by
  obtain ⟨upstream, hup⟩ : ∃ upstream, h.upstream = some upstream := by
    cases hup : h.upstream with
    | none => simp [upstreamCredentials, hup] at hcreds
    | some upstream => exact ⟨upstream, rfl⟩
  have hstring : upstreamCredentials h = Userinfo.string upstream.user := by
    simp [upstreamCredentials, hup]
  have hheader : sentHeader (.writeRequest 0
      (withPort (withCredentials (Userinfo.string upstream.user) (outgoing h r)))) =
      some (withCredentials (upstreamCredentials h) (outgoing h r)).header := by
    rw [sentHeader, header_withPort, hstring]
  generalize hr' : withPort (withCredentials (Userinfo.string upstream.user) (outgoing h r)) = r'
    at hheader
  have hsend : Runs (send h hostErr ctxHeader r)
      [⟨.dialContext (ascii "tcp") r'.url.host ctxHeader, (some 0, none)⟩,
        ⟨.writeRequest 0 r', some { text := [] }⟩]
      (r', .error (.ok (some (handlerError 502
        (ascii "failed to write upstream request: " ++ []))))) := by
    unfold send sendUpstream
    rw [hup]
    dsimp only
    rw [hr']
    refine Runs.op ?_
    show Runs (.op (Op.writeRequest 0 r') _) _ _
    refine Runs.op ?_
    exact .ret _
  refine ⟨_, _, runs_bind_iff.mpr ⟨_, [], _, (List.append_nil _).symm, hsend, .ret _⟩, _,
    List.mem_cons_of_mem _ List.mem_cons_self, hheader⟩

theorem exists_runs_serveHTTP (hmethod : r.method ≠ ascii "CONNECT")
    (hp : Proxied hostsMatch h r) (hcreds : upstreamCredentials h ≠ []) :
    ∃ tr res, Runs (serveHTTP hostsMatch h r) tr res ∧
      ∃ x ∈ tr, sentHeader x.1 =
        some (withCredentials (upstreamCredentials h) (outgoing h r)).header := by
  obtain ⟨trAuth, hauth⟩ := exists_runs_authenticate h r
  rw [hp.1] at hauth
  obtain ⟨tr, res, hplain, x, hx, hheader⟩ :=
    exists_runs_servePlain hcreds (hostError r) (contextHeader h r) r
  refine ⟨trAuth ++ ([] ++ tr), res, ?_, x, by simp [hx], hheader⟩
  refine runs_bind_iff.mpr ⟨trAuth, [] ++ tr, _, rfl, hauth, ?_⟩
  refine runs_bind_iff.mpr ⟨[], tr, _, rfl, runs_gate hp, ?_⟩
  show Runs (if _ then _ else _) tr res
  rw [if_neg hmethod]
  exact hplain

end Program

/-- **Proxy credentials and the target.**  A request that is not a CONNECT carries no
`Proxy-Authorization` field on the connection to its target, in any run, exactly when it is not
proxied or the upstream URL names no user and sets no password. -/
theorem credentials_stay_iff (hostsMatch : Request → Bool) (h : Handler) {r : Request}
    (hmethod : r.method ≠ ascii "CONNECT") (hc : r.header.Canonical) :
    (∀ tr res, Runs (serveHTTP hostsMatch h r) tr res → ∀ x ∈ tr, ∀ header,
      sentHeader x.1 = some header → ¬ header.Carries proxyAuthorization) ↔
      ¬ (Proxied hostsMatch h r ∧ UpstreamNamesUser h) := by
  rw [← upstreamCredentials_ne_nil_iff]
  constructor
  · rintro hclean ⟨hp, hcreds⟩
    obtain ⟨tr, res, hrun, x, hx, hheader⟩ := exists_runs_serveHTTP hmethod hp hcreds
    exact hclean tr res hrun x hx _ hheader (carries_withCredentials hcreds _)
  · intro hsafe tr res hrun x hx
    exact ((keepsClean_serveHTTP hmethod hc hsafe).of_runs hrun).1 x hx

/-- An upstream with a user and a password. -/
def credentialedHandler : Handler :=
  { upstream := some { user := some ⟨ascii "user", some (ascii "pass")⟩ } }

/-- A request for a page, with credentials for this proxy. -/
def pageRequest : Request where
  method := ascii "GET"
  url := { scheme := ascii "http", host := ascii "target.example", path := ascii "/" }
  proto := ascii "HTTP/1.1"
  protoMajor := 1
  protoMinor := 1
  host := ascii "target.example"
  header := [(ascii "Accept", [ascii "*/*"]), (ascii "Proxy-Authorization", [ascii "Basic eA=="])]

theorem proxied_pageRequest : Proxied (fun _ => false) credentialedHandler pageRequest :=
  ⟨rfl, by simp [ForHiddenPage, credentialedHandler], rfl, Or.inl rfl⟩

theorem credentials_stay_iff_direct :
    pageRequest.header.Carries proxyAuthorization ∧
      ∀ tr res, Runs (serveHTTP (fun _ => false) {} pageRequest) tr res → ∀ x ∈ tr, ∀ header,
        sentHeader x.1 = some header → ¬ header.Carries proxyAuthorization := by
  have hc : pageRequest.header.Canonical := by
    unfold Header.Canonical pageRequest
    decide
  have hcarries : pageRequest.header.Carries proxyAuthorization := by
    unfold Header.Carries pageRequest
    decide
  refine ⟨hcarries, (credentials_stay_iff (fun _ => false) {} (by decide) hc).mpr ?_⟩
  rintro ⟨-, upstream, user, hup, -⟩
  exact absurd hup (by simp)

/-- The target of the request receives the user name and the password of the upstream. -/
theorem pageRequest_leaks :
    ∃ tr res, Runs (serveHTTP (fun _ => false) credentialedHandler pageRequest) tr res ∧
      ∃ x ∈ tr, ∃ header, sentHeader x.1 = some header ∧
        header.lookup proxyAuthorization = some [ascii "Basic dXNlcjpwYXNz"] := by
  have hmethod : pageRequest.method ≠ ascii "CONNECT" := by decide
  have hcreds : upstreamCredentials credentialedHandler ≠ [] := by decide +kernel
  obtain ⟨tr, res, hrun, x, hx, hheader⟩ :=
    exists_runs_serveHTTP hmethod proxied_pageRequest hcreds
  have hlookup : (withCredentials (upstreamCredentials credentialedHandler)
      (outgoing credentialedHandler pageRequest)).header.lookup proxyAuthorization =
        some [ascii "Basic dXNlcjpwYXNz"] := by decide +kernel
  exact ⟨tr, res, hrun, x, hx, _, hheader, hlookup⟩

end Serve
end ForwardProxy
