import ForwardProxy.HttpClient.Provenance
import ForwardProxy.Setup.Provision

/-!
# The upstream dialer of a handler (`forwardproxy.go`)

`Provision` makes the dialer for an upstream in a roundabout way.  It registers a function under the
schemes `http` and `https` in a table that the whole process shares, and then asks `proxy.FromURL`
for a dialer, which looks the scheme up in that table.  The function that is registered does not
look at the URL it is given: it prints the URL of its own handler, and `NewHTTPConnectDialer` parses
the text again.  For an HTTPS upstream on the local host it sets `DialTLS`, which does not verify
certificates.

The package `proxy` is not part of the repository.  `FromURL` is a parameter here, a function of the
calls of `RegisterDialerType` that were made before, and what is used of it is a hypothesis
(`UsesRegistered`).

Whatever other handlers have registered before, the dialer is that of the handler's own URL
(`provisionDialer_eq_ok`).  Unless the check of `Provision` is switched off, an upstream that is not
on the local host is spoken to over verified TLS only: no CONNECT request, with the credentials in
it, and no tunnel is ever on another connection, in any interleaving of calls that share the cached
one (`upstream_private`).
-/

namespace ForwardProxy
namespace Setup

open ForwardProxy.Core
open HttpClient (HTTPConnectDialer newHTTPConnectDialer Event Op)

/-! ## The code -/

/-- The functions of `net/url` that are used. -/
structure URLs where
  /-- `url.Parse`. -/
  parse : GoString → Except GoString URL
  /-- `URL.String`. -/
  string : URL → GoString

/-- What `proxy.FromURL` returns: a dialer that a registered function made, or one of its own. -/
inductive UpstreamDialer where
  | connect (d : HTTPConnectDialer)
  | builtIn (id : ℕ)

/-- A call of `proxy.RegisterDialerType`. -/
structure Registration where
  scheme : GoString
  dialer : URL → Except GoString HTTPConnectDialer

/-- `proxy.FromURL`, behind these registrations. -/
abbrev FromURL := List Registration → URL → Except GoString UpstreamDialer

/-- The schemes that `FromURL` knows by itself. -/
def builtInSchemes : List GoString := [ascii "socks5", ascii "socks5h"]

/-- `FromURL` calls the function that was registered last for the scheme of the URL, unless the
scheme is built in. -/
def UsesRegistered (fromURL : FromURL) : Prop :=
  ∀ before reg behind u, u.scheme = reg.scheme → u.scheme ∉ builtInSchemes →
    (∀ later ∈ behind, later.scheme ≠ u.scheme) →
      fromURL (before ++ reg :: behind) u = (reg.dialer u).map .connect

/-- `registerHTTPDialer` of a handler with this upstream; the argument is not used. -/
def registerHTTPDialer (urls : URLs) (upstream : URL) (_ : URL) :
    Except GoString HTTPConnectDialer := do
  let d ← newHTTPConnectDialer urls.parse (urls.string upstream)
  return if isLocalhost upstream.hostname ∧ upstream.scheme = ascii "https" then
      { d with hasDialTLS := true }
    else d

/-- The registrations of a handler with this upstream. -/
def registrations (urls : URLs) (upstream : URL) : List Registration :=
  [⟨ascii "https", registerHTTPDialer urls upstream⟩,
    ⟨ascii "http", registerHTTPDialer urls upstream⟩]

/-- The part of `Provision` about the upstream: the registrations it leaves, and the URL with the
dialer. -/
def provisionDialer (urls : URLs) (fromURL : FromURL) (registered : List Registration)
    (cfg : Config) : List Registration × Except GoString (Option (URL × UpstreamDialer)) :=
  if cfg.upstream = [] then (registered, .ok none)
  else match urls.parse cfg.upstream with
    | .error err => (registered, .error (ascii "bad upstream URL: " ++ err))
    | .ok url =>
      if !cfg.disableInsecureUpstreamsCheck && !isLocalhost url.hostname &&
          url.scheme ≠ ascii "https" then
        (registered, .error (ascii "insecure schemes are only allowed to localhost upstreams"))
      else
        let registered := registered ++ registrations urls url
        match fromURL registered url with
        | .error err => (registered, .error (ascii "failed to create proxy to upstream: " ++ err))
        | .ok dialer => (registered, .ok (some (url, dialer)))

/-- `provisionUpstream` is this without the dialer. -/
theorem provisionUpstream_eq (urls : URLs) (fromURL : FromURL) (registered : List Registration)
    (cfg : Config) (metricsError : Option GoString) :
    provisionUpstream ⟨metricsError, urls.parse, fun url =>
        match fromURL (registered ++ registrations urls url) url with
        | .error err => some err
        | .ok _ => none⟩ cfg =
      (provisionDialer urls fromURL registered cfg).2.map
        (Option.map fun p => { user := p.1.user }) := by
  unfold provisionUpstream provisionDialer
  split_ifs
  · rfl
  dsimp only
  rcases urls.parse cfg.upstream with err | url
  · rfl
  dsimp only
  split_ifs
  · rfl
  rcases fromURL (registered ++ registrations urls url) url with err | dialer
  · rfl
  · rfl

/-! ## Which dialer it is -/

/-- The address that a URL without a port is completed to. -/
def withDefaultPort (u : URL) (port : GoString) : GoString :=
  if u.port = [] then joinHostPort u.host port else u.host

/-- What `NewHTTPConnectDialer` makes of an HTTPS URL. -/
theorem newHTTPConnectDialer_https {parse : GoString → Except GoString URL} {proxyURLStr : GoString}
    {d : HTTPConnectDialer} (h : newHTTPConnectDialer parse proxyURLStr = .ok d)
    (hscheme : ∀ u, parse proxyURLStr = .ok u → u.scheme = ascii "https") :
    ∃ u, parse proxyURLStr = .ok u ∧ d.scheme = ascii "https" ∧
      d.host = withDefaultPort u (ascii "443") ∧ d.hasDialTLS = false := by
  obtain ⟨u, hparse, hnew⟩ := Result.bind_eq_ok_iff.mp h
  have hhttps := hscheme u hparse
  have hhttp : ¬ u.scheme = ascii "http" := by
    rw [hhttps]
    decide
  by_cases hhost : u.host = []
  · rw [if_pos hhost] at hnew
    cases hnew
  · rw [if_neg hhost, if_neg hhttp, if_pos hhttps] at hnew
    rw [← Except.ok.inj hnew]
    exact ⟨u, hparse, hhttps, rfl, rfl⟩

section Provisioned

variable {urls : URLs} {fromURL : FromURL} {registered : List Registration} {cfg : Config}
  {url : URL} {dialer : UpstreamDialer}

/-- A handler that has an upstream has passed the check, and its dialer is what `FromURL`
returned. -/
theorem provisionDialer_eq_ok
    (h : (provisionDialer urls fromURL registered cfg).2 = .ok (some (url, dialer))) :
    urls.parse cfg.upstream = .ok url ∧
      (cfg.disableInsecureUpstreamsCheck = true ∨ isLocalhost url.hostname = true ∨
        url.scheme = ascii "https") ∧
      fromURL (registered ++ registrations urls url) url = .ok dialer := by
  unfold provisionDialer at h
  split_ifs at h
  · cases h
  cases hparse : urls.parse cfg.upstream with
  | error err =>
    rw [hparse] at h
    cases h
  | ok u =>
    rw [hparse] at h
    dsimp only at h
    split_ifs at h with hinsecure
    cases hfrom : fromURL (registered ++ registrations urls u) u with
    | error err =>
      rw [hfrom] at h
      cases h
    | ok d =>
      rw [hfrom] at h
      cases h
      refine ⟨rfl, ?_, hfrom⟩
      simp only [Bool.and_eq_true, Bool.not_eq_true', decide_eq_true_eq, not_and,
        not_not] at hinsecure
      by_cases hoff : cfg.disableInsecureUpstreamsCheck = true
      · exact .inl hoff
      by_cases hlocal : isLocalhost url.hostname = true
      · exact .inr (.inl hlocal)
      · exact .inr (.inr (hinsecure ⟨Bool.eq_false_iff.mpr hoff, Bool.eq_false_iff.mpr hlocal⟩))

/-- For an HTTPS upstream, `FromURL` calls the function of this handler, whatever was registered
before. -/
theorem fromURL_registrations (huses : UsesRegistered fromURL)
    (hscheme : url.scheme = ascii "https") : fromURL (registered ++ registrations urls url) url =
      (registerHTTPDialer urls url url).map .connect := by
  refine huses registered ⟨ascii "https", registerHTTPDialer urls url⟩ _ url hscheme ?_ ?_
  · rw [hscheme]
    decide
  · intro later hlater
    rw [List.mem_singleton.mp hlater, hscheme]
    show ascii "http" ≠ ascii "https"
    decide

/-- The dialer for an HTTPS upstream elsewhere. -/
theorem dialer_of_remote (huses : UsesRegistered fromURL) (hscheme : url.scheme = ascii "https")
    (hremote : isLocalhost url.hostname = false)
    (hreparse : ∀ url', urls.parse (urls.string url) = .ok url' →
      url'.scheme = url.scheme ∧ url'.host = url.host)
    (h : fromURL (registered ++ registrations urls url) url = .ok dialer) :
    ∃ c, dialer = .connect c ∧ c.scheme = ascii "https" ∧
      c.host = withDefaultPort url (ascii "443") ∧ c.hasDialTLS = false := by
  rw [fromURL_registrations huses hscheme] at h
  obtain ⟨c, hc, rfl⟩ := Result.map_eq_ok_iff.mp h
  obtain ⟨d, hd, hret⟩ := Result.bind_eq_ok_iff.mp hc
  have hlocal : ¬ (isLocalhost url.hostname = true ∧ url.scheme = ascii "https") := by
    rw [hremote]
    simp
  rw [if_neg hlocal] at hret
  obtain rfl := Except.ok.inj hret
  obtain ⟨u, hparse, hhttps, hhost, hset⟩ :=
    newHTTPConnectDialer_https hd fun u hu => (hreparse u hu).1.trans hscheme
  refine ⟨d, rfl, hhttps, ?_, hset⟩
  rw [hhost, withDefaultPort, withDefaultPort, URL.port, URL.port, (hreparse u hparse).2]

end Provisioned

/-! ## What it speaks over -/

/-- The raw connection was made by a TLS dial to this address whose handshake succeeded. -/
def OverTLS (address : GoString) (es : List Event) (rawConn : ℕ) : Prop :=
  ∃ i network, .perform i ⟨.tlsDial network address, .ok rawConn⟩ ∈ es ∧
    .perform i ⟨.handshake rawConn, none⟩ ∈ es

theorem mem_of_mem_historyOf {es : List Event} {i : ℕ} {x : HttpClient.Exchange}
    (h : x ∈ HttpClient.historyOf es i) : .perform i x ∈ es := by
  obtain ⟨e, he, hx⟩ := List.mem_filterMap.mp h
  cases e with
  | call j network address ctxHeader => cases hx
  | closeTunnel j => cases hx
  | perform j y =>
    simp only [Event.exchange, Option.ite_none_right_eq_some, Option.some.injEq] at hx
    obtain ⟨rfl, rfl⟩ := hx
    exact he

/-- Without `DialTLS` an HTTPS dialer makes connections by `tls.Dial` only. -/
theorem overTLS_of_madeIn {c : HTTPConnectDialer} (hscheme : c.scheme = ascii "https")
    (hset : c.hasDialTLS = false) {es : List Event} {rawConn : ℕ}
    (h : HttpClient.MadeIn c es rawConn) : OverTLS c.host es rawConn := by
  obtain ⟨i, hmade⟩ := h
  cases hmade with
  | plain hhttp hdial =>
    rw [hscheme] at hhttp
    exact absurd hhttp (by decide)
  | dialTLS hhttps hset' hdial => exact absurd (hset.symm.trans hset') (by decide)
  | @tls network hhttps hset' hdial hhandshake =>
    exact ⟨i, network, mem_of_mem_historyOf hdial, mem_of_mem_historyOf hhandshake⟩

/-- **An upstream elsewhere is spoken to over TLS only.**  For every accepted configuration with the
check of insecure upstreams on, and an upstream that is not on the local host, whatever other
handlers have registered before: in every interleaving of calls of the handler's dialer, an
operation that sends a CONNECT request, reads its answer or fills the cache does so over a
connection to the address of the upstream on which a verified TLS handshake had succeeded before,
and so is every live tunnel. -/
theorem upstream_private {urls : URLs} {fromURL : FromURL} (huses : UsesRegistered fromURL)
    {registered : List Registration} {cfg : Config} {url : URL} {dialer : UpstreamDialer}
    (hprov : (provisionDialer urls fromURL registered cfg).2 = .ok (some (url, dialer)))
    (hreparse : ∀ url', urls.parse (urls.string url) = .ok url' →
      url'.scheme = url.scheme ∧ url'.host = url.host)
    (hcheck : cfg.disableInsecureUpstreamsCheck = false)
    (hremote : isLocalhost url.hostname = false) :
    ∃ c, dialer = .connect c ∧ c.host = withDefaultPort url (ascii "443") ∧
      ∀ es s, runFrom (HttpClient.step c) {} es = some s →
        (∀ pre i o answer post rawConn, es = pre ++ .perform i ⟨o, answer⟩ :: post →
          Op.over o = some rawConn → OverTLS c.host pre rawConn) ∧
        ∀ i tunnel, s.live i = some tunnel → OverTLS c.host es tunnel.rawConn := by
  obtain ⟨-, hsecure, hfrom⟩ := provisionDialer_eq_ok hprov
  have hscheme : url.scheme = ascii "https" := by
    rcases hsecure with hoff | hlocal | hscheme
    · exact absurd (hcheck.symm.trans hoff) (by decide)
    · exact absurd (hremote.symm.trans hlocal) (by decide)
    · exact hscheme
  obtain ⟨c, rfl, hhttps, hhost, hset⟩ := dialer_of_remote huses hscheme hremote hreparse hfrom
  refine ⟨c, rfl, hhost, fun es s hrun => ⟨?_, fun i tunnel hlive => ?_⟩⟩
  · rintro pre i o answer post rawConn rfl hover
    exact overTLS_of_madeIn hhttps hset (HttpClient.made_of_speaks hrun hover)
  · exact overTLS_of_madeIn hhttps hset ((HttpClient.traced_of_run hrun).live i tunnel hlive)

/-- An upstream with a name. -/
def namedUpstream : URL := { scheme := ascii "https", host := ascii "upstream.example" }

/-- One call makes an HTTP/2 connection and caches it, another one finds it there. -/
def reusedConnection : List Event :=
  [.call 0 (ascii "tcp") (ascii "a.example:443") none, .perform 0 ⟨.cached, none⟩,
    .perform 0 ⟨.tlsDial (ascii "tcp") (ascii "upstream.example:443"), .ok 0⟩,
    .perform 0 ⟨.handshake 0, none⟩, .perform 0 ⟨.negotiated 0, ascii "h2"⟩,
    .perform 0 ⟨.newClientConn 0, none⟩,
    .perform 0 ⟨.roundTrip 0 ⟨ascii "a.example:443", [], 2, 0⟩, .ok ⟨200, []⟩⟩,
    .perform 0 ⟨.setCached 0, ()⟩,
    .call 1 (ascii "tcp") (ascii "b.example:443") none, .perform 1 ⟨.cached, some (0, true)⟩]

/-- A `FromURL` that looks for the last registration. -/
def lastRegistered : FromURL := fun registered u =>
  if builtInSchemes.contains u.scheme then .ok (.builtIn 0)
  else match registered.reverse.find? fun reg => decide (u.scheme = reg.scheme) with
    | some reg => (reg.dialer u).map .connect
    | none => .error (ascii "proxy: unknown scheme: " ++ u.scheme)

theorem usesRegistered_lastRegistered : UsesRegistered lastRegistered := by
  intro before reg behind u hscheme hbuiltIn hbehind
  have hfind : (before ++ reg :: behind).reverse.find? (fun reg => decide (u.scheme = reg.scheme)) =
      some reg := by
    rw [List.reverse_append, List.reverse_cons, List.append_assoc, List.find?_append,
      List.find?_eq_none.mpr fun later hlater => ?_]
    · simp [hscheme]
    · simpa using (hbehind later (List.mem_reverse.mp hlater)).symm
  rw [lastRegistered, if_neg (by simpa using hbuiltIn), hfind]

/-- Another handler in the process has its own upstream. -/
theorem upstream_private_reusedConnection :
    ∃ c : HTTPConnectDialer,
      (runFrom (HttpClient.step c) {} (reusedConnection ++
        [.perform 1 ⟨.roundTrip 0 ⟨ascii "b.example:443", [], 2, 0⟩, .ok ⟨200, []⟩⟩])).isSome =
        true ∧
      OverTLS c.host reusedConnection 0 := by
  have hprov : (provisionDialer ⟨fun _ => .ok namedUpstream, fun _ => []⟩ lastRegistered
      [⟨ascii "https", fun _ => .error []⟩] { upstream := ascii "https://upstream.example" }).2 =
      .ok (some (namedUpstream, .connect
        ⟨ascii "https", ascii "upstream.example:443", [], false, true⟩)) := rfl
  obtain ⟨c, hc, -, hruns⟩ := upstream_private usesRegistered_lastRegistered hprov
    (fun url' hurl => Except.ok.inj hurl ▸ ⟨rfl, rfl⟩) rfl (by decide)
  obtain rfl := UpstreamDialer.connect.inj hc
  have hsome :
      (runFrom (HttpClient.step ⟨ascii "https", ascii "upstream.example:443", [], false, true⟩) {}
        (reusedConnection ++
          [.perform 1 ⟨.roundTrip 0 ⟨ascii "b.example:443", [], 2, 0⟩, .ok ⟨200, []⟩⟩])).isSome =
        true := by
    decide +kernel
  obtain ⟨s, hrun⟩ := Option.isSome_iff_exists.mp hsome
  exact ⟨_, hsome, (hruns _ s hrun).1 _ 1 _ _ [] 0 rfl rfl⟩

end Setup
end ForwardProxy
