import ForwardProxy.Core.URLHost
import ForwardProxy.HttpClient.Dialer
import ForwardProxy.Serve.Passage

/-!
# The default port

A URL need not have a port, and there are two places where the proxy adds one before it dials:
`NewHTTPConnectDialer` for the URL of the upstream proxy, and `ServeHTTP` for the URL of a plain
request that goes through an upstream.  Both join `URL.Host` and the default, where `URL.Host` is
the text with the brackets of an IPv6 literal and with the colon of an empty port.  The address that
comes out then is not that of the host: `[::1]` becomes `[[::1]]:80`, and `example.com:` becomes
`[example.com:]:80`.
-/

namespace ForwardProxy
namespace Serve

open ForwardProxy.Core Prog HttpClient

/-- The port of a URL, or a default where it is missing or empty. -/
def portOr (u : URL) (defaultPort : GoString) : GoString :=
  if u.port = [] then defaultPort else u.port

/-- The default port of a scheme. -/
def schemePort (scheme : GoString) : GoString :=
  if scheme = ascii "https" then ascii "443" else ascii "80"

/-- The address keeps the host: it splits into the host name of the URL and its port. -/
def KeepsHost (u : URL) (defaultPort address : GoString) : Prop :=
  splitHostPort address = .ok (u.hostname, portOr u defaultPort)

/-- The address that both places make. -/
theorem keepsHost_iff {t : URLHost} {u : URL} (hu : u.host = t.text) {defaultPort : GoString}
    (hdefault : PortText defaultPort) :
    KeepsHost u defaultPort (if u.port = [] then joinHostPort u.host defaultPort else u.host) ↔
      t.Splits := by
  have hsplit : splitURLHostPort u.host = (t.name, t.port.getD []) := by
    rw [hu, t.splitURLHostPort_text]
  have hport : u.port = t.port.getD [] := by rw [URL.port, hsplit]
  have hname : u.hostname = t.name := by rw [URL.hostname, hsplit]
  rw [KeepsHost, portOr, hport, hname, hu]
  exact t.splitHostPort_address_iff hdefault

/-! ## The upstream proxy -/

theorem exists_newHTTPConnectDialer {parse : GoString → Except GoString URL}
    {proxyURLStr : GoString} {u : URL} (hparse : parse proxyURLStr = .ok u) (hne : u.host ≠ [])
    (hscheme : u.scheme = ascii "http" ∨ u.scheme = ascii "https") :
    ∃ c, newHTTPConnectDialer parse proxyURLStr = .ok c ∧
      c.host = if u.port = [] then joinHostPort u.host (schemePort u.scheme) else u.host := by
  unfold newHTTPConnectDialer schemePort
  rw [hparse]
  rcases hscheme with hscheme | hscheme
  · refine ⟨_, (if_neg hne).trans (if_pos hscheme), ?_⟩
    rw [hscheme, if_neg (show ascii "http" ≠ ascii "https" by decide)]
  · have hhttp : ¬ u.scheme = ascii "http" := by rw [hscheme]; decide
    refine ⟨_, (if_neg hne).trans ((if_neg hhttp).trans (if_pos hscheme)), ?_⟩
    rw [if_pos hscheme]

/-! ## A plain request -/

/-- A dial of the upstream dialer, if it is one, has this address. -/
def DialsOnly (address : GoString) : Op → Prop
  | .dialContext _ address' _ => address' = address
  | _ => True

theorem Local.dialsOnly {o : Op} (ho : Local o) (address : GoString) : DialsOnly address o := by
  cases o <;> trivial

/-- The address of a request that is sent on through an upstream. -/
def upstreamAddress (r : Request) : GoString :=
  if r.url.port = [] then joinHostPort r.url.host (ascii "80") else r.url.host

theorem host_withPort_withCredentials (creds : GoString) (r : Request) :
    (withPort (withCredentials creds r)).url.host = upstreamAddress r := by
  have hurl : (withCredentials creds r).url = r.url := by
    unfold withCredentials
    split_ifs <;> rfl
  unfold withPort upstreamAddress
  rw [hurl]
  split_ifs
  · rfl
  · rw [hurl]

theorem follows_servePlain_dialsOnly (h : Handler) (hostErr : Option ServeError)
    (ctxHeader : Option Header) (r : Request) :
    Follows (only (DialsOnly (upstreamAddress (outgoing h r)))) (fun _ _ => True) ()
      (servePlain h hostErr ctxHeader r) := by
  refine follows_servePlain (fun o ho => ho.dialsOnly _) ?_
  unfold send
  cases h.upstream with
  | none => exact follows_sendDirect (fun o ho => ho.dialsOnly _) fun _ => trivial
  | some upstream =>
    refine follows_sendUpstream ?_ (fun _ => trivial) (fun _ => trivial) hostErr
    exact host_withPort_withCredentials (Userinfo.string upstream.user) (outgoing h r)

/-- **The address that is dialed** for a plain request, in any run. -/
theorem address_of_runs_serveHTTP {hostsMatch : Request → Bool} {h : Handler} {r : Request}
    (hmethod : r.method ≠ ascii "CONNECT") {tr : List Exchange} {res : Request × Outcome}
    (hrun : Runs (serveHTTP hostsMatch h r) tr res) {network address : GoString}
    {ctxHeader : Option Header} {answer : Resp (.dialContext network address ctxHeader)}
    (hmem : (⟨.dialContext network address ctxHeader, answer⟩ : Exchange) ∈ tr) :
    address = upstreamAddress (outgoing h r) := by
  rcases runs_serveHTTP_cases hrun with hquiet | ⟨id, rest, rfl, -, hrest⟩
  · exact absurd trivial (hquiet _ hmem)
  · rcases hrest with ⟨hconnect, -⟩ | ⟨-, hplain⟩
    · exact absurd hconnect hmethod
    · rcases List.mem_append.mp hmem with hmem | hmem
      · exact absurd trivial (not_outbound_recorded id _ hmem)
      · exact ((follows_servePlain_dialsOnly h _ _ r).of_runs hplain).1 _ hmem

/-- **Defaulting the port keeps the host exactly where the host splits.**  For the host of any URL:
the dialer that is made for a proxy URL with this host has an address that keeps it, and so have the
dials of `ServeHTTP` for a plain request with this host through an upstream, if and only if there is
no bracket in the name, and where the port is missing or empty nothing but a name stands there. -/
theorem defaultPort_keepsHost_iff (t : URLHost) (hne : t.text ≠ []) :
    (∀ parse proxyURLStr u, parse proxyURLStr = .ok u → u.host = t.text →
      (u.scheme = ascii "http" ∨ u.scheme = ascii "https") →
      ∃ c, newHTTPConnectDialer parse proxyURLStr = .ok c ∧
        (KeepsHost u (schemePort u.scheme) c.host ↔ t.Splits)) ∧
    (∀ hostsMatch h r, r.method ≠ ascii "CONNECT" → r.url.host = t.text →
      ∀ tr res, Runs (serveHTTP hostsMatch h r) tr res → ∀ network address ctxHeader answer,
        (⟨.dialContext network address ctxHeader, answer⟩ : Exchange) ∈ tr →
        (KeepsHost r.url (ascii "80") address ↔ t.Splits)) := by
  constructor
  · intro parse proxyURLStr u hparse hhost hscheme
    obtain ⟨c, hc, haddress⟩ := exists_newHTTPConnectDialer hparse (hhost ▸ hne) hscheme
    have hdefault : PortText (schemePort u.scheme) := by
      refine URLHost.portText_of_all_isDigit ?_
      unfold schemePort
      split_ifs <;> decide
    refine ⟨c, hc, ?_⟩
    rw [haddress]
    exact keepsHost_iff hhost hdefault
  · intro hostsMatch h r hmethod hhost tr res hrun network address ctxHeader answer hmem
    have hsame : (outgoing h r).url.host = r.url.host := if_neg (hhost ▸ hne)
    have hport : (outgoing h r).url.port = r.url.port := by rw [URL.port, hsame, URL.port]
    rw [address_of_runs_serveHTTP hmethod hrun hmem, upstreamAddress, hsame, hport]
    exact keepsHost_iff hhost (URLHost.portText_of_all_isDigit (by decide))

/-- The host `[::1]:8080`. -/
def loopbackPort : URLHost where
  name := ascii "::1"
  bracketed := true
  port := some (ascii "8080")
  port_digits := by decide
  colon_mem_iff := by decide
  lbracket_notMem := by decide

/-- With its port, the address of an IPv6 literal is kept. -/
theorem defaultPort_keepsHost_loopback :
    ∃ c, newHTTPConnectDialer (fun _ => .ok { scheme := ascii "https", host := ascii "[::1]:8080" })
        (ascii "https://[::1]:8080") = .ok c ∧
      splitHostPort c.host = .ok (ascii "::1", ascii "8080") := by
  have hsplits : loopbackPort.Splits := ⟨by decide, Or.inl (by decide)⟩
  obtain ⟨c, hc, hiff⟩ := (defaultPort_keepsHost_iff loopbackPort (by decide)).1
    (fun _ => .ok { scheme := ascii "https", host := ascii "[::1]:8080" })
    (ascii "https://[::1]:8080") _ rfl (by decide) (Or.inr rfl)
  have hkeeps := hiff.mpr hsplits
  rw [KeepsHost] at hkeeps
  exact ⟨c, hc, hkeeps.trans (by decide +kernel)⟩

/-- The plain request for the page at `http://[::1]/`. -/
def loopbackRequest : Request :=
  { pageRequest with url := { scheme := ascii "http", host := ascii "[::1]", path := ascii "/" } }

/-- What is to be sent of it over the upstream. -/
def loopbackRequestSent : Request :=
  withPort (withCredentials (ascii "user:pass")
    (outgoing { credentialedHandler with hideIP := true } loopbackRequest))

/-- The dial of the upstream dialer, which fails. -/
def loopbackDial : Exchange :=
  ⟨.dialContext (ascii "tcp") (ascii "[[::1]]:80") none,
    (none, some { text := ascii "no such host" })⟩

/-- For `http://[::1]` the dialer stores an address that cannot be split, and this is the address
that `ServeHTTP` dials for `http://[::1]/`; for `http://example.com:` the address that is stored has
another host. -/
theorem loopback_not_kept :
    (∃ c, newHTTPConnectDialer (fun _ => .ok { scheme := ascii "http", host := ascii "[::1]" })
        (ascii "http://[::1]") = .ok c ∧ c.host = ascii "[[::1]]:80" ∧
      splitHostPort c.host = .error .missingPort) ∧
    (∃ c, newHTTPConnectDialer
      (fun _ => .ok { scheme := ascii "http", host := ascii "example.com:" })
        (ascii "http://example.com:") = .ok c ∧
      splitHostPort c.host = .ok (ascii "example.com:", ascii "80")) ∧
    Runs (serveHTTP (fun _ => false) { credentialedHandler with hideIP := true } loopbackRequest)
      [loopbackDial] (loopbackRequestSent,
        .ok (some (handlerError 502 (ascii "failed to dial upstream: no such host")))) := by
  refine ⟨⟨_, rfl, by decide +kernel, by decide +kernel⟩, ⟨_, rfl, by decide +kernel⟩, ?_⟩
  exact .op (.ret _)

end Serve
end ForwardProxy
