import ForwardProxy.Handler
import ForwardProxy.Setup.Caddyfile

/-!
# `Provision` (`forwardproxy.go`)

A configuration becomes a handler: the rules are built, the upstream URL is parsed and checked, and
the limits of CONNECT-UDP get their defaults.  Timeouts, the transport and the dialers are set up as
well, but no function of this development reads them, so that of these steps only the failures are
here.  What comes from outside is the metrics registry, the parser of URLs and the maker of upstream
dialers (`Platform`).
-/

namespace ForwardProxy
namespace Setup

open ForwardProxy.Core Acl

/-- What `Provision` calls out to. -/
structure Platform where
  /-- The error of `initConnectUDPMetrics`. -/
  metricsError : Option GoString := none
  /-- `url.Parse`. -/
  parseURL : GoString → Except GoString URL
  /-- `proxy.FromURL`: its error. -/
  fromURL : URL → Option GoString := fun _ => none

/-- `isLocalhost`. -/
def isLocalhost (hostname : GoString) : Bool :=
  hostname = ascii "localhost" || hostname = ascii "127.0.0.1" || hostname = ascii "::1" ||
    (ascii ".localhost").isSuffixOf hostname

/-- The part of `Provision` about the upstream. -/
def provisionUpstream (platform : Platform) (cfg : Config) : Except GoString (Option Upstream) :=
  if cfg.upstream = [] then .ok none
  else match platform.parseURL cfg.upstream with
    | .error err => .error (ascii "bad upstream URL: " ++ err)
    | .ok url =>
      if !cfg.disableInsecureUpstreamsCheck && !isLocalhost url.hostname &&
          url.scheme ≠ ascii "https" then
        .error (ascii "insecure schemes are only allowed to localhost upstreams")
      else match platform.fromURL url with
        | some err => .error (ascii "failed to create proxy to upstream: " ++ err)
        | none => .ok (some { user := url.user })

/-- The part of `Provision` about authentication. -/
def provisionAuth (cfg : Config) : Except GoString Unit :=
  if cfg.probeResistance.isSome ∧ cfg.authCredentials.isNone then
    .error (ascii "probe resistance requires authentication")
  else .ok ()

/-- `Provision`. -/
def provision (platform : Platform) (cfg : Config) : Except GoString Handler :=
  match platform.metricsError with
  | some err => .error err
  | none => do
    let aclRules ← provisionACL cfg.acl
    provisionAuth cfg
    let upstream ← provisionUpstream platform cfg
    return { pacPath := cfg.pacPath, hideIP := cfg.hideIP, hideVia := cfg.hideVia,
             probeResistance := cfg.probeResistance, upstream := upstream,
             allowedPorts := cfg.allowedPorts, aclRules := aclRules,
             authCredentials := cfg.authCredentials, connectUDPMaxActive := 512,
             connectUDPMaxClientActive := 128 }

/-- What a provisioned handler takes from its configuration. -/
theorem provision_eq_ok {platform : Platform} {cfg : Config} {h : Handler}
    (hprov : provision platform cfg = .ok h) :
    provisionACL cfg.acl = .ok h.aclRules ∧ provisionAuth cfg = .ok () ∧
      h.authCredentials = cfg.authCredentials := by
  unfold provision at hprov
  split at hprov
  · cases hprov
  · cases hacl : provisionACL cfg.acl with
    | error err =>
      rw [hacl] at hprov
      cases hprov
    | ok aclRules =>
      cases hauth : provisionAuth cfg with
      | error err =>
        rw [hacl, hauth] at hprov
        cases hprov
      | ok _ =>
        cases hup : provisionUpstream platform cfg with
        | error err =>
          rw [hacl, hauth, hup] at hprov
          cases hprov
        | ok upstream =>
          rw [hacl, hauth, hup] at hprov
          cases hprov
          exact ⟨rfl, rfl, rfl⟩

end Setup
end ForwardProxy
