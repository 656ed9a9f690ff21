import ForwardProxy.Dial.Feed

/-!
# Resolving a CONNECT-UDP target (`native_udp_protocol.go`)

`resolveTargetCheckACL` asks for all addresses of the target at once, drops those that the
access rules deny, and writes the others out with the port, each of them once.
-/

namespace ForwardProxy
namespace ConnectUdp

open ForwardProxy.Core Acl Dial

/-- `targetPolicyFailure.Error`. -/
def failureText : PolicyFailure → GoString
  | .malformed _ => ascii "target address is malformed"
  | .portDenied => ascii "target port is not allowed"
  | .domainDenied => ascii "target is not allowed"
  | .noAllowedAddress => ascii "target is not allowed"
  | .lookupFailed _ => ascii "target lookup failed"

/-- `targetPolicyFailure.statusCode`. -/
def statusCode : PolicyFailure → ℕ
  | .malformed _ => 400
  | .lookupFailed _ => 502
  | _ => 403

/-- `resolvedTarget`. -/
structure ResolvedTarget where
  host : GoString
  port : GoString
  addresses : List GoString
  deriving DecidableEq, Repr

/-- The body of the loop: the addresses seen, and those that are returned. -/
def resolveEntry (h : Handler) (host port : GoString) (acc : List GoString × List GoString)
    (entry : Option IP) : List GoString × List GoString :=
  match entry with
  | none => acc
  | some ip =>
    if !hostIsAllowed h host ip then acc
    else
      let address := joinHostPort ip.string port
      if acc.1.any fun seen => seen = address then acc else (address :: acc.1, acc.2 ++ [address])

/-- `resolveTargetCheckACL` from the answer of the lookup on. -/
def checkAnswer (h : Handler) (host port : GoString) : Answer → Except PolicyFailure ResolvedTarget
  | .error err => .error (.lookupFailed err)
  | .ok ipAddresses =>
    let addresses := (ipAddresses.foldl (resolveEntry h host port) ([], [])).2
    if addresses = [] then .error .noAllowedAddress
    else .ok { host, port, addresses }

/-- `resolveTargetCheckACL`. -/
def resolveTargetCheckACL (h : Handler) (lookupIP : GoString → Answer) (hostPort : GoString) :
    Except PolicyFailure ResolvedTarget :=
  match prepareTargetPolicy h hostPort with
  | (_, _, some failure) => .error failure
  | (host, port, none) => checkAnswer h host port (lookupIP host)

end ConnectUdp
end ForwardProxy
