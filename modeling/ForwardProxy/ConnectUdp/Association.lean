import ForwardProxy.ConnectUdp.Resolve
import ForwardProxy.ConnectUdp.Target

/-!
# Serving a CONNECT-UDP request (`native_udp_association.go`)

`serveConnectUDP` as a program.  Its operations (`Op`) are what it does to the admission
counters of the handler, to the UDP socket and to the HTTP/3 stream; the answers are the
choices of the environment.  A socket and an association, which is the function `release` that
`acquireConnectUDP` returns, are identified by numbers.

Deferred calls are performed where the function that defers them ends, last one first: the
socket is closed before the association is released.

`release` is a function under a `sync.Once`.  Calling it is two operations: the first says
whether this call is the one that runs the function, the second is the function itself, which
is one critical section.
-/

namespace ForwardProxy
namespace ConnectUdp

open ForwardProxy.Core Prog Acl Dial Serve

/-- What `serveConnectUDP` does outside of its own variables. -/
inductive Op where
  /-- `acquireConnectUDP`. -/
  | acquire (client : GoString)
  /-- `once.Do` is entered, to release with this reason. -/
  | beginRelease (association : ℕ) (reason : GoString)
  /-- The function under `once.Do`. -/
  | release (association : ℕ)
  /-- `h.lookupIP`. -/
  | lookupIP (host : GoString)
  /-- `http3CapabilitiesFromResponseWriter`. -/
  | capabilities
  /-- Waiting for the settings of the peer. -/
  | receivedSettings
  /-- `settingser.Settings`. -/
  | settings
  /-- `h.connectUDPDial` for the network `udp`. -/
  | dial (address : GoString)
  | writeHeader (statusCode : ℕ)
  /-- `streamer.HTTPStream`. -/
  | httpStream
  /-- The loop of `run`, up to its result. -/
  | awaitResult (udp : ℕ)
  /-- The context of the pumps and both directions of the stream are cancelled. -/
  | cancelStream
  /-- `udp.Close`. -/
  | closeUDP (udp : ℕ)
  /-- Waiting for the pumps. -/
  | awaitPumps
  /-- `stream.Close`. -/
  | closeStream
  deriving DecidableEq

/-- The answers.  `acquire` answers with the association and its identifier, `beginRelease`
whether the function has not run before, `capabilities` and `httpStream` whether there are any,
`receivedSettings` with the error of the context if that ended first, and `settings` with
`EnableDatagrams`. -/
abbrev Resp : Op → Type
  | .acquire _ => Option (ℕ × UInt64)
  | .beginRelease _ _ => Bool
  | .release _ => Unit
  | .lookupIP _ => Answer
  | .capabilities => Bool
  | .receivedSettings => Option ServeError
  | .settings => Option Bool
  | .dial _ => Option ℕ × Option NetError
  | .writeHeader _ => Unit
  | .httpStream => Bool
  | .awaitResult _ => NetError
  | .cancelStream => Unit
  | .closeUDP _ => Unit
  | .awaitPumps => Unit
  | .closeStream => Unit

/-- An operation and its answer. -/
abbrev Exchange := Σ o, Resp o

/-- `dialConnectUDPTarget`. -/
def dialConnectUDPTarget : List GoString → Prog Resp (Option ℕ)
  | [] => return none
  | address :: addresses => do
    match ← perform (Op.dial address) with
    | (some conn, none) => return some conn
    | _ => dialConnectUDPTarget addresses

/-- `connectUDPAssociation.run`. -/
def run (udp : ℕ) : Prog Resp NetError := do
  let result ← perform (Op.awaitResult udp)
  perform Op.cancelStream
  perform (Op.closeUDP udp)
  perform Op.awaitPumps
  perform Op.closeStream
  return result

/-- `connectUDPAssociationCloseReason`. -/
def closeReason : NetError → GoString
  | .deadlineExceeded => ascii "idle_expired"
  | .canceled => ascii "canceled"
  | .other _ _ => ascii "closed"

/-- What `closeReason` is before the association runs. -/
def setupFailed : GoString := ascii "setup_failed"

/-- `errConnectUDPUnsupported` with its status. -/
def unsupported : ServeError := handlerError 501 (ascii "connect-udp is unsupported")

/-- `serveConnectUDP` from the dialled socket on, but for the deferred calls: `closeReason`, and
the error that is returned. -/
def serveSocket (udp : ℕ) : Prog Resp (GoString × Option ServeError) := do
  perform (Op.writeHeader 200)
  if ← perform Op.httpStream then
    let result ← run udp
    return (closeReason result, none)
  else
    return (setupFailed, none)

/-- `serveConnectUDP` from the resolved target on, but for the deferred release. -/
def serveResolved (resolved : ResolvedTarget) : Prog Resp (GoString × Option ServeError) := do
  if ← perform Op.capabilities then
    match ← perform Op.receivedSettings with
    | some err => return (setupFailed, some err)
    | none =>
      match ← perform Op.settings with
      | some true =>
        match ← dialConnectUDPTarget resolved.addresses with
        | none => return (setupFailed,
            some (handlerError 502 (ascii "connect-udp target connection failed")))
        | some udp =>
          let result ← serveSocket udp
          perform (Op.closeUDP udp)
          return result
      | _ => return (setupFailed, some unsupported)
  else
    return (setupFailed, some unsupported)

/-- The error of a target that the policy refuses. -/
def policyError (failure : PolicyFailure) : ServeError :=
  handlerError (statusCode failure) (failureText failure)

/-- `serveConnectUDP` of an admitted request, but for the deferred release. -/
def serveAdmitted (h : Handler) (target : ConnectUDPTarget) :
    Prog Resp (GoString × Option ServeError) := do
  match prepareTargetPolicy h target.hostPort with
  | (_, _, some failure) => return (setupFailed, some (policyError failure))
  | (host, port, none) =>
    match checkAnswer h host port (← perform (Op.lookupIP host)) with
    | .error failure => return (setupFailed, some (policyError failure))
    | .ok resolved => serveResolved resolved

/-- The function `release`. -/
def release (association : ℕ) (reason : GoString) : Prog Resp Unit := do
  if ← perform (Op.beginRelease association reason) then
    perform (Op.release association)

/-- `serveConnectUDP`: the request as it leaves it, and the error. -/
def serveConnectUDP (lib : Lib) (h : Handler) (r : Request) :
    Prog Resp (Request × Option ServeError) := do
  let left := redactConnectUDPRequest r
  match parseConnectUDPTarget lib r with
  | none => return (left, some (handlerError 400 (ascii "connect-udp request is malformed")))
  | some target =>
    if h.upstream.isSome then
      return (left, some unsupported)
    else
      match ← perform (Op.acquire (clientAddressKey lib r.remoteAddr)) with
      | none =>
        return (left, some (handlerError 503 (ascii "connect-udp resource limit reached")))
      | some (association, _) =>
        let (reason, err) ← serveAdmitted h target
        release association reason
        return (left, err)

end ConnectUdp
end ForwardProxy
