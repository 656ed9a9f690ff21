import ForwardProxy.Core.HostPort
import ForwardProxy.Handler
import ForwardProxy.Serve.Auth

/-!
# `ServeHTTP` (`forwardproxy.go`)

A request first passes the gate: authentication, the hidden page, requests for the proxy's own
host names, the HTTP version.  A CONNECT request then becomes a tunnel, and any other request is
sent on: over the transport, or, when there is an upstream, over a connection that the upstream
dialer makes to the target.

The program follows the source statement by statement.  Early returns are the `some` of the gate
and the `error` of the two ways to send; deferred calls are performed where the function that
defers them ends.  `ServeHTTP` changes the request it is given, so it returns the request as it
leaves it.  What `h.Hosts.Match` says is a parameter.
-/

namespace ForwardProxy
namespace Serve

open ForwardProxy.Core Prog

/-! ## Headers -/

/-- `w.Header()` is changed. -/
def modifyResponseHeader (f : Header → Header) : Prog Resp Unit := do
  let header ← perform Op.responseHeader
  perform (Op.setResponseHeader (f header))

/-- `hopByHopHeaders`. -/
def hopByHopHeaders : List GoString :=
  [ascii "Keep-Alive", ascii "Proxy-Authenticate", ascii "Proxy-Authorization", ascii "Upgrade",
    ascii "Connection", ascii "Proxy-Connection", ascii "Te", ascii "Trailer",
    ascii "Transfer-Encoding"]

/-- `removeHopByHop`. -/
def removeHopByHop (header : Header) : Header :=
  let connectionHeaders := header.get (ascii "Connection")
  let header := (split connectionHeaders 44).foldl (fun header h => header.del (trimSpace h)) header
  hopByHopHeaders.foldl Header.del header

/-- The value that announces the client's address. -/
def forwardedFor (r : Request) : GoString := ascii "for=\"" ++ r.remoteAddr ++ ascii "\""

/-- The header for the upstream dialer, which the context carries. -/
def contextHeader (h : Handler) (r : Request) : Option Header :=
  if h.hideIP then none
  else
    let ctxHeader : Header := r.header.filter fun e =>
      toLower e.1 = ascii "forwarded" ∨ toLower e.1 = ascii "x-forwarded-for"
    some (ctxHeader.add (ascii "Forwarded") (forwardedFor r))

/-! ## Pages -/

/-- `AuthFail` and `AuthOk` of `serveHiddenPage`. -/
def hiddenPageText (authErr : Option ServeError) : GoString :=
  if authErr.isSome then ascii "Please authenticate yourself to the proxy."
  else ascii
    "Congratulations, you are successfully authenticated to the proxy! Go browse all the things!"

/-- The hidden page with its text filled in. -/
def hiddenPage (text : GoString) : GoString :=
  ascii ("<html>\n<head>\n  <title>Hidden Proxy Page</title>\n</head>\n<body>\n" ++
    "<h1>Hidden Proxy Page!</h1>\n") ++ text ++ ascii "<br/>\n</body>\n</html>"

/-- The challenge that goes with a 407. -/
def proxyAuthenticate : GoString := ascii "Basic realm=\"Caddy Secure Web Proxy\""

/-- `serveHiddenPage`. -/
def serveHiddenPage (authErr : Option ServeError) : Prog Resp (Option ServeError) := do
  modifyResponseHeader fun header => header.set (ascii "Content-Type") (ascii "text/html")
  if authErr.isSome then
    modifyResponseHeader fun header => header.set (ascii "Proxy-Authenticate") proxyAuthenticate
    perform (Op.writeHeader 407)
  perform (Op.write (hiddenPage (hiddenPageText authErr)))
  return authErr

/-- `shouldServePACFile`. -/
def shouldServePACFile (h : Handler) (r : Request) : Bool :=
  h.pacPath ≠ [] && r.url.path = h.pacPath

/-- `pacFile` with the host filled in. -/
def pacFile (host : GoString) : GoString :=
  ascii ("\nfunction FindProxyForURL(url, host) \x7b\n" ++
    "\tif (host === \"127.0.0.1\" || host === \"::1\" || host === \"localhost\")\n" ++
    "\t\treturn \"DIRECT\";\n\treturn \"HTTPS ") ++ host ++ ascii "\";\n\x7d\n"

/-- `servePacFile`. -/
def servePacFile (r : Request) : Prog Resp (Option ServeError) := do
  perform (Op.write (pacFile r.host))
  return none

/-! ## CONNECT -/

/-- The result of `negotiateNaivePadding`; it is also what the reply header says. -/
inductive PaddingVariant where
  | none
  | variant1
  deriving DecidableEq, Repr

/-- `naivePaddingTypeRequestHeader`. -/
def paddingTypeRequest : GoString := ascii "Padding-Type-Request"

/-- `negotiateNaivePadding`.  Of all the values only the first element of the first one is ever
looked at. -/
def negotiateNaivePadding (header : Header) : Except GoString PaddingVariant :=
  match header.lookup (canonicalHeaderKey paddingTypeRequest) with
  | Option.none => .ok (if header.get (ascii "Padding") ≠ [] then .variant1 else .none)
  | some [] => .error (ascii "no Naive padding type requested")
  | some (value :: _) =>
    let candidate := trimSpace ((split value 44).headD [])
    if candidate = ascii "1" then .ok .variant1
    else if candidate = ascii "0" then .ok .none
    else .error (ascii "invalid Naive padding type")

/-- The padding of a response: sixteen characters from the bits, then tildes. -/
def responsePadding (paddingLen : ℕ) (bits : UInt64) : GoString :=
  let characters := ascii "!#$()+<>?@[]^`\x7b\x7d"
  ((List.range 16).map fun i => characters.getD (bits.toNat / 16 ^ i % 16) 0) ++
    List.replicate (paddingLen - 16) 126

/-- `setNaivePaddingResponseHeaders`. -/
def setNaivePaddingResponseHeaders (request : Header) (paddingType : PaddingVariant) :
    Prog Resp Unit := do
  let n ← perform (Op.randIntn 32)
  let bits ← perform Op.randUint64
  modifyResponseHeader fun header => header.set (ascii "Padding") (responsePadding (n + 30) bits)
  if (request.lookup (canonicalHeaderKey paddingTypeRequest)).isSome then
    modifyResponseHeader fun header => header.set (ascii "Padding-Type-Reply")
      (match paddingType with
        | .none => ascii "0"
        | .variant1 => ascii "1")

/-- `isConnectUDPRequest`. -/
def isConnectUDPRequest (r : Request) : Bool :=
  r.method = ascii "CONNECT" && r.protoMajor = 3 && r.proto = ascii "connect-udp"

/-- `isUnsupportedExtendedConnect`. -/
def isUnsupportedExtendedConnect (r : Request) : Bool :=
  r.method = ascii "CONNECT" && r.protoMajor = 3 && r.proto ≠ ascii "HTTP/3.0" &&
    r.proto ≠ ascii "connect-udp"

/-- `redactConnectUDPRequest`. -/
def redactConnectUDPRequest (r : Request) : Request :=
  let path := ascii "/.well-known/masque/udp/redacted/0/"
  { r with
    url := { r.url with path := path, rawPath := [], rawQuery := [], forceQuery := false,
                        fragment := [] }
    requestURI := path }

/-- `serveHijack`. -/
def serveHijack (targetConn : ℕ) : Prog Resp (Option ServeError) := do
  perform (Op.writeHeader 200)
  match ← perform Op.hijack with
  | some err => return some (handlerError 500 (ascii "hijack failed: " ++ err.text))
  | none =>
    let rbuf ← perform Op.buffered
    if rbuf ≠ [] then
      perform (Op.writeTarget targetConn rbuf)
    match ← perform Op.flushClient with
    | some err =>
      perform Op.closeClient
      return some (handlerError 500 (ascii "failed to flush to client: " ++ err.text))
    | none =>
      let err ← perform (Op.dualStream targetConn false)
      perform Op.closeClient
      return err

/-- The tunnel of a CONNECT request whose target connection is there. -/
def serveTunnel (r : Request) (paddingType : PaddingVariant) (targetConn : ℕ) :
    Prog Resp Outcome := do
  perform (Op.writeHeader 200)
  match ← perform Op.flush with
  | some err =>
    return .ok (some (handlerError 500 (ascii "ResponseWriter flush error: " ++ err.text)))
  | none =>
    if r.protoMajor = 1 then
      return .ok (← serveHijack targetConn)
    else if r.body = .absent then
      return .error .nilPointer
    else
      -- the version was checked at the gate, so this is 2 or 3
      let err ← perform (Op.dualStream targetConn (paddingType = .variant1))
      let _ ← perform Op.closeBody
      return .ok err

/-- `ServeHTTP` for a CONNECT request that passed the gate. -/
def serveConnect (r : Request) (ctxHeader : Option Header) : Prog Resp Outcome := do
  match negotiateNaivePadding r.header with
  | .error text => return .ok (some (handlerError 400 text))
  | .ok paddingType =>
    setNaivePaddingResponseHeaders r.header paddingType
    if isConnectUDPRequest r then
      return .ok (← perform (Op.serveConnectUDP r))
    else if isUnsupportedExtendedConnect r then
      return .ok (some (handlerError 501 (ascii "connect-udp is unsupported")))
    else if (r.protoMajor = 2 ∨ r.protoMajor = 3) ∧ (r.url.scheme ≠ [] ∨ r.url.path ≠ []) then
      return .ok (some (handlerError 400
        (ascii "CONNECT request has :scheme and/or :path pseudo-header fields")))
    else
      let hostPort := if r.url.host = [] then r.host else r.url.host
      match ← perform (Op.dialContextCheckACL (ascii "tcp") hostPort ctxHeader) with
      | (_, some err) => return .ok (some err)
      | (none, none) =>
        return .ok (some (handlerError 403
          (ascii "hostname " ++ r.url.hostname ++ ascii " is not allowed")))
      | (some targetConn, none) =>
        let outcome ← serveTunnel r paddingType targetConn
        perform (Op.closeConn targetConn)
        return outcome

/-! ## Other requests -/

/-- The request that is sent on. -/
def outgoing (h : Handler) (r : Request) : Request :=
  let url := { r.url with
    scheme := if r.url.scheme = [] then ascii "http" else r.url.scheme
    host := if r.url.host = [] then r.host else r.url.host }
  let header := removeHopByHop r.header
  let header := if h.hideIP then header else header.add (ascii "Forwarded") (forwardedFor r)
  let header := if h.hideVia then header else header.add (ascii "Via") (ascii "1.1 caddy")
  { r with url := url, header := header, proto := ascii "HTTP/1.1", protoMajor := 1,
           protoMinor := 1, requestURI := [] }

/-- What sending a request comes to: an early return, or a response and an error. -/
abbrev Sent := Except Outcome (Option Response × Option ServeError)

/-- The methods whose body is read in, so that the transport may retry. -/
def idempotentMethods : List GoString :=
  [ascii "GET", ascii "HEAD", ascii "OPTIONS", ascii "TRACE"]

/-- Send the request over the transport. -/
def sendDirect (r : Request) : Prog Resp (Request × Sent) := do
  if r.body ≠ .absent ∧ idempotentMethods.any fun method => r.method = method then
    match ← perform Op.readBody with
    | .error err =>
      return (r, .error (.ok (some (handlerError 400
        (ascii "failed to read request body: " ++ err.text)))))
    | .ok data =>
      let r := { r with body := .buffered data }
      return (r, .ok (← perform (Op.roundTrip r)))
  else
    return (r, .ok (← perform (Op.roundTrip r)))

/-- The request as it goes to the upstream's connection: the credentials are those of the
upstream URL. -/
def withCredentials (creds : GoString) (r : Request) : Request :=
  if creds = [] then r
  else { r with header := r.header.set (ascii "Proxy-Authorization")
                  (ascii "Basic " ++ Base64.encode creds) }

/-- The request with the default port. -/
def withPort (r : Request) : Request :=
  if r.url.port =
    [] then { r with url := { r.url with host := joinHostPort r.url.host (ascii "80") } }
  else r

/-- Send the request over a connection of the upstream dialer.  `hostErr` is the error of the
first statement of `ServeHTTP`: the variable of that name is shadowed in this branch, and so
keeps its value. -/
def sendUpstream (upstream : Upstream) (hostErr : Option ServeError) (ctxHeader : Option Header)
    (r : Request) : Prog Resp (Request × Sent) := do
  let r := withPort (withCredentials (Userinfo.string upstream.user) r)
  match ← perform (Op.dialContext (ascii "tcp") r.url.host ctxHeader) with
  | (_, some err) =>
    return (r, .error (.ok (some (handlerError 502
      (ascii "failed to dial upstream: " ++ err.text)))))
  | (none, none) => return (r, .error (.error .nilPointer))
  | (some upsConn, none) =>
    match ← perform (Op.writeRequest upsConn r) with
    | some err =>
      return (r, .error (.ok (some (handlerError 502
        (ascii "failed to write upstream request: " ++ err.text)))))
    | none =>
      match ← perform (Op.readResponse upsConn) with
      | .error err =>
        return (r, .error (.ok (some (handlerError 502
          (ascii "failed to read upstream response: " ++ err.text)))))
      | .ok response => return (r, .ok (some response, hostErr))

/-- `forwardResponse`. -/
def forwardResponse (response : Response) : Prog Resp (Option ServeError) := do
  modifyResponseHeader fun header => header.del (ascii "Server")
  modifyResponseHeader fun header => header.add (ascii "Via")
    (itoa response.protoMajor ++ ascii "." ++ itoa response.protoMinor ++ ascii " caddy")
  modifyResponseHeader fun header =>
    response.header.foldl (fun header e => e.2.foldl (fun header val => header.add e.1 val) header)
      header
  modifyResponseHeader removeHopByHop
  perform (Op.writeHeader response.statusCode)
  perform Op.copyResponseBody

/-- `r.Body.Close`. -/
def closeBody (r : Request) : Prog Resp Outcome :=
  match r.body with
  | .absent => return .error .nilPointer
  | .buffered _ => return .ok none
  | .stream => return .ok (← perform Op.closeBody)

/-- `ServeHTTP` from the closing of the body on. -/
def finish (r : Request) (response : Option Response) (err : Option ServeError) :
    Prog Resp Outcome := do
  match ← closeBody r with
  | .error panic => return .error panic
  | .ok (some err) =>
    return .ok (some (handlerError 502 (ascii "failed to close response body: " ++ err.text)))
  | .ok none =>
    match err, response with
    | some err, _ =>
      if response.isSome then
        perform Op.closeResponseBody
      return .ok (some (if err.status.isSome then err
        else handlerError 502 (ascii "failed to read response: " ++ err.text)))
    | none, none => return .error .nilPointer
    | none, some response =>
      let err ← forwardResponse response
      perform Op.closeResponseBody
      return .ok err

/-- Send the request on. -/
def send (h : Handler) (hostErr : Option ServeError) (ctxHeader : Option Header) (r : Request) :
    Prog Resp (Request × Sent) :=
  match h.upstream with
  | none => sendDirect (outgoing h r)
  | some upstream => sendUpstream upstream hostErr ctxHeader (outgoing h r)

/-- `ServeHTTP` for a request other than CONNECT that passed the gate. -/
def servePlain (h : Handler) (hostErr : Option ServeError) (ctxHeader : Option Header)
    (r : Request) : Prog Resp (Request × Outcome) := do
  let (r, sent) ← send h hostErr ctxHeader r
  match sent with
  | .error outcome => return (r, outcome)
  | .ok (response, err) => return (r, ← finish r response err)

/-! ## The gate -/

/-- The host of the request, without a port. -/
def requestHost (r : Request) : GoString :=
  match splitHostPort r.host with
  | .ok (host, _) => host
  | .error _ => r.host

/-- The error of `net.SplitHostPort(r.Host)`. -/
def hostError (r : Request) : Option ServeError :=
  match splitHostPort r.host with
  | .ok _ => none
  | .error err =>
    some { text := (if r.host = [] then [] else ascii "address " ++ r.host ++
      ascii ": ") ++ err.text }

/-- `authErr`. -/
def authenticate (h : Handler) (r : Request) : Prog Resp (Except Panic (Option ServeError)) :=
  match h.authCredentials with
  | none => return .ok none
  | some authCredentials =>
    match checkCredentials authCredentials r with
    | .error panic => return .error panic
    | .ok (none, err) => return .ok err
    | .ok (some id, err) => do
      perform (Op.setUserID id)
      return .ok err

/-- The gate behind the authentication; `none` means that the request is to be proxied. -/
def gate (hostsMatch : Request → Bool) (h : Handler) (r : Request) (authErr : Option ServeError) :
    Prog Resp (Option (Option ServeError)) := do
  if h.probeResistance.isSome ∧ h.probeResistance ≠ some [] ∧
      h.probeResistance = some (requestHost r) then
    return some (← serveHiddenPage authErr)
  else if hostsMatch r ∧ (r.method ≠ ascii "CONNECT" ∨
      authErr.isSome ∧ (¬ isConnectUDPRequest r ∨ h.probeResistance.isSome)) then
    if shouldServePACFile h r then
      return some (← servePacFile r)
    else
      return some (← perform (Op.next r))
  else match authErr with
    | some authErr =>
      if h.probeResistance.isSome then
        return some (← perform (Op.next r))
      else
        modifyResponseHeader fun header => header.set (ascii "Proxy-Authenticate") proxyAuthenticate
        return some (some (handlerError 407 authErr.text))
    | none =>
      if r.protoMajor ≠ 1 ∧ r.protoMajor ≠ 2 ∧ r.protoMajor ≠ 3 then
        return some (some (handlerError 505
          (ascii "unsupported HTTP major version: " ++ itoa r.protoMajor)))
      else
        return none

/-- `ServeHTTP`. -/
def serveHTTP (hostsMatch : Request → Bool) (h : Handler) (r : Request) :
    Prog Resp (Request × Outcome) := do
  -- the deferred redaction, which changes nothing but CONNECT-UDP requests
  let left := if isConnectUDPRequest r then redactConnectUDPRequest r else r
  match ← authenticate h r with
  | .error panic => return (left, .error panic)
  | .ok authErr =>
    match ← gate hostsMatch h r authErr with
    | some err => return (left, .ok err)
    | none =>
      if r.method = ascii "CONNECT" then
        return (left, ← serveConnect r (contextHeader h r))
      else servePlain h (hostError r) (contextHeader h r) r

end Serve
end ForwardProxy
