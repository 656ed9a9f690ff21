import ForwardProxy.Core.Header
import ForwardProxy.Core.Prog
import ForwardProxy.Core.Stream
import ForwardProxy.Core.URL

/-!
# Requests, and what serving one can do

The data of `ServeHTTP`, and the operations it performs (`Op`): on the response writer, on the
body of the request, on the network, and on the handlers around it.  The answers to the
operations are the choices of the environment.  A connection is identified by a number.
-/

namespace ForwardProxy
namespace Serve

open ForwardProxy.Core

/-- `r.Body`: nil, the body that the server hands over, or one that has been read in. -/
inductive Body where
  | absent
  | stream
  | buffered (data : GoString)
  deriving DecidableEq, Repr

/-- `http.Request`. -/
structure Request where
  method : GoString
  url : URL
  proto : GoString
  protoMajor : ℕ
  protoMinor : ℕ
  header : Header
  body : Body := .stream
  host : GoString
  remoteAddr : GoString := []
  requestURI : GoString := []
  deriving DecidableEq, Repr

/-- `http.Response`, apart from its body. -/
structure Response where
  statusCode : ℕ
  protoMajor : ℕ
  protoMinor : ℕ
  header : Header
  deriving DecidableEq, Repr

/-- An error: its text and, if it is a `caddyhttp.HandlerError`, its status. -/
structure ServeError where
  status : Option ℕ := none
  text : GoString
  deriving DecidableEq, Repr

/-- `caddyhttp.Error`. -/
def handlerError (status : ℕ) (text : GoString) : ServeError := ⟨some status, text⟩

/-- What `ServeHTTP` does outside of its own variables. -/
inductive Op where
  /-- `repl.Set("http.auth.user.id", ..)`. -/
  | setUserID (id : GoString)
  /-- `next.ServeHTTP`. -/
  | next (r : Request)
  /-- The header of the response writer is read. -/
  | responseHeader
  /-- The header of the response writer becomes this. -/
  | setResponseHeader (header : Header)
  | writeHeader (statusCode : ℕ)
  /-- `w.Write`, the outcome of which is never looked at. -/
  | write (data : GoString)
  | flush
  /-- `rand.Intn`. -/
  | randIntn (n : ℕ)
  /-- `rand.Uint64`. -/
  | randUint64
  /-- `io.ReadAll(r.Body)`. -/
  | readBody
  /-- `r.Body.Close`. -/
  | closeBody
  /-- `h.httpTransport.RoundTrip`. -/
  | roundTrip (r : Request)
  /-- `h.dialContext`; the header is the one the context carries. -/
  | dialContext (network address : GoString) (ctxHeader : Option Header)
  | dialContextCheckACL (network hostPort : GoString) (ctxHeader : Option Header)
  /-- `r.Write`. -/
  | writeRequest (conn : ℕ) (r : Request)
  | readResponse (conn : ℕ)
  | closeConn (conn : ℕ)
  /-- `io.CopyBuffer(w, response.Body, buf)`. -/
  | copyResponseBody
  /-- `response.Body.Close`. -/
  | closeResponseBody
  | serveConnectUDP (r : Request)
  /-- `Hijack`. -/
  | hijack
  /-- What the hijacked reader has buffered. -/
  | buffered
  /-- `targetConn.Write`. -/
  | writeTarget (conn : ℕ) (data : GoString)
  /-- `brw.Flush`. -/
  | flushClient
  /-- `clientConn.Close`. -/
  | closeClient
  | dualStream (conn : ℕ) (padding : Bool)

/-- The answers. -/
abbrev Resp : Op → Type
  | .setUserID _ => Unit
  | .next _ => Option ServeError
  | .responseHeader => Header
  | .setResponseHeader _ => Unit
  | .writeHeader _ => Unit
  | .write _ => Unit
  | .flush => Option ServeError
  | .randIntn _ => ℕ
  | .randUint64 => UInt64
  | .readBody => Except ServeError GoString
  | .closeBody => Option ServeError
  | .roundTrip _ => Option Response × Option ServeError
  | .dialContext _ _ _ => Option ℕ × Option ServeError
  | .dialContextCheckACL _ _ _ => Option ℕ × Option ServeError
  | .writeRequest _ _ => Option ServeError
  | .readResponse _ => Except ServeError Response
  | .closeConn _ => Unit
  | .copyResponseBody => Option ServeError
  | .closeResponseBody => Unit
  | .serveConnectUDP _ => Option ServeError
  | .hijack => Option ServeError
  | .buffered => GoString
  | .writeTarget _ _ => Unit
  | .flushClient => Option ServeError
  | .closeClient => Unit
  | .dualStream _ _ => Option ServeError

/-- An operation and its answer. -/
abbrev Exchange := Σ o, Resp o

/-- How `ServeHTTP` ends: with a panic, or with the error it returns. -/
abbrev Outcome := Except Panic (Option ServeError)

end Serve
end ForwardProxy
