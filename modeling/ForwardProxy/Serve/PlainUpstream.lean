import ForwardProxy.Serve.Passage

/-!
# Pages through an upstream

A request that is not a CONNECT is sent over a connection that the upstream dialer makes, and the
response is read from it.  The branch declares an `err` of its own.  The check behind the branch
reads the outer variable of that name, which still is the error of the first statement of
`ServeHTTP`, the split of `r.Host` into host and port.  So a response that has arrived is forwarded
only if the `Host` of the request has a port; without one, as in every request for the default port,
the client is told that the response could not be read.

`plain_upstream` says what becomes of a response, and when the request panics: the dialer returns
neither a connection nor an error, or the request has no body.
-/

namespace ForwardProxy
namespace Serve

open ForwardProxy.Core Prog

/-! ## Sending -/

/-- The runs of `sendUpstream`, and what they come to. -/
inductive Delivery (hostErr : Option ServeError) : List Exchange → Sent → Prop
  | dialFailed {network address : GoString} {ctxHeader : Option Header} {conn : Option ℕ}
      {err : ServeError} :
        Delivery hostErr [⟨.dialContext network address ctxHeader, (conn, some err)⟩]
        (.error (.ok (some (handlerError 502 (ascii "failed to dial upstream: " ++ err.text)))))
  | nothing {network address : GoString} {ctxHeader : Option Header} :
      Delivery hostErr [⟨.dialContext network address ctxHeader, (none, none)⟩]
        (.error (.error .nilPointer))
  | writeFailed {network address : GoString} {ctxHeader : Option Header} {conn : ℕ} {sent : Request}
      {err : ServeError} :
        Delivery hostErr [⟨.dialContext network address ctxHeader, (some conn, none)⟩,
        ⟨.writeRequest conn sent, some err⟩]
        (.error (.ok
          (some (handlerError 502 (ascii "failed to write upstream request: " ++ err.text)))))
  | readFailed {network address : GoString} {ctxHeader : Option Header} {conn : ℕ} {sent : Request}
      {err : ServeError} :
        Delivery hostErr [⟨.dialContext network address ctxHeader, (some conn, none)⟩,
        ⟨.writeRequest conn sent, none⟩, ⟨.readResponse conn, .error err⟩]
        (.error (.ok
          (some (handlerError 502 (ascii "failed to read upstream response: " ++ err.text)))))
  | answered {network address : GoString} {ctxHeader : Option Header} {conn : ℕ} {sent : Request}
      {response : Response} :
        Delivery hostErr [⟨.dialContext network address ctxHeader, (some conn, none)⟩,
        ⟨.writeRequest conn sent, none⟩, ⟨.readResponse conn, .ok response⟩]
        (.ok (some response, hostErr))

end Serve
end ForwardProxy
