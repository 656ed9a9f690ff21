import ForwardProxy.Acl.Rule
import ForwardProxy.Core.URL

/-!
# The handler (`forwardproxy.go`)

The configuration of one `forward_proxy` handler after `Provision`, as far as the
functions modelled in this development read it.  What the handler calls out to
(resolvers, dialers, the transport, the next handler) is not data and is a parameter
of the models that call it.
-/

namespace ForwardProxy

open ForwardProxy.Core Acl

/-- The parts of the upstream URL that `ServeHTTP` reads. -/
structure Upstream where
  user : Option Userinfo
  deriving DecidableEq, Repr

/-- `Handler`. -/
structure Handler where
  /-- `PACPath`; empty when no PAC file is served. -/
  pacPath : GoString := []
  hideIP : Bool := false
  hideVia : Bool := false
  /-- `ProbeResistance`: nil, or its secret domain. -/
  probeResistance : Option GoString := none
  upstream : Option Upstream := none
  allowedPorts : List ℤ := []
  aclRules : List AclRule := []
  /-- `AuthCredentials`: nil, or the base64 forms of the credentials. -/
  authCredentials : Option (List GoString) := none
  connectUDPMaxActive : ℤ := 0
  connectUDPMaxClientActive : ℤ := 0
  deriving DecidableEq, Repr

end ForwardProxy
