import ForwardProxy.Serve.ServeHTTP

/-!
# The target of a CONNECT-UDP request (`native_udp_protocol.go`)

A CONNECT-UDP request names its target in the path of its URI, as a host and a port between
slashes.  The host is brought into one form before anything looks at it: an IP address is
written out again by the library, and a name goes through IDNA and becomes lower case.

What lies outside of the repository and is not spelled out here are the Unicode parts
(`Lib`): case folding, lower case beyond ASCII, and IDNA.
-/

namespace ForwardProxy
namespace ConnectUdp

open ForwardProxy.Core Serve

/-- The functions of other packages that the code calls. -/
structure Lib where
  /-- `strings.EqualFold`. -/
  equalFold : GoString → GoString → Bool
  /-- `strings.ToLower`. -/
  toLower : GoString → GoString
  /-- `idna.Lookup.ToASCII`; `none` is an error. -/
  toASCII : GoString → Option GoString

/-- The Unicode functions as far as ASCII goes, and without folding. -/
def asciiLib : Lib := { equalFold := fun s t => s = t, toLower := toLower, toASCII := some }

/-- `connectUDPTarget`. -/
structure ConnectUDPTarget where
  host : GoString
  port : GoString
  hostPort : GoString
  deriving DecidableEq, Repr

/-- `connectUDPURIPrefix`. -/
def uriPrefix : GoString := ascii "/.well-known/masque/udp/"

/-- `strings.Contains`. -/
def containsString (s sub : GoString) : Bool := s.tails.any fun t => sub.isPrefixOf t

/-- `allASCIIDigits`. -/
def allASCIIDigits (value : GoString) : Bool := value ≠ [] && value.all isDigit

/-- The bytes of a label in its final form. -/
def isLabelByte (c : UInt8) : Bool := (97 ≤ c && c ≤ 122) || isDigit c || c == 45

/-- The check of one label in `canonicalDomain`. -/
def canonicalLabelOk (label : GoString) : Bool :=
  label.length ≠ 0 && label.length ≤ 63 && label.head? ≠ some 45 && label.getLast? ≠ some 45 &&
    label.all isLabelByte

/-- `canonicalDomain`; `none` is an error.  A name that is lower-cased to something outside of
ASCII is refused, so lower case beyond ASCII plays no part. -/
def canonicalDomain (lib : Lib) (host : GoString) : Option GoString :=
  match lib.toASCII host with
  | none => none
  | some name =>
    let name := toLower name
    if name.length = 0 ∨ 253 < name.length ∨ name.getLast? = some dot then none
    else if (split name dot).all canonicalLabelOk then some name
    else none

/-- The host of the target in its final form. -/
def canonicalHost (lib : Lib) (host : GoString) : Option GoString :=
  match parseIP host with
  | some ip => some ip.string
  | none => canonicalDomain lib host

/-- The part of `parseConnectUDPTarget` behind the split of the path. -/
def parseHostAndPort (lib : Lib) (rawHost rawPort : GoString) : Option ConnectUDPTarget := do
  let lowerRawHost := toLower rawHost
  if containsString lowerRawHost (ascii "%2f") ||
      containsString lowerRawHost (ascii "%5c") then none
  let host ← unescapePath rawHost
  if host = [] || host.any fun c => c ∈ ascii "/\\%@[]" then none
  if percent ∈ rawPort || !allASCIIDigits rawPort then none
  let portNumber ← atoi rawPort
  if portNumber < 1 || 65535 < portNumber then none
  let host ← canonicalHost lib host
  let port := itoa portNumber.toNat
  return { host, port, hostPort := joinHostPort host port }

/-- `parseConnectUDPTarget`; the one error is `errConnectUDPMalformed`. -/
def parseConnectUDPTarget (lib : Lib) (r : Request) : Option ConnectUDPTarget :=
  if !isConnectUDPRequest r || r.url.scheme ≠ ascii "https" || r.host = [] || r.url.host = [] ||
      !lib.equalFold r.host r.url.host || r.url.user ≠ none || r.url.rawQuery ≠ [] ||
      r.url.forceQuery || r.url.fragment ≠ [] ||
      r.header.get (ascii "Capsule-Protocol") ≠ ascii "?1" then none
  else if !uriPrefix.isPrefixOf r.url.escapedPath then none
  else
    match split (trimPrefix r.url.escapedPath uriPrefix) slash with
    | [rawHost, rawPort, []] =>
      if rawHost = [] || rawPort = [] then none else parseHostAndPort lib rawHost rawPort
    | _ => none

/-- `clientAddressKey`. -/
def clientAddressKey (lib : Lib) (remoteAddress : GoString) : GoString :=
  match splitHostPort remoteAddress with
  | .error _ => ascii "unknown"
  | .ok (host, _) =>
    if host = [] then ascii "unknown"
    else match parseIP host with
      | some ip => ip.string
      | none => lib.toLower host

end ConnectUdp
end ForwardProxy
