import ForwardProxy.Core.NetIP

/-!
# URLs (`net/url`)

A URL that has been parsed, as far as the proxy reads or changes it: the parts as `url.Parse`
leaves them.  `User` is a pointer in Go, so it may be nil.
-/

namespace ForwardProxy
namespace Core

/-! ## User information -/

/-- `url.Userinfo`: a user name and, when one was set, a password. -/
structure Userinfo where
  username : GoString
  password : Option GoString
  deriving DecidableEq, Repr

/-- `shouldEscape` in the mode of user names and passwords. -/
def shouldEscapeUser (c : UInt8) : Bool :=
  !((97 ≤ c && c ≤ 122) || (65 ≤ c && c ≤ 90) || (48 ≤ c && c ≤ 57) || c ∈ ascii "-_.~$&+,;=")

/-- An upper-case hexadecimal digit. -/
def upperHexDigit (n : ℕ) : UInt8 := if n < 10 then UInt8.ofNat (48 + n) else UInt8.ofNat (55 + n)

/-- `escape` in the mode of user names and passwords. -/
def escapeUser (s : GoString) : GoString :=
  s.flatMap fun c =>
    if shouldEscapeUser c then [percent, upperHexDigit (c.toNat / 16), upperHexDigit (c.toNat % 16)]
    else [c]

/-- `Userinfo.String`: the encoded form `username[:password]`.  The method is also called on a nil
pointer, and is then empty. -/
def Userinfo.string : Option Userinfo → GoString
  | none => []
  | some u =>
    escapeUser u.username ++
      match u.password with
      | some password => [colon] ++ escapeUser password
      | none => []

example : Userinfo.string (some ⟨ascii "user", some (ascii "p@ss")⟩) = ascii "user:p%40ss" := by
  decide +kernel

/-- An empty password that was set still shows, by its colon. -/
example : Userinfo.string (some ⟨[], some []⟩) = ascii ":" := by decide +kernel

theorem escapeUser_eq_nil_iff {s : GoString} : escapeUser s = [] ↔ s = [] := by
  cases s with
  | nil => exact ⟨fun _ => rfl, fun _ => rfl⟩
  | cons c s =>
    refine ⟨fun h => ?_, fun h => absurd h (List.cons_ne_nil c s)⟩
    rw [escapeUser, List.flatMap_cons, List.append_eq_nil_iff] at h
    split_ifs at h
    · exact h.1.elim
    · exact h.1.elim

/-- What user information prints nothing. -/
theorem Userinfo.string_eq_nil_iff {user : Option Userinfo} :
    Userinfo.string user = [] ↔ user = none ∨ user = some ⟨[], none⟩ := by
  rcases user with _ | ⟨username, _ | password⟩
  · simp [Userinfo.string]
  · simp [Userinfo.string, escapeUser_eq_nil_iff]
  · simp [Userinfo.string]

/-! ## Host and port -/

/-- `url.URL`. -/
structure URL where
  scheme : GoString := []
  /-- `Opaque`. -/
  opaqueData : GoString := []
  user : Option Userinfo := none
  host : GoString := []
  path : GoString := []
  rawPath : GoString := []
  rawQuery : GoString := []
  forceQuery : Bool := false
  fragment : GoString := []
  rawFragment : GoString := []
  deriving DecidableEq, Repr

/-- `validOptionalPort`: nothing, or a colon and decimal digits. -/
def validOptionalPort : GoString → Bool
  | [] => true
  | c :: s => c == colon && s.all isDigit

/-- `splitHostPort` of `net/url`: without an error, and with the brackets taken off. -/
def splitURLHostPort (hostPort : GoString) : GoString × GoString :=
  let (host, port) := match lastIndexByte hostPort colon with
    | some i =>
      if validOptionalPort (hostPort.drop i) then (hostPort.take i, hostPort.drop (i + 1))
      else (hostPort, [])
    | none => (hostPort, [])
  (if host.head? = some lbracket ∧ host.getLast? = some rbracket then (host.drop 1).dropLast
    else host, port)

/-- `URL.Hostname`. -/
def URL.hostname (u : URL) : GoString := (splitURLHostPort u.host).1

/-- `URL.Port`. -/
def URL.port (u : URL) : GoString := (splitURLHostPort u.host).2

example : ({ host := ascii "[::1]:80" } : URL).hostname = ascii "::1" := by decide +kernel

/-! ## Paths -/

/-- `shouldEscape` in the mode of paths. -/
def shouldEscapePath (c : UInt8) : Bool :=
  !((97 ≤ c && c ≤ 122) || (65 ≤ c && c ≤ 90) || (48 ≤ c && c ≤ 57) || c ∈ ascii "-_.~$&+,/:;=@")

/-- `escape` in the mode of paths. -/
def escapePath (s : GoString) : GoString :=
  s.flatMap fun c =>
    if shouldEscapePath c then [percent, upperHexDigit (c.toNat / 16), upperHexDigit (c.toNat % 16)]
    else [c]

/-- `unescape` in the modes of paths and of path segments; `none` is an `EscapeError`. -/
def unescapePath : GoString → Option GoString
  | [] => some []
  | c :: s =>
    if c = percent then
      match s with
      | a :: b :: s => do
        let hi ← hexValue a
        let lo ← hexValue b
        let rest ← unescapePath s
        return UInt8.ofNat (16 * hi + lo) :: rest
      | _ => none
    else do
      let rest ← unescapePath s
      return c :: rest

/-- `validEncoded` in the mode of paths. -/
def validEncodedPath (s : GoString) : Bool :=
  s.all fun c => c ∈ ascii "!$&'()*+,;=:@[]%" || !shouldEscapePath c

/-- `URL.EscapedPath`. -/
def URL.escapedPath (u : URL) : GoString :=
  if u.rawPath ≠ [] ∧ validEncodedPath u.rawPath ∧ unescapePath u.rawPath = some u.path then
    u.rawPath
  else if u.path = ascii "*" then ascii "*"
  else escapePath u.path

example : ({ path := ascii "/a b", rawPath := ascii "/a%20b" } : URL).escapedPath =
    ascii "/a%20b" := by
  decide +kernel

/-- `shouldEscape` in the mode of path segments. -/
def shouldEscapeSegment (c : UInt8) : Bool :=
  !((97 ≤ c && c ≤ 122) || (65 ≤ c && c ≤ 90) || (48 ≤ c && c ≤ 57) || c ∈ ascii "-_.~$&+:=@")

/-- `url.PathEscape`. -/
def pathEscape (s : GoString) : GoString :=
  s.flatMap fun c =>
    if shouldEscapeSegment c then
      [percent, upperHexDigit (c.toNat / 16), upperHexDigit (c.toNat % 16)]
    else [c]

/-- `URL.setPath`, by which `url.Parse` stores a path; `none` is an `EscapeError`. -/
def URL.setPath (u : URL) (p : GoString) : Option URL :=
  (unescapePath p).map fun path =>
    { u with path := path, rawPath := if p = escapePath path then [] else p }

theorem escapePath_eq_self {s : GoString} (h : ∀ c ∈ s, shouldEscapePath c = false) :
    escapePath s = s := by
  induction s with
  | nil => rfl
  | cons c s ih =>
    rw [escapePath, List.flatMap_cons, h c List.mem_cons_self, if_neg Bool.false_ne_true]
    exact congrArg (c :: ·) (ih fun d hd => h d (List.mem_cons_of_mem c hd))

theorem pathEscape_eq_self {s : GoString} (h : ∀ c ∈ s, shouldEscapeSegment c = false) :
    pathEscape s = s := by
  induction s with
  | nil => rfl
  | cons c s ih =>
    rw [pathEscape, List.flatMap_cons, h c List.mem_cons_self, if_neg Bool.false_ne_true]
    exact congrArg (c :: ·) (ih fun d hd => h d (List.mem_cons_of_mem c hd))

theorem unescapePath_eq_self {s : GoString} (h : percent ∉ s) : unescapePath s = some s := by
  induction s with
  | nil => rfl
  | cons c s ih =>
    have hc : c ≠ percent := fun heq => h (heq ▸ List.mem_cons_self)
    unfold unescapePath
    rw [if_neg hc, ih fun hmem => h (List.mem_cons_of_mem c hmem)]
    rfl

end Core
end ForwardProxy
