import ForwardProxy.Serve.Auth
import ForwardProxy.Setup.Provision

/-!
# From `basic_auth` to the verdict

The credentials that `checkCredentials` compares with come from the configuration, along one of two
routes.

* `basic_auth` in a Caddyfile encodes a user and a password, after it has looked at the user.  Then
  the base 64 form can be read back, the first colon of what is read ends the user name, and the
  check is exact: it accepts the registered pairs and nothing else, and it names the user.
* The JSON field takes any bytes, and `Provision` does not look at them.  Then a credential can be
  presented that does not decode to something with a colon in it, and the slice that is to be the
  user name is out of range.
-/

namespace ForwardProxy
namespace Setup

open ForwardProxy.Core Serve

/-! ## The registered pairs -/

/-- The users and passwords that the `basic_auth` lines of a block register. -/
def Line.registers (line : Line) : List (GoString × GoString) :=
  if line.words.1 = ascii "basic_auth" then
    match line.words.2 with
    | [user, pass] => [(user, pass)]
    | _ => []
  else []

/-- The registered pairs, in the order of the text. -/
def registered (body : List Line) : List (GoString × GoString) := body.flatMap Line.registers

/-- A user that `basic_auth` accepts. -/
def ValidUser (user : GoString) : Prop := user ≠ [] ∧ colon ∉ user

/-- The credentials are the encoded forms of some pairs. -/
def EncodesPairs (cfg : Config) (pairs : List (GoString × GoString)) : Prop :=
  cfg.authCredentials.getD [] = pairs.map (fun p => encodeAuthCredentials p.1 p.2) ∧
    ∀ p ∈ pairs, ValidUser p.1

theorem encodesPairs_of_unmarshalLine {env : Env} {cfg cfg' : Config} {line : Line}
    {pairs : List (GoString × GoString)} (hcfg : EncodesPairs cfg pairs)
    (h : unmarshalLine env cfg line = .ok cfg') : EncodesPairs cfg' (pairs ++ line.registers) := by
  have hframe : line.words.1 ≠ ascii "basic_auth" → cfg'.authCredentials = cfg.authCredentials →
      EncodesPairs cfg' (pairs ++ line.registers) := by
    intro hname hauth
    rw [Line.registers, if_neg hname, List.append_nil, EncodesPairs, hauth]
    exact hcfg
  unfold unmarshalLine at h
  by_cases hacl : line.words.1 = ascii "acl"
  · rw [if_pos hacl] at h
    obtain ⟨rules, rfl⟩ := aclBlock_frame h
    exact hframe (by rw [hacl]; decide) rfl
  · rw [if_neg hacl] at h
    obtain ⟨cfg'', hsub, h⟩ := Result.bind_eq_ok_iff.mp h
    split_ifs at h
    obtain rfl := Except.ok.inj h
    rcases (sets_of_subdirective hsub).authCredentials with
      ⟨hname, hauth⟩ | ⟨user, pass, hname, hargs, hne, hcolon, hauth⟩
    · exact hframe hname hauth
    · rw [Line.registers, if_pos hname, hargs, EncodesPairs, hauth, Option.getD_some, hcfg.1]
      refine ⟨by simp, fun p hp => ?_⟩
      rcases List.mem_append.mp hp with hp | hp
      · exact hcfg.2 p hp
      · rw [List.mem_singleton.mp hp]
        exact ⟨hne, hcolon⟩

/-- **The credentials of a Caddyfile are those of its pairs.** -/
theorem encodesPairs_of_unmarshalCaddyfile {env : Env} {args : List GoString} {body : List Line}
    {cfg : Config} (h : unmarshalCaddyfile env args body = .ok cfg) :
    EncodesPairs cfg (registered body) := by
  unfold unmarshalCaddyfile at h
  split_ifs at h
  refine Result.foldlM_history (P := fun body (s : Config) => EncodesPairs s (registered body))
    ⟨rfl, by simp [registered]⟩ ?_ h
  intro body s line s' hs hline
  rw [registered, List.flatMap_append, List.flatMap_singleton]
  exact encodesPairs_of_unmarshalLine hs hline

/-- The line that registers a pair. -/
def basicAuthLine (p : GoString × GoString) : Line :=
  { name := ascii "basic_auth", args := [p.1, p.2] }

theorem words_basicAuthLine (p : GoString × GoString) :
    (basicAuthLine p).words = (ascii "basic_auth", [p.1, p.2]) := rfl

theorem registered_basicAuthLines (pairs : List (GoString × GoString)) :
    registered (pairs.map basicAuthLine) = pairs := by
  induction pairs with
  | nil => rfl
  | cons p pairs ih =>
    rw [List.map_cons, registered, List.flatMap_cons, Line.registers,
      words_basicAuthLine, if_pos rfl]
    exact congrArg (p :: ·) ih

/-- **Any pairs can be registered**, as long as their users are valid. -/
theorem exists_unmarshal_basicAuthLines (env : Env) {pairs : List (GoString × GoString)}
    (h : ∀ p ∈ pairs, ValidUser p.1) :
    ∃ cfg, unmarshalCaddyfile env [] (pairs.map basicAuthLine) = .ok cfg := by
  refine Result.exists_foldlM_eq_ok (fun cfg line hline => ?_) ({} : Config)
  obtain ⟨p, hp, rfl⟩ := List.mem_map.mp hline
  obtain ⟨hne, hcolon⟩ := h p hp
  have hlen : ¬ p.1.length = 0 := fun hlen => hne (List.length_eq_zero_iff.mp hlen)
  rw [unmarshalLine, words_basicAuthLine, if_neg (show ascii "basic_auth" ≠ ascii "acl" by decide),
    subdirective, if_pos rfl, basicAuth, if_neg hlen, if_neg hcolon]
  exact ⟨_, rfl⟩

/-! ## The verdict on registered pairs -/

theorem space_notMem_encodeAuthCredentials (user pass : GoString) :
    32 ∉ encodeAuthCredentials user pass := by
  intro h
  rcases Base64.mem_encode h with h | h
  · exact absurd h (by decide)
  · exact absurd h (by decide)

/-- What a request presents as its credentials. -/
def authorization (r : Request) : GoString := r.header.get (ascii "Proxy-Authorization")

/-- **Basic authentication is sound and complete and names the right user.**  With the pairs that
the `basic_auth` lines of a Caddyfile register, the check always returns.  It accepts a value
exactly when this is a scheme that reads `basic` in lower case, one blank and the base 64 form of a
registered pair, and records the user of that pair.  When it rejects, a name that it records has a
colon in it, and is the name of no registered user. -/
theorem basicAuth_exact {env : Env} {args : List GoString} {body : List Line} {cfg : Config}
    (hcfg : unmarshalCaddyfile env args body = .ok cfg) {platform : Platform} {h : Handler}
    (hprov : provision platform cfg = .ok h) (r : Request) :
    ∃ id err, checkCredentials (h.authCredentials.getD []) r = .ok (id, err) ∧
      (err = none ↔ ∃ scheme, ∃ p ∈ registered body,
        Presents (authorization r) scheme (encodeAuthCredentials p.1 p.2)) ∧
      (∀ scheme, ∀ p ∈ registered body,
        Presents (authorization r) scheme (encodeAuthCredentials p.1 p.2) → id = some p.1) ∧
      (err ≠ none → ∀ name, id = some name →
        colon ∈ name ∧ ∀ p ∈ registered body, name ≠ p.1) := by
  obtain ⟨hcreds, hvalid⟩ := encodesPairs_of_unmarshalCaddyfile hcfg
  rw [(provision_eq_ok hprov).2.2, hcreds]
  have haccept : ∀ scheme, ∀ p ∈ registered body,
      Presents (authorization r) scheme (encodeAuthCredentials p.1 p.2) →
      checkCredentials ((registered body).map fun p => encodeAuthCredentials p.1 p.2) r =
        .ok (some p.1, none) := by
    intro scheme p hp hpres
    rw [checkCredentials_of_presents hpres (space_notMem_encodeAuthCredentials p.1 p.2)
      (List.mem_map.mpr ⟨p, hp, rfl⟩), encodeAuthCredentials, acceptedUser_encode (hvalid p hp).2]
    rfl
  by_cases hex : ∃ scheme, ∃ p ∈ registered body,
      Presents (authorization r) scheme (encodeAuthCredentials p.1 p.2)
  · obtain ⟨scheme, p, hp, hpres⟩ := hex
    have hrun := haccept scheme p hp hpres
    refine ⟨some p.1, none, hrun, iff_of_true rfl ⟨scheme, p, hp, hpres⟩, ?_, ?_⟩
    · intro scheme' q hq hpres'
      have hrun' := haccept scheme' q hq hpres'
      rw [hrun] at hrun'
      exact congrArg Prod.fst (Except.ok.inj hrun')
    · exact fun hne => absurd rfl hne
  · have hnot : ∀ scheme creds,
        Presents (r.header.get (ascii "Proxy-Authorization")) scheme creds → 32 ∉ creds →
        creds ∉ (registered body).map fun p => encodeAuthCredentials p.1 p.2 := by
      intro scheme creds hpres _ hmem
      obtain ⟨p, hp, rfl⟩ := List.mem_map.mp hmem
      exact hex ⟨scheme, p, hp, hpres⟩
    obtain ⟨id, err, hrun, hcolon⟩ := checkCredentials_of_not_presents hnot
    refine ⟨id, some err, hrun, iff_of_false (Option.some_ne_none err) hex, ?_, ?_⟩
    · exact fun scheme p hp hpres => absurd ⟨scheme, p, hp, hpres⟩ hex
    · intro _ name hname
      refine ⟨hcolon name hname, fun p hp heq => ?_⟩
      exact (hvalid p hp).2 (heq ▸ hcolon name hname)

/-- A request that presents a credential under a scheme. -/
def presenting (scheme creds : GoString) : Request where
  method := ascii "GET"
  url := { host := ascii "example.com" }
  proto := ascii "HTTP/1.1"
  protoMajor := 1
  protoMinor := 1
  header := [(ascii "Proxy-Authorization", [scheme ++ 32 :: creds])]
  host := ascii "example.com"

theorem authorization_presenting (scheme creds : GoString) :
    authorization (presenting scheme creds) = scheme ++ 32 :: creds := by
  have hkey : canonicalHeaderKey (ascii "Proxy-Authorization") = ascii "Proxy-Authorization" := by
    decide +kernel
  rw [authorization, Header.get, hkey]
  rfl

/-- `Provision` accepts a configuration that has nothing but credentials, whatever these are. -/
theorem exists_provision_authCredentials (authCredentials : Option (List GoString)) :
    ∃ h, provision { parseURL := .error } { authCredentials } = .ok h := ⟨_, rfl⟩

/-- A password with a colon in it, and a client that writes the scheme in capitals. -/
theorem basicAuth_exact_capitals : ∃ cfg h,
    unmarshalCaddyfile { files := .error, parseDuration := fun _ => none } []
      ([(ascii "user", ascii "a:b")].map basicAuthLine) = .ok cfg ∧
    provision { parseURL := .error } cfg = .ok h ∧
    checkCredentials (h.authCredentials.getD [])
      (presenting (ascii "BASIC") (encodeAuthCredentials (ascii "user") (ascii "a:b"))) =
        .ok (some (ascii "user"), none) := by
  have hcfg : unmarshalCaddyfile { files := .error, parseDuration := fun _ => none } []
      ([(ascii "user", ascii "a:b")].map basicAuthLine) =
      .ok { authCredentials := some [encodeAuthCredentials (ascii "user") (ascii "a:b")] } := rfl
  obtain ⟨h, hprov⟩ := exists_provision_authCredentials
    (some [encodeAuthCredentials (ascii "user") (ascii "a:b")])
  refine ⟨_, h, hcfg, hprov, ?_⟩
  obtain ⟨id, err, hrun, herr, hid, -⟩ := basicAuth_exact hcfg hprov
    (presenting (ascii "BASIC") (encodeAuthCredentials (ascii "user") (ascii "a:b")))
  rw [registered_basicAuthLines] at herr hid
  have hpresents : Presents (authorization (presenting (ascii "BASIC")
      (encodeAuthCredentials (ascii "user") (ascii "a:b")))) (ascii "BASIC")
      (encodeAuthCredentials (ascii "user") (ascii "a:b")) :=
    ⟨authorization_presenting _ _, by decide⟩
  rw [hrun, hid (ascii "BASIC") (ascii "user", ascii "a:b") List.mem_cons_self hpresents,
    herr.mpr ⟨ascii "BASIC", _, List.mem_cons_self, hpresents⟩]

/-! ## The verdict on any credentials -/

/-- **When the check is total.**  With the credentials of a configuration that `Provision` accepts,
the check returns on every request exactly when every credential that a request can present decodes
to something with a colon in it, if only up to the first error. -/
theorem checkCredentials_total_iff {platform : Platform} {cfg : Config} {h : Handler}
    (hprov : provision platform cfg = .ok h) :
    (∀ r, ∃ out, checkCredentials (h.authCredentials.getD []) r = .ok out) ↔
      ∀ creds ∈ cfg.authCredentials.getD [], 32 ∉ creds → colon ∈ (Base64.decode creds).1 := by
  rw [(provision_eq_ok hprov).2.2]
  constructor
  · intro htotal creds hmem hspace
    obtain ⟨out, hout⟩ := htotal (presenting (ascii "Basic") creds)
    have hpres : Presents (authorization (presenting (ascii "Basic") creds))
        (ascii "Basic") creds :=
      ⟨authorization_presenting _ _, by decide⟩
    rw [checkCredentials_of_presents hpres hspace hmem] at hout
    obtain ⟨user, huser, -⟩ := Result.map_eq_ok_iff.mp hout
    exact (exists_acceptedUser_iff creds).mp ⟨user, huser⟩
  · intro hcolon r
    by_cases hex : ∃ scheme creds,
        Presents (r.header.get (ascii "Proxy-Authorization")) scheme creds ∧ 32 ∉ creds ∧
          creds ∈ cfg.authCredentials.getD []
    · obtain ⟨scheme, creds, hpres, hspace, hmem⟩ := hex
      obtain ⟨user, huser⟩ := (exists_acceptedUser_iff creds).mpr (hcolon creds hmem hspace)
      rw [checkCredentials_of_presents hpres hspace hmem, huser]
      exact ⟨_, rfl⟩
    · obtain ⟨id, err, hrun, -⟩ := checkCredentials_of_not_presents
        fun scheme creds hpres hspace hmem => hex ⟨scheme, creds, hpres, hspace, hmem⟩
      exact ⟨_, hrun⟩

/-- What `"auth_credentials": ["dXNlcjpwYXNz"]` leaves in the field: JSON writes bytes in base 64,
so that the user and the password stand there as they are. -/
def plainConfig : Config := { authCredentials := some [ascii "user:pass"] }

/-- The client that presents that credential makes the check run out of range. -/
theorem checkCredentials_plain : ∃ h, provision { parseURL := .error } plainConfig = .ok h ∧
    checkCredentials (h.authCredentials.getD []) (presenting (ascii "Basic") (ascii "user:pass")) =
      .error .sliceBounds := by
  obtain ⟨h, hprov⟩ := exists_provision_authCredentials (some [ascii "user:pass"])
  refine ⟨h, hprov, ?_⟩
  rw [(provision_eq_ok hprov).2.2]
  decide +kernel

/-- With one credential that is well formed the check is total. -/
theorem checkCredentials_total_wellFormed : ∃ h,
    provision { parseURL := .error } { authCredentials := some [ascii "dXNlcjpwYXNz"] } = .ok h ∧
    ∀ r, ∃ out, checkCredentials (h.authCredentials.getD []) r = .ok out := by
  obtain ⟨h, hprov⟩ := exists_provision_authCredentials (some [ascii "dXNlcjpwYXNz"])
  refine ⟨h, hprov, (checkCredentials_total_iff hprov).mpr fun creds hmem _ => ?_⟩
  rw [List.mem_singleton.mp hmem]
  decide +kernel

end Setup
end ForwardProxy
