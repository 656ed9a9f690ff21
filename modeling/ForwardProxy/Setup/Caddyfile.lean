import ForwardProxy.Acl.Rule
import ForwardProxy.Core.Base64
import ForwardProxy.Core.Result

/-!
# The Caddyfile directive (`caddyfile.go`)

`UnmarshalCaddyfile` walks over the lines of a `forward_proxy` block.  A line is a name and its
arguments, and may open a block of its own at its end; the walk over tokens, which is the business
of the Caddyfile library, is replaced by a walk over lines.  Two habits of that walk show:

* the brace that opens a block where none is expected is taken for the next subdirective, which no
  one knows;
* `acl` does not look at its arguments, so that the rest of its line is read as a line of its own.

The configuration is the handler before `Provision`.  What comes from outside is the content of
files and the reading of durations (`Env`).
-/

namespace ForwardProxy
namespace Setup

open ForwardProxy.Core Acl

/-- The fields of `Handler` that a configuration sets. -/
structure Config where
  hosts : List GoString := []
  allowedPorts : List ℤ := []
  hideIP : Bool := false
  hideVia : Bool := false
  disableInsecureUpstreamsCheck : Bool := false
  /-- `ProbeResistance`: nil, or its secret domain. -/
  probeResistance : Option GoString := none
  pacPath : GoString := []
  dialTimeout : ℤ := 0
  maxIdleConns : ℤ := 0
  maxIdleConnsPerHost : ℤ := 0
  upstream : GoString := []
  acl : List ACLRule := []
  /-- `AuthCredentials`: nil, or the base 64 forms of the credentials. -/
  authCredentials : Option (List GoString) := none
  deriving DecidableEq, Repr

/-- The errors of `UnmarshalCaddyfile`. -/
inductive ConfigError where
  /-- `d.ArgErr`. -/
  | argErr
  /-- `d.Err` and `d.Errf`. -/
  | err (text : GoString)
  /-- An error of a file, as it is. -/
  | file (text : GoString)
  deriving DecidableEq, Repr

/-- What the configuration is read with. -/
structure Env where
  /-- Opening a file under its cleaned name: an error, or the bytes that are read and the error that
  ends the reading before the end of the file, if any. -/
  files : GoString → Except GoString (GoString × Option GoString)
  /-- `caddy.ParseDuration`, in nanoseconds. -/
  parseDuration : GoString → Option ℤ

/-- A line of the block. -/
structure Line where
  name : GoString
  args : List GoString := []
  /-- The lines of the block that this one opens. -/
  block : Option (List (GoString × List GoString)) := none
  deriving DecidableEq, Repr

/-! ## Files -/

/-- The token of `bufio.ScanLines`: without the carriage return at its end. -/
def dropCR (line : GoString) : GoString := if line.getLast? = some 13 then line.dropLast else line

/-- The lines of a text; behind the last line feed there is a line only if it is not empty. -/
def textLines (content : GoString) : List GoString :=
  let lines := split content 10
  if lines.getLast? = some [] then lines.dropLast else lines

/-- `readLinesFromFile`.  A line that does not fit into the buffer of the scanner with its line
feed is an error. -/
def readLinesFromFile (env : Env) (filename : GoString) : Except ConfigError (List GoString) :=
  match env.files filename with
  | .error err => .error (.file err)
  | .ok (content, err) =>
    let lines := textLines content
    if lines.any fun line => 65536 ≤ line.length then
      .error (.file (ascii "bufio.Scanner: token too long"))
    else match err with
      | some err => .error (.file err)
      | none => .ok (lines.map dropCR)

/-! ## `acl` -/

/-- One line of an `acl` block. -/
def aclDirective (env : Env) (name : GoString) (args : List GoString) :
    Except ConfigError ACLRule :=
  if args.length = 0 then .error .argErr
  else if name = ascii "allow" then .ok ⟨args, true⟩
  else if name = ascii "allow_file" then
    if args.length ≠ 1 then .error (.err (ascii "allowfile accepts a single filename argument"))
    else (readLinesFromFile env (args.headD [])).map fun ruleSubjects => ⟨ruleSubjects, true⟩
  else if name = ascii "deny" then .ok ⟨args, false⟩
  else if name = ascii "deny_file" then
    if args.length ≠ 1 then .error (.err (ascii "denyfile accepts a single filename argument"))
    else (readLinesFromFile env (args.headD [])).map fun ruleSubjects => ⟨ruleSubjects, false⟩
  else .error (.err (ascii "expected acl directive: allow/allowfile/deny/denyfile." ++
    ascii "got: " ++ name))

/-- The loop over an `acl` block. -/
def aclBlock (env : Env) (cfg : Config) (lines : List (GoString × List GoString)) :
    Except ConfigError Config :=
  lines.foldlM (fun cfg line => do
    let ar ← aclDirective env line.1 line.2
    return { cfg with acl := cfg.acl ++ [ar] }) cfg

/-! ## The other subdirectives -/

/-- `EncodeAuthCredentials`. -/
def encodeAuthCredentials (user pass : GoString) : GoString := Base64.encode
    (user ++ [colon] ++ pass)

/-- `basic_auth`. -/
def basicAuth (args : List GoString) (cfg : Config) : Except ConfigError Config :=
  match args with
  | [user, pass] =>
    if user.length = 0 then .error (.err (ascii "empty usernames are not allowed"))
    else if colon ∈ user then .error (.err (ascii "character ':' in usernames is not allowed"))
    else
      let authCredentials := cfg.authCredentials.getD [] ++ [encodeAuthCredentials user pass]
      .ok { cfg with authCredentials := some authCredentials }
  | _ => .error .argErr

/-- `hosts`. -/
def hosts (args : List GoString) (cfg : Config) : Except ConfigError Config :=
  if args.length = 0 then .error .argErr
  else if cfg.hosts.length ≠ 0 then .error (.err (ascii "hosts subdirective specified twice"))
  else .ok { cfg with hosts := args }

/-- One argument of `ports`. -/
def portArgument (p : GoString) : Except ConfigError ℤ :=
  match atoi p with
  | some intPort =>
    if intPort ≤ 0 ∨ 65535 < intPort then .error (.err (badPort p)) else .ok intPort
  | none => .error (.err (badPort p))
where
  badPort (p : GoString) : GoString :=
    ascii "ports are expected to be space-separated and in 0-65535 range, but got: " ++ p

/-- `ports`. -/
def ports (args : List GoString) (cfg : Config) : Except ConfigError Config :=
  if args.length = 0 then .error .argErr
  else if cfg.allowedPorts.length ≠ 0 then
    .error (.err (ascii "ports subdirective specified twice"))
  else (args.mapM portArgument).map fun ports => { cfg with allowedPorts := ports }

/-- `hide_ip`, `hide_via` and `disable_insecure_upstreams_check`. -/
def flag (set : Config → Config) (args : List GoString) (cfg : Config) :
    Except ConfigError Config :=
  if args.length ≠ 0 then .error .argErr else .ok (set cfg)

/-- `probe_resistance`.  A secret domain in upper case is only warned of. -/
def probeResistance (args : List GoString) (cfg : Config) : Except ConfigError Config :=
  match args with
  | [] => .ok { cfg with probeResistance := some [] }
  | [domain] => .ok { cfg with probeResistance := some domain }
  | _ => .error .argErr

/-- `serve_pac`. -/
def servePac (args : List GoString) (cfg : Config) : Except ConfigError Config :=
  if 1 < args.length then .error .argErr
  else if cfg.pacPath.length ≠ 0 then .error (.err (ascii "serve_pac subdirective specified twice"))
  else match args with
    | path :: _ =>
      .ok { cfg with pacPath := if path.head? = some slash then path else slash :: path }
    | [] => .ok { cfg with pacPath := ascii "/proxy.pac" }

/-- `dial_timeout`. -/
def dialTimeout (env : Env) (args : List GoString) (cfg : Config) : Except ConfigError Config :=
  match args with
  | [arg] =>
    match env.parseDuration arg with
    | some timeout =>
      if timeout < 0 then .error (.err (ascii "dial_timeout cannot be negative."))
      else .ok { cfg with dialTimeout := timeout }
    | none => .error .argErr
  | _ => .error .argErr

/-- `max_idle_conns` and `max_idle_conns_per_host`. -/
def number (set : ℤ → Config → Config) (args : List GoString) (cfg : Config) :
    Except ConfigError Config :=
  match args with
  | [arg] =>
    match atoi arg with
    | some val => .ok (set val cfg)
    | none => .error .argErr
  | _ => .error .argErr

/-- `upstream`. -/
def upstream (args : List GoString) (cfg : Config) : Except ConfigError Config :=
  match args with
  | [arg] =>
    if cfg.upstream ≠ [] then .error (.err (ascii "upstream directive specified more than once"))
    else .ok { cfg with upstream := arg }
  | _ => .error .argErr

/-- The subdirectives other than `acl`. -/
def subdirective (env : Env) (name : GoString) (args : List GoString) (cfg : Config) :
    Except ConfigError Config :=
  if name = ascii "basic_auth" then basicAuth args cfg
  else if name = ascii "hosts" then hosts args cfg
  else if name = ascii "ports" then ports args cfg
  else if name = ascii "hide_ip" then flag (fun cfg => { cfg with hideIP := true }) args cfg
  else if name = ascii "hide_via" then flag (fun cfg => { cfg with hideVia := true }) args cfg
  else if name = ascii "disable_insecure_upstreams_check" then
    flag (fun cfg => { cfg with disableInsecureUpstreamsCheck := true }) args cfg
  else if name = ascii "probe_resistance" then probeResistance args cfg
  else if name = ascii "serve_pac" then servePac args cfg
  else if name = ascii "dial_timeout" then dialTimeout env args cfg
  else if name = ascii "max_idle_conns" then
    number (fun val cfg => { cfg with maxIdleConns := val }) args cfg
  else if name = ascii "max_idle_conns_per_host" then
    number (fun val cfg => { cfg with maxIdleConnsPerHost := val }) args cfg
  else if name = ascii "upstream" then upstream args cfg
  else .error .argErr

/-! ### What a subdirective does -/

/-- What a subdirective other than `acl` does to the configuration: it sets one field.  Of what it
takes from its arguments, only what is used elsewhere is said. -/
inductive Sets (name : GoString) (args : List GoString) (cfg : Config) : Config → Prop
  | basicAuth {user pass : GoString} (hargs : args = [user, pass]) (hne : user ≠ [])
      (hcolon : colon ∉ user) (hname : name = ascii "basic_auth") : Sets name args cfg { cfg with
        authCredentials := some (cfg.authCredentials.getD [] ++ [encodeAuthCredentials user pass]) }
  | ports {ports : List ℤ} (hnone : cfg.allowedPorts = [])
      (hread : args.mapM portArgument = .ok ports) (hname : name = ascii "ports") :
      Sets name args cfg { cfg with allowedPorts := ports }
  | hosts (hosts : List GoString) (hname : name = ascii "hosts") :
      Sets name args cfg { cfg with hosts := hosts }
  | hideIP (hname : name = ascii "hide_ip") : Sets name args cfg { cfg with hideIP := true }
  | hideVia (hname : name = ascii "hide_via") : Sets name args cfg { cfg with hideVia := true }
  | disableInsecureUpstreamsCheck (hname : name = ascii "disable_insecure_upstreams_check") :
      Sets name args cfg { cfg with disableInsecureUpstreamsCheck := true }
  | probeResistance (domain : GoString) (hname : name = ascii "probe_resistance") :
      Sets name args cfg { cfg with probeResistance := some domain }
  | pacPath (path : GoString) (hname : name = ascii "serve_pac") :
      Sets name args cfg { cfg with pacPath := path }
  | dialTimeout (timeout : ℤ) (hname : name = ascii "dial_timeout") :
      Sets name args cfg { cfg with dialTimeout := timeout }
  | maxIdleConns (val : ℤ) (hname : name = ascii "max_idle_conns") :
      Sets name args cfg { cfg with maxIdleConns := val }
  | maxIdleConnsPerHost (val : ℤ) (hname : name = ascii "max_idle_conns_per_host") :
      Sets name args cfg { cfg with maxIdleConnsPerHost := val }
  | upstream (url : GoString) (hname : name = ascii "upstream") :
      Sets name args cfg { cfg with upstream := url }

section Sets

variable {env : Env} {name : GoString} {args : List GoString} {cfg cfg' : Config}

theorem flag_eq_ok {set : Config → Config} (h : flag set args cfg = .ok cfg') : cfg' = set cfg := by
  unfold flag at h
  split_ifs at h
  exact (Except.ok.inj h).symm

theorem number_eq_ok {set : ℤ → Config → Config} (h : number set args cfg = .ok cfg') :
    ∃ val, cfg' = set val cfg := by
  unfold number at h
  split at h
  · split at h
    · exact ⟨_, (Except.ok.inj h).symm⟩
    · cases h
  · cases h

theorem sets_of_basicAuth (hname : name = ascii "basic_auth") (h : basicAuth args cfg = .ok cfg') :
    Sets name args cfg cfg' := by
  unfold basicAuth at h
  split at h
  · split_ifs at h with hempty hcolon
    cases h
    exact .basicAuth rfl (fun hnil => hempty (by rw [hnil]; rfl)) hcolon hname
  · cases h

theorem sets_of_hosts (hname : name = ascii "hosts") (h : hosts args cfg = .ok cfg') :
    Sets name args cfg cfg' := by
  unfold hosts at h
  split_ifs at h
  cases h
  exact .hosts args hname

theorem sets_of_ports (hname : name = ascii "ports") (h : ports args cfg = .ok cfg') :
    Sets name args cfg cfg' := by
  unfold ports at h
  split_ifs at h with hargs htwice
  obtain ⟨ports, hports, rfl⟩ := Result.map_eq_ok_iff.mp h
  exact .ports (List.length_eq_zero_iff.mp (not_not.mp htwice)) hports hname

theorem sets_of_probeResistance (hname : name = ascii "probe_resistance")
    (h : probeResistance args cfg = .ok cfg') : Sets name args cfg cfg' := by
  unfold probeResistance at h
  split at h
  · cases h
    exact .probeResistance [] hname
  · cases h
    exact .probeResistance _ hname
  · cases h

theorem sets_of_servePac (hname : name = ascii "serve_pac") (h : servePac args cfg = .ok cfg') :
    Sets name args cfg cfg' := by
  unfold servePac at h
  split_ifs at h
  split at h
  · cases h
    exact .pacPath _ hname
  · cases h
    exact .pacPath _ hname

theorem sets_of_dialTimeout (hname : name = ascii "dial_timeout")
    (h : dialTimeout env args cfg = .ok cfg') : Sets name args cfg cfg' := by
  unfold dialTimeout at h
  split at h
  · split at h
    · split_ifs at h
      cases h
      exact .dialTimeout _ hname
    · cases h
  · cases h

theorem sets_of_upstream (hname : name = ascii "upstream") (h : upstream args cfg = .ok cfg') :
    Sets name args cfg cfg' := by
  unfold upstream at h
  split at h
  · split_ifs at h
    cases h
    exact .upstream _ hname
  · cases h

/-- **One subdirective.** -/
theorem sets_of_subdirective : subdirective env name args cfg = .ok cfg' →
    Sets name args cfg cfg' := by
  unfold subdirective
  refine Result.of_ite_eq_ok sets_of_basicAuth ?_
  refine Result.of_ite_eq_ok sets_of_hosts ?_
  refine Result.of_ite_eq_ok sets_of_ports ?_
  refine Result.of_ite_eq_ok (fun hname h => flag_eq_ok h ▸ .hideIP hname) ?_
  refine Result.of_ite_eq_ok (fun hname h => flag_eq_ok h ▸ .hideVia hname) ?_
  refine Result.of_ite_eq_ok
    (fun hname h => flag_eq_ok h ▸ .disableInsecureUpstreamsCheck hname) ?_
  refine Result.of_ite_eq_ok sets_of_probeResistance ?_
  refine Result.of_ite_eq_ok sets_of_servePac ?_
  refine Result.of_ite_eq_ok sets_of_dialTimeout ?_
  refine Result.of_ite_eq_ok (fun hname h => ?_) ?_
  · obtain ⟨val, rfl⟩ := number_eq_ok h
    exact .maxIdleConns val hname
  refine Result.of_ite_eq_ok (fun hname h => ?_) ?_
  · obtain ⟨val, rfl⟩ := number_eq_ok h
    exact .maxIdleConnsPerHost val hname
  refine Result.of_ite_eq_ok sets_of_upstream ?_
  rintro ⟨⟩

/-- No subdirective but `acl` changes the rules. -/
theorem Sets.acl (h : Sets name args cfg cfg') : cfg'.acl = cfg.acl := by
  cases h <;> rfl

/-- `basic_auth` adds a credential, and no other subdirective changes the credentials. -/
theorem Sets.authCredentials (h : Sets name args cfg cfg') :
    (name ≠ ascii "basic_auth" ∧ cfg'.authCredentials = cfg.authCredentials) ∨
      ∃ user pass, name = ascii "basic_auth" ∧ args = [user, pass] ∧ user ≠ [] ∧ colon ∉ user ∧
        cfg'.authCredentials =
          some (cfg.authCredentials.getD [] ++ [encodeAuthCredentials user pass]) := by
  cases h with
  | @basicAuth user pass hargs hne hcolon hname =>
    exact Or.inr ⟨user, pass, hname, hargs, hne, hcolon, rfl⟩
  | _ =>
    rename_i hname
    exact Or.inl ⟨by rw [hname]; decide, rfl⟩

/-- An `acl` block adds rules only. -/
theorem aclBlock_frame {lines : List (GoString × List GoString)}
    (h : aclBlock env cfg lines = .ok cfg') : ∃ rules, cfg' = { cfg with acl := rules } := by
  refine Result.foldlM_history (P := fun _ (s : Config) => ∃ rules, s = { cfg with acl := rules })
    ⟨cfg.acl, rfl⟩ ?_ h
  rintro lines s line s' ⟨rules, rfl⟩ hline
  obtain ⟨ar, -, hline⟩ := Result.bind_eq_ok_iff.mp hline
  exact ⟨_, (Except.ok.inj hline).symm⟩

end Sets

/-! ## The walk over the block -/

/-- A line, with the words of it that `acl` passes over. -/
def skipAcl : GoString → List GoString → GoString × List GoString
  | name, [] => (name, [])
  | name, arg :: args => if name = ascii "acl" then skipAcl arg args else (name, arg :: args)

/-- The subdirective of a line and its arguments. -/
def Line.words (line : Line) : GoString × List GoString := skipAcl line.name line.args

/-- One line of the `forward_proxy` block. -/
def unmarshalLine (env : Env) (cfg : Config) (line : Line) : Except ConfigError Config :=
  if line.words.1 = ascii "acl" then aclBlock env cfg (line.block.getD [])
  else do
    let cfg ← subdirective env line.words.1 line.words.2 cfg
    if line.block.isSome then .error .argErr else .ok cfg

/-- `UnmarshalCaddyfile`: the arguments of the directive, and the lines of its block. -/
def unmarshalCaddyfile (env : Env) (args : List GoString) (body : List Line) :
    Except ConfigError Config :=
  if 0 < args.length then .error .argErr
  else body.foldlM (unmarshalLine env) {}

end Setup
end ForwardProxy
