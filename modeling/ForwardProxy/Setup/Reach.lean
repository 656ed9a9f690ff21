import ForwardProxy.ConnectUdp.Outcome
import ForwardProxy.ConnectUdp.SamePolicy
import ForwardProxy.Dial.Status
import ForwardProxy.Setup.TextualOrder

/-!
# What a configuration lets the proxy reach

The text of a configuration and the addresses that a handler dials are far apart.  In between lie
the walk over the lines, `Provision`, the split of the target, the check of the port, the lookups,
the check of each address, and the text that is handed to the dialer, which the dialer reads again.

`reach_of_text` goes the whole way, for the race of TCP dials and for the dials of CONNECT-UDP: an
address that is dialled has the port of the target, and if it reads as an IP address, then the text
of the configuration permits that address under the name the client asked for, and that port.

It is the address as it is read behind the proxy.  An IPv4 address may come out of a lookup in
either of two forms, which no subject tells apart (`Subject.matches_to16`), and an entry of another
length is written as a text that nobody reads as an address (`Core.parseIP_string_any`).
-/

namespace ForwardProxy
namespace Setup

open ForwardProxy.Core Acl Prog

/-! ## The ports of the text -/

/-- The ports of one line. -/
def Line.ports (line : Line) : List ℤ :=
  if line.words.1 = ascii "ports" then line.words.2.filterMap atoi else []

/-- The ports that the text lists. -/
def textualPorts (body : List Line) : List ℤ := body.flatMap Line.ports

section Ports

variable {env : Env} {args : List GoString} {cfg cfg' : Config}

theorem atoi_of_portArgument {p : GoString} {port : ℤ} (h : portArgument p = .ok port) :
    atoi p = some port := by
  unfold portArgument at h
  split at h
  · split_ifs at h
    cases h
    assumption
  · cases h

/-- The ports that are read are those of the arguments. -/
theorem eq_filterMap_of_mapM_portArgument {ports : List ℤ}
    (h : args.mapM portArgument = .ok ports) : ports = args.filterMap atoi := by
  have hread := Result.forall₂_of_mapM_eq_ok h
  clear h
  induction hread with
  | nil => rfl
  | cons hp _ ih => rw [List.filterMap_cons_some (atoi_of_portArgument hp), ← ih]

/-- `ports` adds the ports of its arguments, and no other subdirective adds any. -/
theorem Sets.allowedPorts {name : GoString} (h : Sets name args cfg cfg') :
    cfg'.allowedPorts =
      cfg.allowedPorts ++ if name = ascii "ports" then args.filterMap atoi else [] := by
  cases h with
  | ports hnone hread hname =>
    rw [if_pos hname, hnone]
    exact eq_filterMap_of_mapM_portArgument hread
  | _ =>
    rename_i hname
    rw [hname, if_neg (by decide), List.append_nil]

theorem allowedPorts_of_unmarshalLine {line : Line} (h : unmarshalLine env cfg line = .ok cfg') :
    cfg'.allowedPorts = cfg.allowedPorts ++ line.ports := by
  unfold unmarshalLine at h
  unfold Line.ports
  by_cases hacl : line.words.1 = ascii "acl"
  · rw [if_pos hacl] at h
    obtain ⟨rules, rfl⟩ := aclBlock_frame h
    rw [if_neg (by rw [hacl]; decide), List.append_nil]
  · rw [if_neg hacl] at h
    obtain ⟨cfg'', hsub, h⟩ := Result.bind_eq_ok_iff.mp h
    split_ifs at h
    rw [← Except.ok.inj h]
    exact (sets_of_subdirective hsub).allowedPorts

/-- **The configured ports are those of the text.** -/
theorem allowedPorts_of_unmarshalCaddyfile {body : List Line}
    (h : unmarshalCaddyfile env args body = .ok cfg) : cfg.allowedPorts = textualPorts body := by
  unfold unmarshalCaddyfile at h
  split_ifs at h
  refine Result.foldlM_history (P := fun body (s : Config) => s.allowedPorts = textualPorts body)
    rfl ?_ h
  intro body s line s' hs hline
  rw [allowedPorts_of_unmarshalLine hline, hs, textualPorts, textualPorts, List.flatMap_append,
    List.flatMap_singleton]

theorem allowedPorts_of_provision {platform : Platform} {h : Handler}
    (hprov : provision platform cfg = .ok h) : h.allowedPorts = cfg.allowedPorts := by
  unfold provision at hprov
  split at hprov
  · cases hprov
  · obtain ⟨aclRules, -, hprov⟩ := Result.bind_eq_ok_iff.mp hprov
    obtain ⟨⟨⟩, -, hprov⟩ := Result.bind_eq_ok_iff.mp hprov
    obtain ⟨upstream, -, hprov⟩ := Result.bind_eq_ok_iff.mp hprov
    cases hprov
    rfl

end Ports

/-! ## What the text permits -/

/-- The text permits the address under the host's name, and the port. -/
structure Permits (env : Env) (body : List Line) (host : GoString) (ip : IP) (port : GoString) :
    Prop where
  /-- The first subject that matches allows; if there is none, no built-in network has the
  address. -/
  address : (((textualSubjects env body).find? (Subject.Matches host ip)).map Subject.allow).getD
    (!builtinDenied ip) = true
  /-- The port is a number in range, and one of those the text lists if it lists any. -/
  port : ∃ n : ℤ, atoi port = some n ∧ 0 < n ∧ n ≤ 65535 ∧
    (textualPorts body = [] ∨ n ∈ textualPorts body)

/-- No subject tells the two forms of an address apart. -/
theorem Subject.matches_to16 {ip ip' : IP} (h : ip.to16 = some ip') (host : GoString)
    (s : Subject) : s.Matches host ip' = s.Matches host ip := by
  simp only [Subject.Matches, contains_congr_to16 _ h]

theorem builtinDenied_to16 {ip ip' : IP} (h : ip.to16 = some ip') :
    builtinDenied ip' = builtinDenied ip := by
  simp only [← any_builtinNets, contains_congr_to16 _ h]

theorem Permits.to16 {env : Env} {body : List Line} {host port : GoString} {ip ip' : IP}
    (h : Permits env body host ip port) (hip : ip.to16 = some ip') :
    Permits env body host ip' port := by
  have hmatches : Subject.Matches host ip' = Subject.Matches host ip :=
    funext (Subject.matches_to16 hip host)
  refine ⟨?_, h.port⟩
  rw [hmatches, builtinDenied_to16 hip]
  exact h.address

/-- What a target has that passes the first stage of the policy. -/
theorem prepareTargetPolicy_eq_none {h : Handler} {hostPort host port : GoString}
    (hpolicy : prepareTargetPolicy h hostPort = (host, port, none)) :
    splitHostPort hostPort = .ok (host, port) ∧ portIsAllowed h port = true := by
  unfold prepareTargetPolicy at hpolicy
  split at hpolicy
  · cases hpolicy
  · split_ifs at hpolicy with hport
    · cases hpolicy
    · rename_i hsplit
      simp only [Prod.mk.injEq] at hpolicy
      obtain ⟨rfl, rfl, -⟩ := hpolicy
      exact ⟨hsplit, by simpa using hport⟩

theorem portIsAllowed_eq_true {h : Handler} {port : GoString}
    (hport : portIsAllowed h port = true) : ∃ n : ℤ, atoi port = some n ∧ 0 < n ∧ n ≤ 65535 ∧
    (h.allowedPorts = [] ∨ n ∈ h.allowedPorts) := by
  unfold portIsAllowed at hport
  split at hport
  · cases hport
  · rename_i n hn
    split_ifs at hport with hrange hnone
    · rw [Bool.or_eq_true, decide_eq_true_iff, decide_eq_true_iff, not_or] at hrange
      exact ⟨n, hn, by omega, by omega, Or.inl (List.length_eq_zero_iff.mp hnone)⟩
    · rw [Bool.or_eq_true, decide_eq_true_iff, decide_eq_true_iff, not_or] at hrange
      exact ⟨n, hn, by omega, by omega, Or.inr (by simpa using hport)⟩

/-! ## What is dialled -/

/-- An address that the handler dials for a target, over TCP or for CONNECT-UDP: in any state of any
race, and in any run of any request. -/
inductive Dials (errText : NetError → GoString) (lib : ConnectUdp.Lib) (h : Handler) :
    GoString → GoString → Prop
  | tcp {network hostPort addr : GoString} {c : Dial.Config} {s : Dial.State}
      (henter : Dial.enter errText h network hostPort = .race c) (hs : Dial.Reaches c s)
      (hmem : addr ∈ s.dials) : Dials errText lib h hostPort addr
  | udp {r : Serve.Request} {target : ConnectUdp.ConnectUDPTarget} {tr : List ConnectUdp.Exchange}
      {res : Serve.Request × Option Serve.ServeError} {addr : GoString}
      (hparse : ConnectUdp.parseConnectUDPTarget lib r = some target)
      (hrun : Runs (ConnectUdp.serveConnectUDP lib h r) tr res)
      (hmem : addr ∈ ConnectUdp.dialled tr) : Dials errText lib h target.hostPort addr

section Reach

variable {errText : NetError → GoString} {lib : ConnectUdp.Lib} {h : Handler}
  {hostPort addr : GoString}

/-- The race is entered behind the first stage of the policy. -/
theorem enter_eq_race {network : GoString} {c : Dial.Config}
    (henter : Dial.enter errText h network hostPort = .race c) :
    c.handler = h ∧ prepareTargetPolicy h hostPort = (c.host, c.port, none) := by
  unfold Dial.enter at henter
  split at henter
  · cases henter
  · split_ifs at henter
    split at henter
    · cases henter
    · rename_i host port hpolicy
      cases henter
      exact ⟨rfl, hpolicy⟩

/-- The addresses of a resolved target are those of entries that the rules allow. -/
theorem exists_entry_of_checkAnswer {host port : GoString} {answer : Dial.Answer}
    {resolved : ConnectUdp.ResolvedTarget}
    (hcheck : ConnectUdp.checkAnswer h host port answer = .ok resolved)
    (hmem : addr ∈ resolved.addresses) :
    ∃ ip, hostIsAllowed h host ip = true ∧ addr = joinHostPort ip.string port := by
  cases answer with
  | error err => cases hcheck
  | ok entries =>
    simp only [ConnectUdp.checkAnswer] at hcheck
    split_ifs at hcheck
    cases hcheck
    obtain ⟨ip, -, hallow, haddr⟩ := ConnectUdp.mem_foldl_resolveEntry.mp hmem
    exact ⟨ip, hallow, haddr⟩

/-- What a run of CONNECT-UDP dials, it has resolved behind the first stage of the policy. -/
theorem exists_entry_of_dialled {r : Serve.Request} {target : ConnectUdp.ConnectUDPTarget}
    {tr : List ConnectUdp.Exchange} {res : Serve.Request × Option Serve.ServeError}
    (hparse : ConnectUdp.parseConnectUDPTarget lib r = some target)
    (hrun : Runs (ConnectUdp.serveConnectUDP lib h r) tr res)
    (hmem : addr ∈ ConnectUdp.dialled tr) :
    ∃ host port ip, prepareTargetPolicy h target.hostPort = (host, port, none) ∧
      hostIsAllowed h host ip = true ∧ addr = joinHostPort ip.string port := by
  obtain ⟨ending, hwhole, -⟩ := ConnectUdp.runs_serveConnectUDP hrun
  cases hwhole with
  | malformed _ | upstream _ _ | limited _ _ => exact absurd hmem List.not_mem_nil
  | denied _ _ _ hrel =>
    exact absurd (hrel.dialled_eq ▸ hmem : addr ∈ []) List.not_mem_nil
  | unresolved _ _ _ _ hrel =>
    exact absurd (hrel.dialled_eq ▸ hmem : addr ∈ []) List.not_mem_nil
  | @resolved target' hparse' _ client a host port hpolicy answer resolved hcheck mid ending
      hmid rel hrel =>
    obtain rfl := Option.some_inj.mp (hparse.symm.trans hparse')
    have hmid' : addr ∈ ConnectUdp.dialled mid := by
      have happend : addr ∈ ConnectUdp.dialled (mid ++ rel) := hmem
      rwa [ConnectUdp.dialled_append, hrel.dialled_eq, List.append_nil] at happend
    obtain ⟨ip, hallow, haddr⟩ :=
      exists_entry_of_checkAnswer hcheck (hmid.dialled_eq.1.subset hmid')
    exact ⟨host, port, ip, hpolicy, hallow, haddr⟩

/-- **Both protocols dial entries that passed both stages of the policy.** -/
theorem Dials.exists_entry (hdial : Dials errText lib h hostPort addr) :
    ∃ host port ip, prepareTargetPolicy h hostPort = (host, port, none) ∧
      hostIsAllowed h host ip = true ∧ addr = joinHostPort ip.string port := by
  cases hdial with
  | tcp henter hs hmem =>
    obtain ⟨rfl, hpolicy⟩ := enter_eq_race henter
    obtain ⟨isV6, answer, -, hcand⟩ := Dial.exists_candidate_of_mem_dials hs hmem
    obtain ⟨addrs, ip, -, -, hallow, -, -, haddr⟩ := Dial.mem_candidates hcand
    exact ⟨_, _, ip, hpolicy, hallow, haddr⟩
  | udp hparse hrun hmem => exact exists_entry_of_dialled hparse hrun hmem

variable {env : Env} {args : List GoString} {body : List Line} {cfg : Config} {platform : Platform}

/-- **From the text to the socket.**  For every configuration that `UnmarshalCaddyfile` and
`Provision` accept: whatever the handler dials, in any state of any race of TCP dials or in any run
of any CONNECT-UDP request, whatever the lookups return, is an address with the port of the target,
and if its host reads as an IP address, the text permits that address, under the host that the
target names, and that port. -/
theorem reach_of_text (hcfg : unmarshalCaddyfile env args body = .ok cfg)
    (hprov : provision platform cfg = .ok h) (hdial : Dials errText lib h hostPort addr) :
    ∃ host port text, splitHostPort hostPort = .ok (host, port) ∧
      splitHostPort addr = .ok (text, port) ∧
      ∀ ip, parseIP text = some ip → Permits env body host ip port := by
  obtain ⟨host, port, entry, hpolicy, hallow, rfl⟩ := hdial.exists_entry
  obtain ⟨hsplit, hport⟩ := prepareTargetPolicy_eq_none hpolicy
  refine ⟨host, port, entry.string, hsplit,
    splitHostPort_string entry (portText_of_splitHostPort hsplit), fun ip hip => ?_⟩
  have hports : h.allowedPorts = textualPorts body :=
    (allowedPorts_of_provision hprov).trans (allowedPorts_of_unmarshalCaddyfile hcfg)
  have hentry : Permits env body host entry port := by
    refine ⟨?_, ?_⟩
    · rw [← hostIsAllowed_eq hcfg hprov, hallow]
    · rw [← hports]
      exact portIsAllowed_eq_true hport
  rw [parseIP_string_any] at hip
  exact hentry.to16 hip

end Reach

/-- The block `ports 443; acl { allow 10.1.2.3 }`. -/
def oneHostBody : List Line :=
  [{ name := ascii "ports", args := [ascii "443"] },
    { name := ascii "acl", block := some [(ascii "allow", [ascii "10.1.2.3"])] }]

/-- The configuration of that block. -/
def oneHostConfig : Config := { allowedPorts := [443], acl := [⟨[ascii "10.1.2.3"], true⟩] }

/-- The race for port 443 of some host. -/
def oneHostRace (h : Handler) : Dial.Config :=
  { handler := h, network := .tcp, host := ascii "target.example", port := ascii "443" }

/-- The lookup returns two addresses of a private network, and one of them is dialled. -/
def oneHostDial : List Dial.Event :=
  [.lookupDone false (.ok [some [10, 1, 2, 4], some [10, 1, 2, 3]]), .resolve false, .pulse false,
    .computeDue, .advance, .checkCtx, .start]

/-- What is dialled is the address that the block allows, and it is in a built-in network. -/
theorem reach_of_text_oneHost :
    ∃ h host port text, unmarshalCaddyfile oneFileEnv [] oneHostBody = .ok oneHostConfig ∧
      provision { parseURL := .error } oneHostConfig = .ok h ∧
      Dials (fun _ => []) ConnectUdp.asciiLib h (ascii "target.example:443")
        (ascii "10.1.2.3:443") ∧
      splitHostPort (ascii "10.1.2.3:443") = .ok (text, port) ∧
      (∀ ip, parseIP text = some ip → Permits oneFileEnv oneHostBody host ip port) ∧
      builtinDenied [10, 1, 2, 3] = true := by
  have hcfg : unmarshalCaddyfile oneFileEnv [] oneHostBody = .ok oneHostConfig := by decide +kernel
  obtain ⟨h, hprov, henter, hruns, hmem⟩ : ∃ h,
      provision { parseURL := .error } oneHostConfig = .ok h ∧
      Dial.enter (fun _ => []) h (ascii "tcp") (ascii "target.example:443") =
        .race (oneHostRace h) ∧
      (runFrom (Dial.step (oneHostRace h)) (Dial.init 0) oneHostDial).isSome = true ∧
      ascii "10.1.2.3:443" ∈ (Dial.stateAfter (oneHostRace h) oneHostDial).dials :=
    ⟨_, rfl, rfl, by decide +kernel, by decide +kernel⟩
  have hdial : Dials (fun _ => []) ConnectUdp.asciiLib h (ascii "target.example:443")
      (ascii "10.1.2.3:443") := .tcp henter (Dial.reaches_stateAfter hruns) hmem
  obtain ⟨host, port, text, -, hread, hpermits⟩ := reach_of_text hcfg hprov hdial
  exact ⟨h, host, port, text, hcfg, hprov, hdial, hread, hpermits, by decide⟩

end Setup
end ForwardProxy
