import ForwardProxy.Acl.Policy
import ForwardProxy.Core.Networks
import ForwardProxy.Core.Result
import ForwardProxy.Setup.Provision

/-!
# The rules are tried in the order of the text

The documentation promises that a host and an address are checked against the directives of an `acl`
block in order, until one of them matches.  Between the text and the loop of `hostIsAllowed` lie two
nested lists: `UnmarshalCaddyfile` makes a rule with several subjects from each directive, reading
some of them from files, and `Provision` makes a matcher from each subject and appends the defaults.

`textualSubjects` is the order of the text: the subjects of all directives, arguments and lines of
files one after another.  `Subject.Matches` says of the text of a subject which hosts and addresses
it is about.  It reads the text as a network by `subjectNet` and compares names by `domainMatches`,
as the matchers do, so that what is shown here is the order, not what a single subject means.

## Main results

* `hostIsAllowed_textual`: `hostIsAllowed` takes the decision of the first subject in the order of
  the text that matches, and of the built-in networks if there is none; the loop always ends at a
  rule that matches.
-/

namespace ForwardProxy
namespace Setup

open ForwardProxy.Core Acl

/-! ## The order of the text -/

/-- A subject, with what its directive does. -/
structure Subject where
  text : GoString
  allow : Bool
  deriving DecidableEq, Repr

/-- The lines of a file, whatever becomes of reading it. -/
def fileLines (env : Env) (filename : GoString) : List GoString :=
  match env.files filename with
  | .error _ => []
  | .ok (content, _) => (textLines content).map dropCR

/-- The subjects of one line of an `acl` block. -/
def directiveSubjects (env : Env) (line : GoString × List GoString) : List Subject :=
  if line.1 = ascii "allow" then line.2.map (⟨·, true⟩)
  else if line.1 = ascii "allow_file" then (fileLines env (line.2.headD [])).map (⟨·, true⟩)
  else if line.1 = ascii "deny" then line.2.map (⟨·, false⟩)
  else if line.1 = ascii "deny_file" then (fileLines env (line.2.headD [])).map (⟨·, false⟩)
  else []

/-- The lines of the `acl` block that a line opens. -/
def Line.aclLines (line : Line) : List (GoString × List GoString) :=
  if line.words.1 = ascii "acl" then line.block.getD [] else []

/-- All subjects, in the order of the text. -/
def textualSubjects (env : Env) (body : List Line) : List Subject :=
  body.flatMap fun line => line.aclLines.flatMap (directiveSubjects env)

/-- Whether a subject is about the host or the address. -/
def Subject.Matches (host : GoString) (ip : IP) (s : Subject) : Bool :=
  if s.text = ascii "all" then true
  else match subjectNet s.text with
    | some net => net.contains ip
    | none =>
      if (ascii "*.").isPrefixOf s.text then domainMatches (s.text.drop 2) true host
      else domainMatches s.text false host

/-- The networks that are denied by default: 10/8, 127/8, 172.16/12 and 192.168/16, and of the
longer addresses `::1` and `fe80::/10`. -/
def builtinDenied (ip : IP) : Bool :=
  match ip.short with
  | [a, b, _, _] => a = 10 || a = 127 || (a = 172 && 16 ≤ b && b < 32) || (a = 192 && b = 168)
  | a :: b :: x =>
    (a :: b :: x).length = 16 &&
      (a :: b :: x = List.replicate 15 0 ++ [1] || (a = 0xFE && 0x80 ≤ b && b < 0xC0))
  | _ => false

/-! ## From the text to the configuration -/

/-- The subjects of a configured rule. -/
def ruleSubjects (rule : ACLRule) : List Subject := rule.subjects.map (⟨·, rule.allow⟩)

theorem readLinesFromFile_eq_ok {env : Env} {filename : GoString} {lines : List GoString}
    (h : readLinesFromFile env filename = .ok lines) : fileLines env filename = lines := by
  unfold readLinesFromFile at h
  unfold fileLines
  cases hfile : env.files filename with
  | error err =>
    rw [hfile] at h
    cases h
  | ok r =>
    obtain ⟨content, err⟩ := r
    rw [hfile] at h
    dsimp only at h ⊢
    split_ifs at h
    cases err with
    | some err => cases h
    | none => exact Except.ok.inj h

/-- A directive that is accepted becomes a rule with its subjects. -/
theorem ruleSubjects_of_aclDirective {env : Env} {name : GoString} {args : List GoString}
    {ar : ACLRule} (h : aclDirective env name args = .ok ar) :
    ruleSubjects ar = directiveSubjects env (name, args) := by
  have hfile : ∀ allow, (readLinesFromFile env (args.headD [])).map (⟨·, allow⟩) = .ok ar →
      ruleSubjects ar = (fileLines env (args.headD [])).map (⟨·, allow⟩) := by
    intro allow hread
    obtain ⟨lines, hlines, rfl⟩ := Result.map_eq_ok_iff.mp hread
    rw [readLinesFromFile_eq_ok hlines, ruleSubjects]
  unfold aclDirective at h
  unfold directiveSubjects
  dsimp only
  split_ifs at h ⊢
  · cases h
    rfl
  · exact hfile true h
  · cases h
    rfl
  · exact hfile false h

/-- The `acl` block appends its rules. -/
theorem acl_of_aclBlock {env : Env} {cfg cfg' : Config} {lines : List (GoString × List GoString)}
    (h : aclBlock env cfg lines = .ok cfg') :
    cfg'.acl.flatMap ruleSubjects = cfg.acl.flatMap ruleSubjects ++
      lines.flatMap (directiveSubjects env) := by
  refine Result.foldlM_history (P := fun lines (s : Config) =>
    s.acl.flatMap ruleSubjects = cfg.acl.flatMap ruleSubjects ++
      lines.flatMap (directiveSubjects env)) (by simp) ?_ h
  rintro lines s ⟨name, args⟩ s' hacl hs
  obtain ⟨ar, har, hs⟩ := Result.bind_eq_ok_iff.mp hs
  rw [← Except.ok.inj hs]
  rw [List.flatMap_append, List.flatMap_append, hacl, List.append_assoc, List.flatMap_singleton,
    List.flatMap_singleton, ruleSubjects_of_aclDirective har]

theorem acl_of_unmarshalLine {env : Env} {cfg cfg' : Config} {line : Line}
    (h : unmarshalLine env cfg line = .ok cfg') :
    cfg'.acl.flatMap ruleSubjects =
      cfg.acl.flatMap ruleSubjects ++ line.aclLines.flatMap (directiveSubjects env) := by
  unfold unmarshalLine at h
  unfold Line.aclLines
  by_cases hacl : line.words.1 = ascii "acl"
  · rw [if_pos hacl] at h ⊢
    exact acl_of_aclBlock h
  · rw [if_neg hacl] at h ⊢
    obtain ⟨cfg'', hsub, h⟩ := Result.bind_eq_ok_iff.mp h
    split_ifs at h
    rw [← Except.ok.inj h, List.flatMap_nil, List.append_nil, (sets_of_subdirective hsub).acl]

/-- **The configured rules have the subjects of the text, in its order.** -/
theorem acl_of_unmarshalCaddyfile {env : Env} {args : List GoString} {body : List Line}
    {cfg : Config} (h : unmarshalCaddyfile env args body = .ok cfg) :
    cfg.acl.flatMap ruleSubjects = textualSubjects env body := by
  unfold unmarshalCaddyfile at h
  split_ifs at h
  refine Result.foldlM_history (P := fun body (s : Config) =>
    s.acl.flatMap ruleSubjects = textualSubjects env body) rfl ?_ h
  intro body s line s' hs hline
  rw [acl_of_unmarshalLine hline, hs, textualSubjects, textualSubjects, List.flatMap_append,
    List.flatMap_singleton]

/-! ## From the configuration to the matchers -/

/-- The matcher that is made from a subject takes the decision of the directive exactly when the
subject matches. -/
theorem tryMatch_of_newACLRule {s : Subject} {rule : AclRule}
    (h : newACLRule s.text s.allow = .ok rule) (host : GoString) (ip : IP) :
    rule.tryMatch (some ip) host =
      if s.Matches host ip then Decision.ofAllow s.allow else .noMatch := by
  unfold newACLRule at h
  unfold Subject.Matches
  by_cases hall : s.text = ascii "all"
  · rw [if_pos hall] at h ⊢
    cases h
    rfl
  · rw [if_neg hall] at h ⊢
    cases hnet : subjectNet s.text with
    | some net =>
      rw [hnet] at h
      cases h
      rfl
    | none =>
      rw [hnet] at h
      dsimp only at h ⊢
      split at h
      · cases h
      · cases h
        cases (ascii "*.").isPrefixOf s.text <;> rfl

/-- One list of matchers for each directive, in the same order. -/
theorem forall₂_flatten {acl : List ACLRule} {lists : List (List AclRule)}
    (h : List.Forall₂ (fun rule list => directiveRules rule = .ok list) acl lists) :
    List.Forall₂ (fun (s : Subject) rule => newACLRule s.text s.allow = .ok rule)
      (acl.flatMap ruleSubjects) lists.flatten := by
  induction h with
  | nil => exact .nil
  | @cons rule list acl lists hrule _ ih =>
    rw [List.flatMap_cons, List.flatten_cons]
    refine List.rel_append ?_ ih
    rw [ruleSubjects, List.forall₂_map_left_iff]
    exact Result.forall₂_of_mapM_eq_ok hrule

/-- The rules that `Provision` builds: a matcher for each configured subject, the networks that are
denied, and a rule that allows everything. -/
theorem exists_of_provisionACL {acl : List ACLRule} {rules : List AclRule}
    (h : provisionACL acl = .ok rules) :
    ∃ configured denied, rules = configured ++ (denied ++ [.all true]) ∧
      List.Forall₂ (fun (s : Subject) rule => newACLRule s.text s.allow = .ok rule)
        (acl.flatMap ruleSubjects) configured ∧
      defaultDenied.mapM (fun ipDeny => newACLRule ipDeny false) = .ok denied := by
  obtain ⟨lists, hlists, h⟩ := Result.bind_eq_ok_iff.mp h
  obtain ⟨denied, hdenied, h⟩ := Result.bind_eq_ok_iff.mp h
  refine ⟨lists.flatten, denied, ?_, forall₂_flatten (Result.forall₂_of_mapM_eq_ok hlists), hdenied⟩
  rw [← Except.ok.inj h, List.append_assoc]

/-! ## The loop -/

/-- The loop over the matchers of some subjects, and what follows when none of them matches. -/
theorem rulesAllow_append {subjects : List Subject} {configured : List AclRule}
    (h : List.Forall₂ (fun (s : Subject) rule => newACLRule s.text s.allow = .ok rule) subjects
      configured) (rest : List AclRule) (host : GoString) (ip : IP) :
    rulesAllow (configured ++ rest) host (some ip) =
      ((subjects.find? (Subject.Matches host ip)).map Subject.allow).getD
        (rulesAllow rest host (some ip)) := by
  induction h with
  | nil => rfl
  | @cons s rule subjects configured hrule _ ih =>
    rw [List.cons_append, rulesAllow, tryMatch_of_newACLRule hrule, ih]
    cases hmatch : s.Matches host ip with
    | false => rw [List.find?_cons_of_neg (by simp [hmatch])]; rfl
    | true =>
      rw [List.find?_cons_of_pos hmatch]
      cases hallow : s.allow <;> simp [Decision.ofAllow, hallow]

/-- A rule that matches is found by the loop, or one in front of it is. -/
theorem exists_firstMatch {rules : List AclRule} {rule : AclRule} {host : GoString} {ip : IP}
    (hmem : rule ∈ rules) (hmatch : rule.tryMatch (some ip) host ≠ .noMatch) :
    ∃ d, FirstMatch rules host ip d := by
  induction rules with
  | nil => cases hmem
  | cons q rules ih =>
    by_cases hq : q.tryMatch (some ip) host = .noMatch
    · rcases List.mem_cons.mp hmem with rfl | hin
      · exact absurd hq hmatch
      · obtain ⟨d, hd⟩ := ih hin
        exact ⟨d, (firstMatch_cons_of_noMatch hq).mpr hd⟩
    · exact ⟨_, (firstMatch_cons_of_match hq).mpr rfl⟩

/-! ## The built-in networks -/

/-- The networks of `defaultDenied`. -/
def builtinNets : List IPNet :=
  [⟨[10, 0, 0, 0], [255, 0, 0, 0]⟩, ⟨[127, 0, 0, 0], [255, 0, 0, 0]⟩,
    ⟨[172, 16, 0, 0], [255, 240, 0, 0]⟩, ⟨[192, 168, 0, 0], [255, 255, 0, 0]⟩,
    ⟨List.replicate 15 0 ++ [1], List.replicate 16 255⟩,
    ⟨0xFE :: 0x80 :: List.replicate 14 0, 255 :: 192 :: List.replicate 14 0⟩]

theorem mapM_defaultDenied : defaultDenied.mapM (fun ipDeny => newACLRule ipDeny false) =
    .ok (builtinNets.map (.ip · false)) := by decide

/-- A run of denied networks, and then everything allowed. -/
theorem rulesAllow_denied (nets : List IPNet) (host : GoString) (ip : IP) :
    rulesAllow (nets.map (.ip · false) ++ [.all true]) host (some ip) =
      !nets.any (·.contains ip) := by
  induction nets with
  | nil => rfl
  | cons net nets ih =>
    rw [List.map_cons, List.cons_append, rulesAllow, AclRule.tryMatch, Option.getD_some,
      List.any_cons, Bool.not_or, ← ih]
    cases net.contains ip <;> rfl

/-- An address has the bits of a network number under a mask, byte by byte. -/
def covers : List UInt8 → List UInt8 → List UInt8 → Bool
  | n :: nn, m :: mm, a :: x => n &&& m == a &&& m && covers nn mm x
  | [], [], [] => true
  | _, _, _ => false

theorem covers_eq {nn m : List UInt8} (h : m.length = nn.length) (x : List UInt8) :
    covers nn m x = (x.length = nn.length &&
      (List.zipWith (· &&& ·) nn m == List.zipWith (· &&& ·) x m)) := by
  induction nn, m, x using covers.induct with
  | case1 n nn m mm a x ih =>
    rw [covers, ih (by simpa using h), Bool.eq_iff_iff]
    simp [and_left_comm]
  | case2 => rfl
  | case3 nn m x hcons hnil =>
    match nn, m, x with
    | n :: nn, m :: mm, a :: x => exact absurd rfl (hcons n nn m mm a x rfl rfl)
    | [], [], [] => exact absurd rfl (hnil rfl rfl)
    | n :: nn, m :: mm, [] => simp [covers]
    | [], [], a :: x => simp [covers]
    | [], m :: mm, _ => simp at h
    | n :: nn, [], _ => simp at h

/-- Under a mask of zeros every address of that length agrees. -/
theorem covers_replicate_zero (n : ℕ) (x : List UInt8) :
    covers (List.replicate n 0) (List.replicate n 0) x = decide (x.length = n) := by
  induction n generalizing x with
  | zero => cases x <;> simp [covers]
  | succ n ih => cases x <;> simp [List.replicate_succ, covers, ih]

/-- Under a mask of ones only the number itself does. -/
theorem covers_replicate_full (nn x : List UInt8) :
    covers nn (List.replicate nn.length 255) x = decide (x = nn) := by
  induction nn generalizing x with
  | nil => cases x <;> simp [covers]
  | cons n nn ih =>
    cases x with
    | nil => simp [List.replicate_succ, covers]
    | cons a x =>
      rw [List.length_cons, List.replicate_succ, covers, ih, and_full, and_full, Bool.eq_iff_iff,
        Bool.and_eq_true, beq_iff_eq, decide_eq_true_iff, decide_eq_true_iff, List.cons.injEq]
      exact and_congr_left' eq_comm

theorem and_240_eq_iff (b : UInt8) : 16 = b &&& 240 ↔ 16 ≤ b ∧ b < 32 := by
  have hall : ∀ n < 256, (16 = UInt8.ofNat n &&& 240 ↔ 16 ≤ UInt8.ofNat n ∧
      UInt8.ofNat n < 32) := by
    decide +kernel
  have h := hall b.toNat b.toNat_lt
  rwa [UInt8.ofNat_toNat] at h

theorem and_192_eq_iff (b : UInt8) : 128 = b &&& 192 ↔ 0x80 ≤ b ∧ b < 0xC0 := by
  have hall : ∀ n < 256, (128 = UInt8.ofNat n &&& 192 ↔
      0x80 ≤ UInt8.ofNat n ∧ UInt8.ofNat n < 0xC0) := by
    decide +kernel
  have h := hall b.toNat b.toNat_lt
  rwa [UInt8.ofNat_toNat] at h

/-- The two networks of longer addresses. -/
theorem covers_long (x : List UInt8) :
    (covers (List.replicate 15 0 ++ [1]) (List.replicate 16 255) x =
      decide (x = List.replicate 15 0 ++ [1])) ∧
    ∀ a b, covers (0xFE :: 0x80 :: List.replicate 14 0) (255 :: 192 :: List.replicate 14 0)
      (a :: b :: x) = (decide (a = 0xFE) && (0x80 ≤ b && b < 0xC0) && decide (x.length = 14)) := by
  refine ⟨covers_replicate_full (List.replicate 15 0 ++ [1]) x, fun a b => ?_⟩
  rw [covers, covers, covers_replicate_zero, and_full, and_full, Bool.eq_iff_iff]
  simp only [Bool.and_eq_true, beq_iff_eq, decide_eq_true_iff,
    show (0x80 : UInt8) &&& 192 = 128 from rfl]
  rw [and_192_eq_iff, eq_comm]
  tauto

/-- **The default networks contain what they should.** -/
theorem any_builtinNets (ip : IP) : builtinNets.any (·.contains ip) = builtinDenied ip := by
  -- the number and the mask of each of them are those it is written with
  have hany : builtinNets.any (·.contains ip) =
      builtinNets.any fun net => covers net.ip net.mask ip.short := by
    have hlength : ∀ net ∈ builtinNets, net.mask.length = net.ip.length := by decide
    have hnumber : ∀ net ∈ builtinNets, networkNumberAndMask net = (net.ip, net.mask) := by decide
    rw [Bool.eq_iff_iff, List.any_eq_true, List.any_eq_true]
    refine exists_congr fun net => and_congr_right fun hnet => ?_
    rw [covers_eq (hlength net hnet), IPNet.contains, hnumber net hnet]
    rfl
  rw [hany, builtinDenied]
  generalize ip.short = x
  simp only [builtinNets, List.any_cons, List.any_nil, Bool.or_false, (covers_long _).1]
  rcases x with _ | ⟨a, _ | ⟨b, _ | ⟨c, _ | ⟨d, _ | ⟨e, y⟩⟩⟩⟩⟩
  · rfl
  · simp [covers]
  · simp [covers]
  · simp [covers]
  · rw [(covers_long [c, d]).2, Bool.eq_iff_iff]
    simp [covers, and_full, show (16 : UInt8) &&& 240 = 16 from rfl, and_240_eq_iff]
    grind
  · rw [(covers_long (c :: d :: e :: y)).2, Bool.eq_iff_iff]
    simp only [covers, Bool.and_false, Bool.false_or, Bool.or_eq_true, Bool.and_eq_true,
      decide_eq_true_iff, List.length_cons]
    constructor
    · rintro (hloop | ⟨⟨ha, hb⟩, hlen⟩)
      · have hlen := congrArg List.length hloop
        exact ⟨by simpa using hlen, Or.inl hloop⟩
      · exact ⟨by omega, Or.inr ⟨⟨ha, hb.1⟩, hb.2⟩⟩
    · rintro ⟨hlen, hloop | ⟨⟨ha, hb⟩, hb'⟩⟩
      · exact Or.inl hloop
      · exact Or.inr ⟨⟨ha, hb, hb'⟩, by omega⟩

/-! ## The order of the text decides -/

section Textual

variable {env : Env} {args : List GoString} {body : List Line} {cfg : Config}
  {platform : Platform} {h : Handler}

/-- The loop takes the decision of the first subject of the text that matches, and of the built-in
networks if there is none. -/
theorem hostIsAllowed_eq (hcfg : unmarshalCaddyfile env args body = .ok cfg)
    (hprov : provision platform cfg = .ok h) (host : GoString) (ip : IP) :
    hostIsAllowed h host ip =
      (((textualSubjects env body).find? (Subject.Matches host ip)).map Subject.allow).getD
        (!builtinDenied ip) := by
  obtain ⟨configured, denied, hrules, hconfigured, hdenied⟩ :=
    exists_of_provisionACL (provision_eq_ok hprov).1
  rw [acl_of_unmarshalCaddyfile hcfg] at hconfigured
  obtain rfl := Except.ok.inj (mapM_defaultDenied.symm.trans hdenied)
  rw [hostIsAllowed, hrules, rulesAllow_append hconfigured, rulesAllow_denied, any_builtinNets]

/-- **The order of the text decides.**  For every block that `UnmarshalCaddyfile` and `Provision`
accept, and every host and address: if some subject of the text matches, the first one that does
decides; if none does, an address of the built-in networks is denied and any other one allowed; some
rule of the handler always matches, so that the loop does not run off its end; and an address of the
built-in networks is allowed only if a subject of the text that allows it comes before all others
that match. -/
theorem hostIsAllowed_textual (hcfg : unmarshalCaddyfile env args body = .ok cfg)
    (hprov : provision platform cfg = .ok h) (host : GoString) (ip : IP) :
    (∀ before s after, textualSubjects env body = before ++ s :: after →
      (∀ q ∈ before, q.Matches host ip = false) → s.Matches host ip = true →
      hostIsAllowed h host ip = s.allow) ∧
    ((∀ s ∈ textualSubjects env body, s.Matches host ip = false) →
      hostIsAllowed h host ip = !builtinDenied ip) ∧
    (∃ d, FirstMatch h.aclRules host ip d) ∧
    (builtinDenied ip = true → hostIsAllowed h host ip = true → ∃ before s after,
      textualSubjects env body = before ++ s :: after ∧
        (∀ q ∈ before, q.Matches host ip = false) ∧ s.Matches host ip = true ∧ s.allow = true) := by
  have hloop := hostIsAllowed_eq hcfg hprov host ip
  refine ⟨?_, ?_, ?_, ?_⟩
  · intro before s after htext hbefore hs
    have hnone : before.find? (Subject.Matches host ip) = none :=
      List.find?_eq_none.mpr fun q hq => by simp [hbefore q hq]
    rw [hloop, htext, List.find?_append, hnone, Option.none_or, List.find?_cons_of_pos hs]
    rfl
  · intro hnone
    rw [hloop, List.find?_eq_none.mpr fun s hs => by simp [hnone s hs]]
    rfl
  · obtain ⟨configured, denied, hrules, -, -⟩ := exists_of_provisionACL (provision_eq_ok hprov).1
    have hall : AclRule.all true ∈ h.aclRules := by simp [hrules]
    exact exists_firstMatch hall Decision.noConfusion
  · intro hbuiltin hallowed
    rw [hloop] at hallowed
    cases hfind : (textualSubjects env body).find? (Subject.Matches host ip) with
    | none =>
      rw [hfind, hbuiltin] at hallowed
      exact absurd hallowed (by decide)
    | some s =>
      rw [hfind] at hallowed
      obtain ⟨hmatch, before, after, htext, hbefore⟩ := List.find?_eq_some_iff_append.mp hfind
      exact ⟨before, s, after, htext, fun q hq => by simpa using hbefore q hq, hmatch, hallowed⟩

end Textual

/-- An environment with one file. -/
def oneFileEnv : Env where
  files filename :=
    if filename = ascii "/etc/deny" then .ok (ascii "example.org\r\n192.0.2.0/24", none)
    else .error (ascii "no such file")
  parseDuration _ := none

/-- The block `acl { allow 10.1.2.3 www.example.org; deny_file /etc/deny }`. -/
def oneFileBody : List Line :=
  [{ name := ascii "acl", block := some [
    (ascii "allow", [ascii "10.1.2.3", ascii "www.example.org"]),
    (ascii "deny_file", [ascii "/etc/deny"])] }]

/-- With that block, `10.1.2.3` is allowed and the rest of its network is not. -/
theorem hostIsAllowed_textual_oneFile : ∃ cfg h,
    unmarshalCaddyfile oneFileEnv [] oneFileBody = .ok cfg ∧
    provision { parseURL := .error } cfg = .ok h ∧
    hostIsAllowed h [] [10, 1, 2, 3] = true ∧ hostIsAllowed h [] [10, 1, 2, 4] = false := by
  have hcfg : unmarshalCaddyfile oneFileEnv [] oneFileBody = .ok
      { acl := [⟨[ascii "10.1.2.3", ascii "www.example.org"], true⟩,
        ⟨[ascii "example.org", ascii "192.0.2.0/24"], false⟩] } := by decide +kernel
  obtain ⟨h, hprov⟩ : ∃ h, provision { parseURL := .error }
      { acl := [⟨[ascii "10.1.2.3", ascii "www.example.org"], true⟩,
        ⟨[ascii "example.org", ascii "192.0.2.0/24"], false⟩] } = .ok h := ⟨_, rfl⟩
  refine ⟨_, h, hcfg, hprov, ?_, ?_⟩
  · exact (hostIsAllowed_textual hcfg hprov [] [10, 1, 2, 3]).1 [] ⟨ascii "10.1.2.3", true⟩
      [⟨ascii "www.example.org", true⟩, ⟨ascii "example.org", false⟩, ⟨ascii "192.0.2.0/24", false⟩]
      (by decide +kernel) (by simp) (by decide +kernel)
  · exact (hostIsAllowed_textual hcfg hprov [] [10, 1, 2, 4]).2.1 (by decide +kernel)

end Setup
end ForwardProxy
