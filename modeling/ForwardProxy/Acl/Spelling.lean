import ForwardProxy.Acl.Labels
import ForwardProxy.ConnectUdp.Target
import ForwardProxy.Core.LetterCase

/-!
# Two spellings of one name

A DNS name can be written in upper or lower case and with or without a dot behind it.  A rule
compares bytes, and neither the rule's subject nor the host of a TCP request is brought into one
form first; only the host of a CONNECT-UDP request is (`canonicalDomain`).

A list of rules decides the same about two spellings of a name exactly when the first domain rule
that matches one of them matches both, or the rules behind it happen to make up for it.  What a rule
sees of a host are its visible labels (`Acl.Labels`), so two spellings get the same decisions from
all lists exactly when their visible labels are the same bytes.  For a rule
about an address or a network the case does not matter (`Core.LetterCase`); for any other rule
every change of case is a change of the rule.
-/

namespace ForwardProxy
namespace Acl

open ForwardProxy.Core

/-- Two hosts denote the same DNS name: they differ in the case of ASCII letters, or also in one
dot behind one of them. -/
def SameName (host₁ host₂ : GoString) : Prop :=
  lower host₁ = lower host₂ ∨ lower host₁ = lower host₂ ++ [dot] ∨
    lower host₁ ++ [dot] = lower host₂

instance (host₁ host₂ : GoString) : Decidable (SameName host₁ host₂) :=
  inferInstanceAs (Decidable (_ ∨ _ ∨ _))

/-- All rules were read by `newACLRule`. -/
def Built (rules : List AclRule) : Prop :=
  ∀ rule ∈ rules, ∃ subject allow, newACLRule subject allow = .ok rule

/-- Both stages of the policy decide the same for the two hosts, on every port and for every
address. -/
def SameDecisions (h : Handler) (host₁ host₂ : GoString) : Prop :=
  (∀ port hostPort₁ hostPort₂, splitHostPort hostPort₁ = .ok (host₁, port) →
    splitHostPort hostPort₂ = .ok (host₂, port) →
      (prepareTargetPolicy h hostPort₁).2.2 = (prepareTargetPolicy h hostPort₂).2.2) ∧
  ∀ ip, hostIsAllowed h host₁ ip = hostIsAllowed h host₂ ip

/-! ## Labels of the two spellings -/

theorem labels_lower (s : GoString) : labels (lower s) = (labels s).map lower :=
  split_lower (by decide) s

theorem trimDot_of_head {s : GoString} (h : s.head? ≠ some dot) : trimPrefix s [dot] = s := by
  rw [trimPrefix, if_neg]
  cases s with
  | nil => simp
  | cons c s =>
    simp only [List.head?_cons, ne_eq, Option.some.injEq] at h
    simp [List.isPrefixOf, Ne.symm h]

theorem trimDot_lower (s : GoString) : trimPrefix (lower s) [dot] = lower (trimPrefix s [dot]) := by
  by_cases h : s.head? = some dot
  · obtain ⟨t, rfl⟩ : ∃ t, s = dot :: t := List.head?_eq_some_iff.mp h
    rfl
  · rw [trimDot_of_head h, trimDot_of_head (by rwa [ne_eq, head?_lower_eq_iff (by decide)])]

theorem hostLabels_lower (host : GoString) :
    hostLabels (lower host) = (hostLabels host).map lower := by
  rw [hostLabels, trimDot_lower, labels_lower, hostLabels]

theorem isDomainByte_lowerByte (c : UInt8) : isDomainByte (lowerByte c) = isDomainByte c := by
  unfold lowerByte
  split_ifs with h
  · simp only [Bool.and_eq_true, decide_eq_true_eq] at h
    have h1 : isDomainByte c = true := by simp [isDomainByte, h]
    have h2 : isDomainByte (c + 32) = true := by
      have : 97 ≤ c + 32 ∧ c + 32 ≤ 122 := by grind
      simp [isDomainByte, this]
    rw [h1, h2]
  · rfl

theorem labelOk_lower (l : GoString) : labelOk (lower l) = labelOk l := by
  have hbytes : (lower l).all isDomainByte = l.all isDomainByte := by
    rw [lower, List.all_map]
    exact congrArg l.all (funext isDomainByte_lowerByte)
  simp only [labelOk, hbytes, length_lower, ne_eq, lower_eq_nil_iff]

theorem hostLabels_ne_nil (host : GoString) : hostLabels host ≠ [] := labels_ne_nil _

/-- All labels of a host are visible when they are all labels a rule can have. -/
theorem visible_eq_hostLabels_iff (host : GoString) :
    visible host = hostLabels host ↔ ∀ l ∈ hostLabels host, labelOk l = true :=
  List.rtakeWhile_eq_self_iff

/-- Whether all labels are visible does not depend on the case. -/
theorem visible_eq_hostLabels_congr {host₁ host₂ : GoString} (h : lower host₁ = lower host₂) :
    visible host₁ = hostLabels host₁ ↔ visible host₂ = hostLabels host₂ := by
  have hlower : ∀ host, (∀ l ∈ hostLabels host, labelOk l = true) ↔
      ∀ l ∈ hostLabels (lower host), labelOk l = true := by
    intro host
    rw [hostLabels_lower, List.forall_mem_map]
    simp only [labelOk_lower]
  rw [visible_eq_hostLabels_iff, visible_eq_hostLabels_iff, hlower, h, ← hlower]

/-- Nothing is visible of a host with a dot behind it. -/
theorem visible_append_dot (s : GoString) : visible (s ++ [dot]) = [] := by
  have hlast : ∃ ls, hostLabels (s ++ [dot]) = ls ++ [[]] := by
    cases s with
    | nil => exact ⟨[], rfl⟩
    | cons c s =>
      by_cases hc : c = dot
      · refine ⟨labels s, ?_⟩
        rw [hc]
        exact labels_append_dot s []
      · refine ⟨labels (c :: s), ?_⟩
        rw [hostLabels, trimDot_of_head (by simp [hc])]
        exact labels_append_dot (c :: s) []
  obtain ⟨ls, hls⟩ := hlast
  rw [visible, hls]
  exact List.rtakeWhile_concat_neg _ _ _ (by simp [labelOk])

theorem visible_of_lower_eq_append {host host' : GoString} (h : lower host = lower host' ++ [dot]) :
    visible host = [] := by
  obtain ⟨s, d, rfl, -, hd⟩ := List.map_eq_append_iff.mp h
  obtain ⟨c, rfl, hc⟩ := List.map_eq_singleton_iff.mp hd
  rw [(lowerByte_eq_iff (by decide)).mp hc]
  exact visible_append_dot s

/-- For two spellings of a name with the same visible labels, all labels are visible of both or of
neither. -/
theorem SameName.visible_eq_hostLabels {host₁ host₂ : GoString} (hname : SameName host₁ host₂)
    (hvis : visible host₁ = visible host₂) :
    visible host₁ = hostLabels host₁ ↔ visible host₂ = hostLabels host₂ := by
  have hempty : visible host₁ = [] →
      (visible host₁ = hostLabels host₁ ↔ visible host₂ = hostLabels host₂) := by
    intro h
    rw [← hvis, h]
    exact iff_of_false (hostLabels_ne_nil _).symm (hostLabels_ne_nil _).symm
  rcases hname with h | h | h
  · exact visible_eq_hostLabels_congr h
  · exact hempty (visible_of_lower_eq_append h)
  · exact hempty (hvis.trans (visible_of_lower_eq_append h.symm))

/-! ## Rules that were read from the configuration -/

/-- What `newACLRule` makes of a subject. -/
theorem newACLRule_eq_ok {subject : GoString} {allow : Bool} {rule : AclRule}
    (h : newACLRule subject allow = .ok rule) :
    (subject = ascii "all" ∧ rule = .all allow) ∨
    (subject ≠ ascii "all" ∧ ∃ net, subjectNet subject = some net ∧ rule = .ip net allow) ∨
    (subject ≠ ascii "all" ∧ subjectNet subject = none ∧ ∃ d sub, isValidDomainLite d = none ∧
      sub = (ascii "*.").isPrefixOf subject ∧
      subject = (if sub then ascii "*." else []) ++ d ∧ rule = .domain d sub allow) := by
  unfold newACLRule at h
  by_cases hall : subject = ascii "all"
  · rw [if_pos hall] at h
    exact Or.inl ⟨hall, (Except.ok.inj h).symm⟩
  rw [if_neg hall] at h
  cases hnet : subjectNet subject with
  | some net =>
    rw [hnet] at h
    exact Or.inr (Or.inl ⟨hall, net, rfl, (Except.ok.inj h).symm⟩)
  | none =>
    rw [hnet] at h
    simp only at h
    generalize hd : (if (ascii "*.").isPrefixOf subject then subject.drop 2 else subject) = d at h
    cases hvalid : isValidDomainLite d with
    | some err =>
      rw [hvalid] at h
      exact absurd h (by simp)
    | none =>
      rw [hvalid] at h
      refine Or.inr (Or.inr ⟨hall, rfl, d, _, hvalid, rfl, ?_, (Except.ok.inj h).symm⟩)
      rw [← hd]
      by_cases hsub : (ascii "*.").isPrefixOf subject = true
      · rw [if_pos hsub, if_pos hsub]
        obtain ⟨t, rfl⟩ := List.isPrefixOf_iff_prefix.mp hsub
        rfl
      · rw [if_neg hsub, if_neg hsub]
        rfl

/-- A rule that was read decides by the visible labels, and by whether these are all. -/
theorem tryMatch_eq_of_visible {subject : GoString} {allow : Bool} {rule : AclRule}
    (hrule : newACLRule subject allow = .ok rule) {host₁ host₂ : GoString}
    (hvis : visible host₁ = visible host₂)
    (hself : visible host₁ = hostLabels host₁ ↔ visible host₂ = hostLabels host₂) (ip : Option IP) :
    rule.tryMatch ip host₁ = rule.tryMatch ip host₂ := by
  rcases newACLRule_eq_ok hrule with ⟨-, rfl⟩ | ⟨-, net, -, rfl⟩ | ⟨-, -, d, sub, hd, -, -, rfl⟩
  · rfl
  · rfl
  · have hmatches : domainMatches d sub host₁ = domainMatches d sub host₂ := by
      rw [Bool.eq_iff_iff]
      cases sub with
      | true =>
        rw [domainMatches_wildcard_iff_visible hd, domainMatches_wildcard_iff_visible hd, hvis]
      | false =>
        rw [domainMatches_exact_iff_visible hd, domainMatches_exact_iff_visible hd, ← hself, hvis]
    simp only [AclRule.tryMatch, hmatches]

/-! ## One list of rules -/

section OneList

variable {h : Handler} {host₁ host₂ : GoString} {before after rest : List AclRule}

/-- On some port the first stage gets as far as the domain rules, for both hosts. -/
def Asked (h : Handler) (host₁ host₂ : GoString) : Prop :=
  ∃ port hostPort₁ hostPort₂, splitHostPort hostPort₁ = .ok (host₁, port) ∧
    splitHostPort hostPort₂ = .ok (host₂, port) ∧ portIsAllowed h port = true

/-- No domain rule of the list matches either host. -/
def Untouched (rules : List AclRule) (host₁ host₂ : GoString) : Prop :=
  ∀ d sub allow, AclRule.domain d sub allow ∈ rules →
    domainMatches d sub host₁ = false ∧ domainMatches d sub host₂ = false

/-- The rules behind a domain rule come to what that rule decides, for a host that it does not
match: in the first stage, if that is asked at all, and in the second stage for each address that
the rules in front leave to them. -/
def AgreesBehind (asked : Prop) (before after : List AclRule) (allow : Bool) (host : GoString) :
    Prop :=
  (asked → (domainPolicy after host = some .domainDenied ↔ allow = false)) ∧
    ∀ ip, (∀ q ∈ before, q.tryMatch (some ip) host = .noMatch) →
      rulesAllow after host (some ip) = allow

theorem asked_comm : Asked h host₁ host₂ ↔ Asked h host₂ host₁ := by
  constructor <;> exact fun ⟨port, hp, hp', hs, hs', hport⟩ => ⟨port, hp', hp, hs', hs, hport⟩

theorem Untouched.symm {rules : List AclRule} (hu : Untouched rules host₁ host₂) :
    Untouched rules host₂ host₁ :=
  fun d sub allow hmem => (hu d sub allow hmem).symm

theorem Untouched.tryMatch_eq {rules : List AclRule} (hu : Untouched rules host₁ host₂)
    {rule : AclRule} (hrule : rule ∈ rules) (ip : Option IP) :
    rule.tryMatch ip host₁ = rule.tryMatch ip host₂ := by
  cases rule with
  | ip net allow => rfl
  | all allow => rfl
  | domain d sub allow =>
    obtain ⟨h₁, h₂⟩ := hu d sub allow hrule
    simp only [AclRule.tryMatch, h₁, h₂]

theorem sameDecisions_iff : SameDecisions h host₁ host₂ ↔
    (Asked h host₁ host₂ → domainPolicy h.aclRules host₁ = domainPolicy h.aclRules host₂) ∧
      ∀ ip, rulesAllow h.aclRules host₁ (some ip) = rulesAllow h.aclRules host₂ (some ip) := by
  refine and_congr_left fun _ => ⟨?_, ?_⟩
  · rintro hsame ⟨port, hostPort₁, hostPort₂, hsplit₁, hsplit₂, hport⟩
    have heq := hsame port hostPort₁ hostPort₂ hsplit₁ hsplit₂
    rwa [prepareTargetPolicy_eq hsplit₁ hport, prepareTargetPolicy_eq hsplit₂ hport] at heq
  · intro hasked port hostPort₁ hostPort₂ hsplit₁ hsplit₂
    by_cases hport : portIsAllowed h port = true
    · rw [prepareTargetPolicy_eq hsplit₁ hport, prepareTargetPolicy_eq hsplit₂ hport]
      exact hasked ⟨port, hostPort₁, hostPort₂, hsplit₁, hsplit₂, hport⟩
    · simp [prepareTargetPolicy, hsplit₁, hsplit₂, hport]

theorem sameDecisions_comm : SameDecisions h host₁ host₂ ↔ SameDecisions h host₂ host₁ := by
  rw [sameDecisions_iff, sameDecisions_iff, asked_comm]
  simp only [eq_comm]

/-- The first stage passes over rules that do not match. -/
theorem domainPolicy_append {host : GoString}
    (hnot : ∀ d sub allow, AclRule.domain d sub allow ∈ before → domainMatches d sub host = false) :
    domainPolicy (before ++ rest) host = domainPolicy rest host := by
  induction before with
  | nil => rfl
  | cons rule before ih =>
    have hrest := ih fun d sub allow hmem => hnot d sub allow (List.mem_cons_of_mem _ hmem)
    cases rule with
    | ip net allow => exact hrest
    | all allow => exact hrest
    | domain d sub allow =>
      have hd := hnot d sub allow List.mem_cons_self
      simpa [domainPolicy, AclRule.isDomain, AclRule.tryMatch, hd] using hrest

/-- Behind rules that agree on two hosts, the second stage agrees unless they leave it the
address. -/
theorem rulesAllow_append_eq_iff {ip : Option IP}
    (hagree : ∀ q ∈ before, q.tryMatch ip host₁ = q.tryMatch ip host₂) :
    rulesAllow (before ++ rest) host₁ ip = rulesAllow (before ++ rest) host₂ ip ↔
      ((∀ q ∈ before, q.tryMatch ip host₁ = .noMatch) →
        rulesAllow rest host₁ ip = rulesAllow rest host₂ ip) := by
  induction before with
  | nil => simp
  | cons rule before ih =>
    have hhead := hagree rule List.mem_cons_self
    have hrest := ih fun q hq => hagree q (List.mem_cons_of_mem _ hq)
    rw [List.cons_append, rulesAllow, rulesAllow, ← hhead, List.forall_mem_cons]
    cases hmatch : rule.tryMatch ip host₁ with
    | allow => simp
    | deny => simp
    | noMatch => simpa using hrest

/-- In front of the rules that match one of the hosts nothing is decided about their difference. -/
theorem sameDecisions_iff_behind (hrules : h.aclRules = before ++ rest)
    (hu : Untouched before host₁ host₂) : SameDecisions h host₁ host₂ ↔
      (Asked h host₁ host₂ → domainPolicy rest host₁ = domainPolicy rest host₂) ∧
        ∀ ip, (∀ q ∈ before, q.tryMatch (some ip) host₁ = .noMatch) →
          rulesAllow rest host₁ (some ip) = rulesAllow rest host₂ (some ip) := by
  rw [sameDecisions_iff, hrules,
    domainPolicy_append fun d sub allow hmem => (hu d sub allow hmem).1,
    domainPolicy_append fun d sub allow hmem => (hu d sub allow hmem).2]
  simp only [rulesAllow_append_eq_iff fun q hq => hu.tryMatch_eq hq _]

section Rule

variable {d : GoString} {sub allow : Bool} {host : GoString}

theorem domainPolicy_cons_of_domainMatches (hmatch : domainMatches d sub host = true) :
    domainPolicy (.domain d sub allow :: after) host =
      if allow then none else some .domainDenied := by
  cases allow <;> simp [domainPolicy, AclRule.isDomain, AclRule.tryMatch, hmatch, Decision.ofAllow]

theorem rulesAllow_cons_of_domainMatches (hmatch : domainMatches d sub host = true)
    (ip : Option IP) : rulesAllow (.domain d sub allow :: after) host ip = allow := by
  cases allow <;> simp [rulesAllow, AclRule.tryMatch, hmatch, Decision.ofAllow]

theorem domainPolicy_cons_of_not (hnot : domainMatches d sub host = false) :
    domainPolicy (.domain d sub allow :: after) host = domainPolicy after host := by
  simp [domainPolicy, AclRule.isDomain, AclRule.tryMatch, hnot]

theorem rulesAllow_cons_of_not (hnot : domainMatches d sub host = false) (ip : Option IP) :
    rulesAllow (.domain d sub allow :: after) host ip = rulesAllow after host ip := by
  simp [rulesAllow, AclRule.tryMatch, hnot]

/-- The first domain rule that matches one of the hosts matches both. -/
theorem sameDecisions_of_domainMatches
    (hrules : h.aclRules = before ++ .domain d sub allow :: after)
    (hu : Untouched before host₁ host₂) (h₁ : domainMatches d sub host₁ = true)
    (h₂ : domainMatches d sub host₂ = true) : SameDecisions h host₁ host₂ := by
  refine (sameDecisions_iff_behind hrules hu).mpr ⟨fun _ => ?_, fun ip _ => ?_⟩
  · rw [domainPolicy_cons_of_domainMatches h₁, domainPolicy_cons_of_domainMatches h₂]
  · rw [rulesAllow_cons_of_domainMatches h₁, rulesAllow_cons_of_domainMatches h₂]

/-- The first domain rule that matches one of the hosts matches the first host only. -/
theorem sameDecisions_iff_agreesBehind
    (hrules : h.aclRules = before ++ .domain d sub allow :: after)
    (hu : Untouched before host₁ host₂) (h₁ : domainMatches d sub host₁ = true)
    (h₂ : domainMatches d sub host₂ = false) : SameDecisions h host₁ host₂ ↔
      AgreesBehind (Asked h host₁ host₂) before after allow host₂ := by
  have hdenied : (if allow then none else some .domainDenied) = domainPolicy after host₂ ↔
      (domainPolicy after host₂ = some .domainDenied ↔ allow = false) := by
    rcases domainPolicy_eq_none_or after host₂ with hnone | hdenied
    · cases allow <;> simp [hnone]
    · cases allow <;> simp [hdenied]
  have hleft : ∀ ip, (∀ q ∈ before, q.tryMatch (some ip) host₁ = .noMatch) ↔
      ∀ q ∈ before, q.tryMatch (some ip) host₂ = .noMatch := fun ip =>
    forall₂_congr fun q hq => by rw [hu.tryMatch_eq hq]
  rw [sameDecisions_iff_behind hrules hu, domainPolicy_cons_of_domainMatches h₁,
    domainPolicy_cons_of_not h₂, hdenied]
  simp only [rulesAllow_cons_of_domainMatches h₁, rulesAllow_cons_of_not h₂, hleft]
  exact and_congr_right fun _ => forall₂_congr fun ip _ => eq_comm

end Rule

/-- The first domain rule of the list that matches one of the hosts. -/
theorem untouched_or_exists (rules : List AclRule) (host₁ host₂ : GoString) :
    Untouched rules host₁ host₂ ∨ ∃ before d sub allow after,
      rules = before ++ .domain d sub allow :: after ∧ Untouched before host₁ host₂ ∧
        (domainMatches d sub host₁ = true ∨ domainMatches d sub host₂ = true) := by
  induction rules with
  | nil => exact Or.inl fun d sub allow hmem => absurd hmem List.not_mem_nil
  | cons rule rules ih =>
    by_cases hrule : Untouched [rule] host₁ host₂
    · have hcons : ∀ {rules}, Untouched rules host₁ host₂ → Untouched (rule :: rules) host₁ host₂ :=
        fun hu d sub allow hmem => (List.mem_cons.mp hmem).elim
          (fun heq => hrule d sub allow (List.mem_singleton.mpr heq)) (hu d sub allow)
      rcases ih with hu | ⟨before, d, sub, allow, after, rfl, hu, hmatch⟩
      · exact Or.inl (hcons hu)
      · exact Or.inr ⟨rule :: before, d, sub, allow, after, rfl, hcons hu, hmatch⟩
    · simp only [Untouched, not_forall, List.mem_singleton] at hrule
      obtain ⟨d, sub, allow, rfl, hmatch⟩ := hrule
      refine Or.inr ⟨[], d, sub, allow, rules, rfl,
        fun _ _ _ hmem => absurd hmem List.not_mem_nil, ?_⟩
      by_contra hnot
      exact hmatch (by simpa using hnot)

/-- **Decisions of one list about two hosts.**  They are the same exactly when the first domain rule
that matches one of the hosts matches both, or the rules behind it make up for it. -/
theorem sameDecisions_iff_rules (h : Handler) (host₁ host₂ : GoString) :
    SameDecisions h host₁ host₂ ↔ ∀ before d sub allow after,
      h.aclRules = before ++ .domain d sub allow :: after → Untouched before host₁ host₂ →
        domainMatches d sub host₁ = domainMatches d sub host₂ ∨
        (domainMatches d sub host₁ = true ∧
          AgreesBehind (Asked h host₁ host₂) before after allow host₂) ∨
        (domainMatches d sub host₂ = true ∧
          AgreesBehind (Asked h host₁ host₂) before after allow host₁) := by
  constructor
  · intro hsame before d sub allow after hrules hu
    cases h₁ : domainMatches d sub host₁ <;> cases h₂ : domainMatches d sub host₂
    · exact Or.inl rfl
    · refine Or.inr (Or.inr ⟨rfl, ?_⟩)
      rw [asked_comm]
      exact (sameDecisions_iff_agreesBehind hrules hu.symm h₂ h₁).mp (sameDecisions_comm.mp hsame)
    · exact Or.inr (Or.inl ⟨rfl, (sameDecisions_iff_agreesBehind hrules hu h₁ h₂).mp hsame⟩)
    · exact Or.inl rfl
  · intro hbehind
    rcases untouched_or_exists h.aclRules host₁ host₂ with
      hu | ⟨before, d, sub, allow, after, hrules, hu, hmatch⟩
    · rw [sameDecisions_iff_behind (List.append_nil h.aclRules).symm hu]
      exact ⟨fun _ => rfl, fun _ _ => rfl⟩
    · have hcases := hbehind before d sub allow after hrules hu
      cases h₁ : domainMatches d sub host₁ <;> cases h₂ : domainMatches d sub host₂
      · simp [h₁, h₂] at hmatch
      · have hagrees : AgreesBehind (Asked h host₁ host₂) before after allow host₁ := by
          simpa [h₁, h₂] using hcases
        rw [asked_comm] at hagrees
        rw [sameDecisions_comm]
        exact (sameDecisions_iff_agreesBehind hrules hu.symm h₂ h₁).mpr hagrees
      · have hagrees : AgreesBehind (Asked h host₁ host₂) before after allow host₂ := by
          simpa [h₁, h₂] using hcases
        exact (sameDecisions_iff_agreesBehind hrules hu h₁ h₂).mpr hagrees
      · exact sameDecisions_of_domainMatches hrules hu h₁ h₂

end OneList

/-- Hosts on which all rules agree get the same decisions. -/
theorem sameDecisions_of_tryMatch {h : Handler} {host₁ host₂ : GoString}
    (hrules : ∀ rule ∈ h.aclRules, ∀ ip, rule.tryMatch ip host₁ = rule.tryMatch ip host₂) :
    SameDecisions h host₁ host₂ := by
  refine (sameDecisions_iff_rules h host₁ host₂).mpr ?_
  intro before d sub allow after heq _
  have hrule := hrules (.domain d sub allow) (by rw [heq]; simp) none
  refine Or.inl (Bool.eq_iff_iff.mpr ?_)
  simp only [AclRule.tryMatch] at hrule
  split_ifs at hrule with h₁ h₂ h₂
  · exact iff_of_true h₁ h₂
  · exact absurd hrule (ofAllow_ne_noMatch allow)
  · exact absurd hrule.symm (ofAllow_ne_noMatch allow)
  · exact iff_of_false h₁ h₂

/-! ## A rule that tells two hosts apart -/

theorem ne_nil_of_valid {d : GoString} (hd : isValidDomainLite d = none) : d ≠ [] := by
  rintro rfl
  exact absurd hd (by decide)

/-- A domain that a rule can have does not begin with a dot. -/
theorem head?_ne_dot_of_valid {d : GoString} (hd : isValidDomainLite d = none) :
    d.head? ≠ some dot := by
  intro hhead
  obtain ⟨t, rfl⟩ : ∃ t, d = dot :: t := List.head?_eq_some_iff.mp hhead
  have hok :=
    (isValidDomainLite_eq_none_iff _).mp hd [] (by rw [labels, split_cons, if_pos rfl]; simp)
  exact absurd hok (by decide)

theorem hostLabels_of_valid {d : GoString} (hd : isValidDomainLite d = none) :
    hostLabels d = labels d := by
  rw [hostLabels, trimDot_of_head (head?_ne_dot_of_valid hd)]

theorem visible_of_valid {d : GoString} (hd : isValidDomainLite d = none) :
    visible d = labels d := by
  rw [(visible_eq_hostLabels_iff d).mpr, hostLabels_of_valid hd]
  rw [hostLabels_of_valid hd]
  exact (isValidDomainLite_eq_none_iff d).mp hd

/-- A host that is denied and one that is allowed, by one rule about the visible labels of the
first and a rule that allows everything. -/
theorem exists_handler_of_not_suffix {host₁ host₂ : GoString}
    (hnot : ¬ visible host₁ <:+ visible host₂) :
    ∃ h : Handler, Built h.aclRules ∧ ∀ ip,
      hostIsAllowed h host₁ ip = false ∧ hostIsAllowed h host₂ ip = true := by
  have hne : visible host₁ ≠ [] := fun h => hnot (h ▸ List.nil_suffix)
  have hmem : ∀ l ∈ visible host₁, dot ∉ l := fun l hl =>
    dot_notMem_label ((List.rtakeWhile_suffix ..).subset hl)
  have hok : ∀ l ∈ visible host₁, labelOk l = true := fun l hl => List.mem_rtakeWhile_imp hl
  obtain ⟨d, hd⟩ : ∃ d, labels d = visible host₁ :=
    ⟨[dot].intercalate (visible host₁), List.splitOn_intercalate dot hmem hne⟩
  have hvalid : isValidDomainLite d = none := (isValidDomainLite_eq_none_iff d).mpr (hd ▸ hok)
  refine ⟨{ aclRules := [.domain d true false, .all true] }, ?_, fun ip => ⟨?_, ?_⟩⟩
  · intro rule hrule
    rcases List.mem_cons.mp hrule with rfl | hrule
    · exact ⟨_, _, newACLRule_wildcard hvalid false⟩
    · rw [List.mem_singleton.mp hrule]
      exact ⟨ascii "all", true, rfl⟩
  · have hmatch : domainMatches d true host₁ = true :=
      (domainMatches_wildcard_iff_visible hvalid host₁).mpr (hd ▸ List.suffix_rfl)
    simp [hostIsAllowed, rulesAllow, AclRule.tryMatch, hmatch, Decision.ofAllow]
  · have hmatch : ¬ domainMatches d true host₂ = true := fun h =>
      hnot (hd ▸ (domainMatches_wildcard_iff_visible hvalid host₂).mp h)
    simp [hostIsAllowed, rulesAllow, AclRule.tryMatch, hmatch, Decision.ofAllow]

/-- **Decisions about two spellings of a host.** -/
theorem sameDecisions_iff_visible {host₁ host₂ : GoString} (hname : SameName host₁ host₂) :
    (∀ h : Handler, Built h.aclRules → SameDecisions h host₁ host₂) ↔
      visible host₁ = visible host₂ := by
  constructor
  · intro hsame
    have hsuffix₁ : visible host₁ <:+ visible host₂ := by
      by_contra hnot
      obtain ⟨h, hbuilt, hdecide⟩ := exists_handler_of_not_suffix hnot
      have heq := (hsame h hbuilt).2 []
      rw [(hdecide []).1, (hdecide []).2] at heq
      exact absurd heq (by decide)
    have hsuffix₂ : visible host₂ <:+ visible host₁ := by
      by_contra hnot
      obtain ⟨h, hbuilt, hdecide⟩ := exists_handler_of_not_suffix hnot
      have heq := (hsame h hbuilt).2 []
      rw [(hdecide []).1, (hdecide []).2] at heq
      exact absurd heq (by decide)
    exact hsuffix₁.eq_of_length_le hsuffix₂.length_le
  · intro hvis h hbuilt
    refine sameDecisions_of_tryMatch fun rule hrule ip => ?_
    obtain ⟨subject, allow, hread⟩ := hbuilt rule hrule
    exact tryMatch_eq_of_visible hread hvis (hname.visible_eq_hostLabels hvis) ip

/-! ## Two spellings of a subject -/

theorem subjectNet_lower (subject : GoString) :
    subjectNet (lower subject) = subjectNet subject := by
  have happend : ∀ bits : GoString, bits.all isDigit = true →
      parseCIDR (lower subject ++ slash :: bits) = parseCIDR (subject ++ slash :: bits) := by
    intro bits hbits
    have hlower : lower (subject ++ slash :: bits) = lower subject ++ slash :: bits := by
      rw [lower, List.map_append, List.map_cons, ← lower, ← lower, lower_of_all_isDigit hbits]
      rfl
    rw [← hlower, parseCIDR_lower]
  have h32 := happend [51, 50] rfl
  have h128 := happend [49, 50, 56] rfl
  rw [subjectNet, subjectNet, parseCIDR_lower, parseIP_lower]
  cases parseCIDR subject with
  | some net => rfl
  | none =>
    cases parseIP subject with
    | none => rfl
    | some ip =>
      simp only
      split_ifs
      · exact h32
      · exact h128
      · rfl

/-- The wildcard in front of a subject does not depend on the case. -/
theorem wildcard_isPrefixOf_lower (subject : GoString) :
    (ascii "*.").isPrefixOf (lower subject) = (ascii "*.").isPrefixOf subject := by
  have hbyte : ∀ d : UInt8, d < 65 → ∀ c, (d == lowerByte c) = (d == c) := by
    intro d hd c
    rw [Bool.eq_iff_iff, beq_iff_eq, beq_iff_eq, eq_comm, lowerByte_eq_iff hd, eq_comm]
  have hstar : ascii "*." = [42, 46] := rfl
  rw [hstar]
  rcases subject with _ | ⟨c, _ | ⟨d, s⟩⟩
  · rfl
  · simp only [lower, List.map_cons, List.map_nil, List.isPrefixOf, hbyte 42 (by decide)]
  · simp only [lower, List.map_cons, List.isPrefixOf, hbyte 42 (by decide), hbyte 46 (by decide)]

/-- A domain rule finds its own domain. -/
theorem domainMatches_self {d : GoString} (hd : isValidDomainLite d = none) (sub : Bool) :
    domainMatches d sub d = true := by
  rw [domainMatches, trimDot_of_head (head?_ne_dot_of_valid hd)]
  simp

/-- A domain rule finds no other domain with as many labels. -/
theorem eq_of_domainMatches {d host : GoString} {sub : Bool} (hhost : isValidDomainLite host = none)
    (hlength : (labels d).length = (labels host).length) (h : domainMatches d sub host = true) :
    d = host := by
  cases sub with
  | false =>
    rw [domainMatches_exact, hostLabels_of_valid hhost] at h
    exact labels_injective h
  | true =>
    rw [domainMatches_wildcard, hostLabels_of_valid hhost] at h
    exact labels_injective (h.eq_of_length hlength)

theorem length_labels_congr {d₁ d₂ : GoString} (h : lower d₁ = lower d₂) :
    (labels d₁).length = (labels d₂).length := by
  have hlower : ∀ d, (labels d).length = (labels (lower d)).length := by
    intro d
    rw [labels_lower, List.length_map]
  rw [hlower, h, ← hlower]

/-- An `all` rule decides about a host that a domain rule leaves alone. -/
theorem exists_tryMatch_all_ne {d : GoString} (hd : isValidDomainLite d = none) (sub allow : Bool) :
    ∃ host, AclRule.tryMatch (.all allow) none host ≠ AclRule.tryMatch
      (.domain d sub allow) none host := by
  refine ⟨[], ?_⟩
  have hnot : domainMatches d sub [] = false := by
    have hempty : ([] == d) = false := beq_eq_false_iff_ne.mpr (ne_nil_of_valid hd).symm
    show ([] == d || (sub && (dot :: d).isSuffixOf [])) = false
    rw [hempty, Bool.false_or]
    cases sub with
    | false => rfl
    | true => simp
  simp only [AclRule.tryMatch, hnot, Bool.false_eq_true, if_false]
  exact ofAllow_ne_noMatch allow

/-- Two domain rules of one kind agree, for domains that differ only in letter case, exactly when
the domains are the same. -/
theorem tryMatch_domain_congr_iff {d₁ d₂ : GoString} {sub allow : Bool}
    (hd₁ : isValidDomainLite d₁ = none) (hlower : lower d₁ = lower d₂) :
    (∀ ip host, (AclRule.domain d₁ sub allow).tryMatch ip host =
      (AclRule.domain d₂ sub allow).tryMatch ip host) ↔ d₁ = d₂ := by
  refine ⟨fun hagree => ?_, fun heq => by rw [heq]; exact fun _ _ => rfl⟩
  -- the two rules at the domain of the first one
  have hself := hagree none d₁
  simp only [AclRule.tryMatch, domainMatches_self hd₁, if_true] at hself
  have hmatch : domainMatches d₂ sub d₁ = true := by
    by_contra hnot
    rw [if_neg hnot] at hself
    exact ofAllow_ne_noMatch allow hself
  exact (eq_of_domainMatches hd₁ (length_labels_congr hlower).symm hmatch).symm

/-- **Two spellings of a subject.**  The rules read from them agree exactly when the subject is an
address or a network, or the spellings are the same. -/
theorem tryMatch_congr_iff_subject {subject₁ subject₂ : GoString} {allow : Bool}
    {rule₁ rule₂ : AclRule} (hlower : lower subject₁ = lower subject₂)
    (hread₁ : newACLRule subject₁ allow = .ok rule₁)
    (hread₂ : newACLRule subject₂ allow = .ok rule₂) :
    (∀ ip host, rule₁.tryMatch ip host = rule₂.tryMatch ip host) ↔
      subject₁ = subject₂ ∨ (subjectNet subject₁).isSome = true := by
  have hnet : subjectNet subject₁ = subjectNet subject₂ := by
    rw [← subjectNet_lower subject₁, hlower, subjectNet_lower]
  have hall : subjectNet (ascii "all") = none := by decide
  rcases newACLRule_eq_ok hread₁ with ⟨hs₁, rfl⟩ | ⟨-, net₁, hnet₁, rfl⟩ |
    ⟨hs₁, hnet₁, d₁, sub₁, hd₁, hsub₁, heq₁, rfl⟩
  · rcases newACLRule_eq_ok hread₂ with ⟨hs₂, rfl⟩ | ⟨-, net₂, hnet₂, rfl⟩ |
      ⟨hs₂, -, d₂, sub₂, hd₂, -, -, rfl⟩
    · exact iff_of_true (fun _ _ => rfl) (Or.inl (hs₁.trans hs₂.symm))
    · rw [hs₁, hall, hnet₂] at hnet
      exact absurd hnet (by simp)
    · refine iff_of_false ?_ ?_
      · intro hagree
        obtain ⟨host, hne⟩ := exists_tryMatch_all_ne hd₂ sub₂ allow
        exact hne (hagree none host)
      · rintro (heq | hsome)
        · exact hs₂ (heq.symm.trans hs₁)
        · rw [hs₁, hall] at hsome
          exact absurd hsome (by decide)
  · refine iff_of_true ?_ (Or.inr (by rw [hnet₁]; rfl))
    rcases newACLRule_eq_ok hread₂ with ⟨hs₂, rfl⟩ | ⟨-, net₂, hnet₂, rfl⟩ | ⟨-, hnet₂, -⟩
    · rw [hs₂, hall, hnet₁] at hnet
      exact absurd hnet (by simp)
    · rw [hnet₁, hnet₂] at hnet
      rw [Option.some.inj hnet]
      exact fun _ _ => rfl
    · rw [hnet₁, hnet₂] at hnet
      exact absurd hnet (by simp)
  · rcases newACLRule_eq_ok hread₂ with ⟨hs₂, rfl⟩ | ⟨-, net₂, hnet₂, rfl⟩ |
      ⟨-, -, d₂, sub₂, hd₂, hsub₂, heq₂, rfl⟩
    · refine iff_of_false ?_ ?_
      · intro hagree
        obtain ⟨host, hne⟩ := exists_tryMatch_all_ne hd₁ sub₁ allow
        exact hne (hagree none host).symm
      · rw [hnet₁]
        rintro (heq | hsome)
        · exact hs₁ (heq.trans hs₂)
        · exact absurd hsome (by decide)
    · rw [hnet₁, hnet₂] at hnet
      exact absurd hnet (by simp)
    · have hsub : sub₁ = sub₂ := by
        rw [hsub₁, hsub₂, ← wildcard_isPrefixOf_lower, hlower, wildcard_isPrefixOf_lower]
      rw [hsub] at heq₁ hread₁ ⊢
      have hdlower : lower d₁ = lower d₂ := by
        rw [heq₁, heq₂, lower, lower, List.map_append, List.map_append] at hlower
        exact List.append_cancel_left hlower
      rw [hnet₁, tryMatch_domain_congr_iff hd₁ hdlower, heq₁, heq₂, List.append_right_inj]
      simp

/-! ## The name of a CONNECT-UDP request -/

theorem labelOk_of_canonical {l : GoString} (h : ConnectUdp.canonicalLabelOk l = true) :
    labelOk l = true := by
  simp only [ConnectUdp.canonicalLabelOk, Bool.and_eq_true, List.all_eq_true,
    decide_eq_true_eq, ne_eq] at h
  obtain ⟨⟨⟨⟨hne, hlen⟩, -⟩, -⟩, hbytes⟩ := h
  simp only [labelOk, Bool.and_eq_true, List.all_eq_true, decide_eq_true_eq, ne_eq]
  refine ⟨⟨fun h => hne (by rw [h]; rfl), hlen⟩, fun c hc => ?_⟩
  have hbyte := hbytes c hc
  simp only [ConnectUdp.isLabelByte, Bool.or_eq_true] at hbyte
  simp only [isDomainByte, Bool.or_eq_true]
  rcases hbyte with (h | h) | h
  · exact Or.inl (Or.inl (Or.inl (Or.inl (Or.inl h))))
  · exact Or.inl (Or.inl (Or.inr h))
  · exact Or.inl (Or.inr h)

/-- The canonical form of a name is a domain that a rule can have. -/
theorem isValidDomainLite_of_canonical {lib : ConnectUdp.Lib} {name host : GoString}
    (h : ConnectUdp.canonicalDomain lib name = some host) : isValidDomainLite host = none := by
  unfold ConnectUdp.canonicalDomain at h
  cases hascii : lib.toASCII name with
  | none =>
    rw [hascii] at h
    exact absurd h (by simp)
  | some n =>
    rw [hascii] at h
    simp only at h
    split_ifs at h with hlen hok
    rw [← Option.some.inj h, isValidDomainLite_eq_none_iff]
    intro l hl
    exact labelOk_of_canonical (List.all_eq_true.mp hok l hl)

/-- **A name and its canonical form.**  A host and the form that a CONNECT-UDP request brings it
into get the same decisions exactly when they are the same bytes. -/
theorem sameDecisions_iff_canonical {lib : ConnectUdp.Lib} {name host host' : GoString}
    (hcanonical : ConnectUdp.canonicalDomain lib name = some host') (hname : SameName host host') :
    (∀ h : Handler, Built h.aclRules → SameDecisions h host host') ↔ host = host' := by
  have hvalid := isValidDomainLite_of_canonical hcanonical
  rw [sameDecisions_iff_visible hname]
  refine ⟨fun hvis => ?_, congrArg visible⟩
  rw [visible_of_valid hvalid] at hvis
  rcases hname with hlower | hlower | hlower
  · have hhead : host.head? ≠ some dot := by
      rw [ne_eq, ← head?_lower_eq_iff (by decide), hlower, head?_lower_eq_iff (by decide)]
      exact head?_ne_dot_of_valid hvalid
    have hlabels : hostLabels host = labels host := by rw [hostLabels, trimDot_of_head hhead]
    have hsuffix : labels host' <:+ labels host := by
      rw [← hvis, ← hlabels]
      exact List.rtakeWhile_suffix ..
    exact (labels_injective (hsuffix.eq_of_length (length_labels_congr hlower.symm))).symm
  · rw [visible_of_lower_eq_append hlower] at hvis
    exact absurd hvis.symm (labels_ne_nil host')
  · have hempty := visible_of_lower_eq_append hlower.symm
    rw [visible_of_valid hvalid] at hempty
    exact absurd hempty (labels_ne_nil host')

/-- **When the spelling of a name does not matter.**  Two spellings of a host get the same decisions
from a list of rules exactly when the first domain rule of the list that matches one of them matches
both, or else the rules behind it decide about the other one as that rule does; from all lists of
rules exactly when their visible labels are the same bytes.  A host and its CONNECT-UDP form get the
same decisions from all lists exactly when they are the same bytes; and two spellings of a rule's
subject mean the same rule exactly when the subject is an address or a network, or they are the same
bytes. -/
theorem spelling_immaterial_iff (host₁ host₂ : GoString) (hname : SameName host₁ host₂) :
    (∀ h : Handler, SameDecisions h host₁ host₂ ↔ ∀ before d sub allow after,
      h.aclRules = before ++ .domain d sub allow :: after → Untouched before host₁ host₂ →
        domainMatches d sub host₁ = domainMatches d sub host₂ ∨
        (domainMatches d sub host₁ = true ∧
          AgreesBehind (Asked h host₁ host₂) before after allow host₂) ∨
        (domainMatches d sub host₂ = true ∧
          AgreesBehind (Asked h host₁ host₂) before after allow host₁)) ∧
    ((∀ h : Handler, Built h.aclRules → SameDecisions h host₁ host₂) ↔
      visible host₁ = visible host₂) ∧
    (∀ lib name, ConnectUdp.canonicalDomain lib name = some host₂ →
      ((∀ h : Handler, Built h.aclRules → SameDecisions h host₁ host₂) ↔ host₁ = host₂)) ∧
    (∀ subject₁ subject₂ allow rule₁ rule₂, lower subject₁ = lower subject₂ →
      newACLRule subject₁ allow = .ok rule₁ → newACLRule subject₂ allow = .ok rule₂ →
      ((∀ ip host, rule₁.tryMatch ip host = rule₂.tryMatch ip host) ↔
        subject₁ = subject₂ ∨ (subjectNet subject₁).isSome = true)) := by
  refine ⟨fun h => sameDecisions_iff_rules h host₁ host₂, sameDecisions_iff_visible hname, ?_, ?_⟩
  · intro lib name hcanonical
    exact sameDecisions_iff_canonical hcanonical hname
  · intro subject₁ subject₂ allow rule₁ rule₂ hlower hread₁ hread₂
    exact tryMatch_congr_iff_subject hlower hread₁ hread₂

/-- The rules `deny *.example.com`, `allow all`. -/
def denySubdomains : Handler :=
  { aclRules := [.domain (ascii "example.com") true false, .all true] }

/-- The rule matches both spellings of the host, and so denies both, although a rule could tell them
apart. -/
theorem spelling_immaterial_iff_denySubdomains :
    SameName (ascii "WWW.example.com") (ascii "www.example.com") ∧
      SameDecisions denySubdomains (ascii "WWW.example.com") (ascii "www.example.com") ∧
      (∀ ip, hostIsAllowed denySubdomains (ascii "WWW.example.com") ip = false) ∧
      ¬ ∀ h : Handler, Built h.aclRules →
        SameDecisions h (ascii "WWW.example.com") (ascii "www.example.com") := by
  have hname : SameName (ascii "WWW.example.com") (ascii "www.example.com") := by decide
  obtain ⟨hrules, hvisible, -⟩ :=
    spelling_immaterial_iff (ascii "WWW.example.com") (ascii "www.example.com") hname
  refine ⟨hname, (hrules denySubdomains).mpr ?_, fun ip => rfl, ?_⟩
  · rintro (_ | ⟨rule, before⟩) d sub allow after heq -
    · obtain ⟨heq, -⟩ := List.cons.inj heq
      obtain ⟨rfl, rfl, rfl⟩ := AclRule.domain.inj heq
      exact Or.inl (by decide)
    · obtain ⟨-, heq⟩ := List.cons.inj heq
      simp [List.singleton_eq_append_iff] at heq
  · rw [hvisible]
    decide

/-- The rules `deny example.com`, `allow all`. -/
def denyExample : Handler := { aclRules := [.domain (ascii "example.com") false false, .all true] }

/-- A CONNECT-UDP request for `Example.com:443`. -/
def exampleRequest : Serve.Request :=
  { method := ascii "CONNECT"
    url := { scheme := ascii "https", host := ascii "proxy.example",
             path := ascii "/.well-known/masque/udp/Example.com/443/" }
    proto := ascii "connect-udp", protoMajor := 3, protoMinor := 0
    header := [(ascii "Capsule-Protocol", [ascii "?1"])]
    host := ascii "proxy.example" }

/-- **A denied domain in another spelling.**  The rule denies `example.com`; with a capital letter
or a dot behind it the host passes both stages.  The same name in a CONNECT-UDP request is denied,
and the rule written with a capital letter does not deny `example.com`. -/
theorem denyExample_spellings :
    Built denyExample.aclRules ∧
    SameName (ascii "Example.com") (ascii "example.com") ∧
    SameName (ascii "example.com.") (ascii "example.com") ∧
    (prepareTargetPolicy denyExample (ascii "example.com:443")).2.2 = some .domainDenied ∧
    (prepareTargetPolicy denyExample (ascii "Example.com:443")).2.2 = none ∧
    (prepareTargetPolicy denyExample (ascii "example.com.:443")).2.2 = none ∧
    hostIsAllowed denyExample (ascii "example.com") [192, 0, 2, 7] = false ∧
    hostIsAllowed denyExample (ascii "Example.com") [192, 0, 2, 7] = true ∧
    hostIsAllowed denyExample (ascii "example.com.") [192, 0, 2, 7] = true ∧
    (∃ target, ConnectUdp.parseConnectUDPTarget ConnectUdp.asciiLib exampleRequest = some target ∧
      (prepareTargetPolicy denyExample target.hostPort).2.2 = some .domainDenied) ∧
    newACLRule (ascii "Example.com") false = .ok (.domain (ascii "Example.com") false false) ∧
    AclRule.tryMatch (.domain (ascii "Example.com") false false) none (ascii "example.com") =
      .noMatch := by
  refine ⟨?_, by decide, by decide, by decide, by decide, by decide, by decide, by decide,
    by decide, ⟨⟨ascii "example.com", ascii "443", ascii "example.com:443"⟩, by decide +kernel,
      by decide⟩, by decide, by decide⟩
  intro rule hrule
  rcases List.mem_cons.mp hrule with rfl | hrule
  · exact ⟨ascii "example.com", false, by decide⟩
  · rw [List.mem_singleton.mp hrule]
    exact ⟨ascii "all", true, rfl⟩

end Acl
end ForwardProxy
