import ForwardProxy.Core.HostPort
import ForwardProxy.Handler

/-!
# The target policy: which addresses the proxy is willing to dial

The policy has two stages.  `prepareTargetPolicy` looks at the name before anything is
resolved: it splits host and port, checks the port, and walks the *domain* rules alone.
`hostIsAllowed` is asked about every resolved address and walks *all* rules.  The
documentation promises one thing only, namely that the rules are tried in order until
one matches; `FirstMatch` states that order.

The second stage is the order, by construction (`hostIsAllowed_iff_firstMatch`).  The
first stage is not: it skips the network rules and the `all` rules, so a denying domain
rule takes effect even when an earlier rule of another kind would have allowed the
address.  `Overruled` says exactly when that happens, and
`dialable_eq_iff_not_overruled` that the two stages together are the order exactly when
it does not.
-/

namespace ForwardProxy
namespace Acl

open ForwardProxy.Core

/-! ## The code -/

/-- The loop of `hostIsAllowed`. -/
def rulesAllow : List AclRule → GoString → Option IP → Bool
  | [], _, _ => false
  | rule :: rules, host, ip =>
    match rule.tryMatch ip host with
    | .deny => false
    | .allow => true
    | .noMatch => rulesAllow rules host ip

/-- `hostIsAllowed`. -/
def hostIsAllowed (h : Handler) (hostname : GoString) (ip : IP) : Bool :=
  rulesAllow h.aclRules hostname (some ip)

/-- `portIsAllowed`. -/
def portIsAllowed (h : Handler) (port : GoString) : Bool :=
  match atoi port with
  | none => false
  | some portInt =>
    if portInt ≤ 0 || 65535 < portInt then false
    else if h.allowedPorts.length = 0 then true
    else h.allowedPorts.contains portInt

/-- `targetPolicyFailure`: its kind, and the cause where there is one. -/
inductive PolicyFailure where
  | malformed (cause : AddrError)
  | portDenied
  | domainDenied
  | lookupFailed (cause : NetError)
  | noAllowedAddress
  deriving DecidableEq, Repr

/-- The loop of `prepareTargetPolicy` over the domain rules. -/
def domainPolicy : List AclRule → GoString → Option PolicyFailure
  | [], _ => none
  | rule :: rules, host =>
    if !rule.isDomain then domainPolicy rules host
    else
      match rule.tryMatch none host with
      | .deny => some .domainDenied
      | .allow => none
      | .noMatch => domainPolicy rules host

/-- `prepareTargetPolicy`: host, port and the failure, if any. -/
def prepareTargetPolicy (h : Handler) (hostPort : GoString) :
    GoString × GoString × Option PolicyFailure :=
  match splitHostPort hostPort with
  | .error err => ([], [], some (.malformed err))
  | .ok (host, port) =>
    if !portIsAllowed h port then (host, port, some .portDenied)
    else (host, port, domainPolicy h.aclRules host)

/-- The resolved addresses the proxy is willing to dial: none when the first stage
fails, else those the second stage lets through. -/
def dialable (h : Handler) (hostPort : GoString) (resolved : List IP) : List IP :=
  match prepareTargetPolicy h hostPort with
  | (_, _, some _) => []
  | (host, _, none) => resolved.filter (hostIsAllowed h host)

/-! ## Rules in order -/

/-- The first rule that matches the host and the address decides `d`. -/
def FirstMatch (rules : List AclRule) (host : GoString) (ip : IP) (d : Decision) : Prop :=
  ∃ pre r post, rules = pre ++ r :: post ∧
    (∀ q ∈ pre, q.tryMatch (some ip) host = .noMatch) ∧
    r.tryMatch (some ip) host = d ∧ d ≠ .noMatch

theorem firstMatch_cons_of_noMatch {rule : AclRule} {rules : List AclRule} {host : GoString}
    {ip : IP} {d : Decision} (h : rule.tryMatch (some ip) host = .noMatch) :
    FirstMatch (rule :: rules) host ip d ↔ FirstMatch rules host ip d := by
  constructor
  · rintro ⟨pre, r, post, heq, hpre, hr, hd⟩
    cases pre with
    | nil =>
      obtain ⟨rfl, rfl⟩ := List.cons_eq_cons.mp heq
      exact absurd (h.symm.trans hr).symm hd
    | cons q pre =>
      obtain ⟨rfl, rfl⟩ := List.cons_eq_cons.mp heq
      exact ⟨pre, r, post, rfl, fun q hq => hpre q (List.mem_cons_of_mem _ hq), hr, hd⟩
  · rintro ⟨pre, r, post, rfl, hpre, hr, hd⟩
    refine ⟨rule :: pre, r, post, rfl, ?_, hr, hd⟩
    intro q hq
    rcases List.mem_cons.mp hq with rfl | hq
    · exact h
    · exact hpre q hq

theorem firstMatch_cons_of_match {rule : AclRule} {rules : List AclRule} {host : GoString}
    {ip : IP} {d : Decision} (h : rule.tryMatch (some ip) host ≠ .noMatch) :
    FirstMatch (rule :: rules) host ip d ↔ rule.tryMatch (some ip) host = d := by
  constructor
  · rintro ⟨pre, r, post, heq, hpre, hr, -⟩
    cases pre with
    | nil =>
      obtain ⟨rfl, rfl⟩ := List.cons_eq_cons.mp heq
      exact hr
    | cons q pre =>
      obtain ⟨rfl, rfl⟩ := List.cons_eq_cons.mp heq
      exact absurd (hpre _ (List.mem_cons_self ..)) h
  · intro hd
    exact ⟨[], rule, rules, rfl, by simp, hd, hd ▸ h⟩

theorem not_firstMatch_nil {host : GoString} {ip : IP} {d : Decision} :
    ¬ FirstMatch [] host ip d := by
  rintro ⟨pre, r, post, heq, -⟩
  exact absurd heq.symm (by simp)

/-- The loop of `hostIsAllowed` finds the first match. -/
theorem rulesAllow_iff_firstMatch (rules : List AclRule) (host : GoString) (ip : IP) :
    rulesAllow rules host (some ip) = true ↔ FirstMatch rules host ip .allow := by
  induction rules with
  | nil => simp [rulesAllow, not_firstMatch_nil]
  | cons rule rules ih =>
    cases hm : rule.tryMatch (some ip) host with
    | noMatch => rw [firstMatch_cons_of_noMatch hm, ← ih, rulesAllow, hm]
    | allow => simp [firstMatch_cons_of_match, rulesAllow, hm]
    | deny => simp [firstMatch_cons_of_match, rulesAllow, hm]

/-- **The second stage is the order.** -/
theorem hostIsAllowed_iff_firstMatch (h : Handler) (host : GoString) (ip : IP) :
    hostIsAllowed h host ip = true ↔ FirstMatch h.aclRules host ip .allow :=
  rulesAllow_iff_firstMatch h.aclRules host ip

instance (rules : List AclRule) (host : GoString) (ip : IP) :
    Decidable (FirstMatch rules host ip .allow) :=
  decidable_of_iff _ (rulesAllow_iff_firstMatch rules host ip)

/-! ## Where the first stage departs from it -/

/-- The domain rule that decides the first stage denies the host, and a rule in front
of it allows the address.  Such a rule is a network rule or an `all` rule: no domain
rule in front of the deciding one matches the host. -/
def Overruled (rules : List AclRule) (host : GoString) (ip : IP) : Prop :=
  ∃ pre dom post, rules = pre ++ dom :: post ∧
    (∀ q ∈ pre, q.isDomain = true → q.tryMatch none host = .noMatch) ∧
    dom.isDomain = true ∧ dom.tryMatch none host = .deny ∧
    FirstMatch pre host ip .allow

/-- The first domain rule that matches the host denies it. -/
def DomainDenies (rules : List AclRule) (host : GoString) : Prop :=
  ∃ (pre : List AclRule) (dom : AclRule) (post : List AclRule), rules = pre ++ dom :: post ∧
    (∀ q ∈ pre, q.isDomain = true → q.tryMatch none host = .noMatch) ∧
    dom.isDomain = true ∧ dom.tryMatch none host = .deny

/-- A rule that the loop passes over goes to the front of the prefix. -/
theorem domainDenies_cons_of_skip {rule : AclRule} {rules : List AclRule} {host : GoString}
    (hrule : rule.isDomain = true → rule.tryMatch none host = .noMatch) :
    DomainDenies (rule :: rules) host ↔ DomainDenies rules host := by
  constructor
  · rintro ⟨pre, dom, post, heq, hpre, hdom, hdeny⟩
    cases pre with
    | nil =>
      obtain ⟨rfl, rfl⟩ := List.cons_eq_cons.mp heq
      exact absurd ((hrule hdom).symm.trans hdeny) (by decide)
    | cons q pre =>
      obtain ⟨rfl, rfl⟩ := List.cons_eq_cons.mp heq
      exact ⟨pre, dom, post, rfl, fun q hq => hpre q (List.mem_cons_of_mem _ hq), hdom, hdeny⟩
  · rintro ⟨pre, dom, post, rfl, hpre, hdom, hdeny⟩
    refine ⟨rule :: pre, dom, post, rfl, ?_, hdom, hdeny⟩
    intro q hq
    rcases List.mem_cons.mp hq with rfl | hq
    · exact hrule
    · exact hpre q hq

/-- A domain rule that matches the host is the one that decides. -/
theorem domainDenies_cons_of_match {rule : AclRule} {rules : List AclRule} {host : GoString}
    (hdomain : rule.isDomain = true) (hmatch : rule.tryMatch none host ≠ .noMatch) :
    DomainDenies (rule :: rules) host ↔ rule.tryMatch none host = .deny := by
  constructor
  · rintro ⟨pre, dom, post, heq, hpre, -, hdeny⟩
    cases pre with
    | nil =>
      obtain ⟨rfl, rfl⟩ := List.cons_eq_cons.mp heq
      exact hdeny
    | cons q pre =>
      obtain ⟨rfl, rfl⟩ := List.cons_eq_cons.mp heq
      exact absurd (hpre _ (List.mem_cons_self ..) hdomain) hmatch
  · intro hdeny
    exact ⟨[], rule, rules, rfl, by simp, hdomain, hdeny⟩

/-- The first stage denies the host exactly when the first domain rule that matches it
is a denying one. -/
theorem domainPolicy_eq_some_iff (rules : List AclRule) (host : GoString) :
    domainPolicy rules host = some .domainDenied ↔ DomainDenies rules host := by
  induction rules with
  | nil => simp [domainPolicy, DomainDenies]
  | cons rule rules ih =>
    cases hd : rule.isDomain with
    | false =>
      rw [domainPolicy, hd, if_pos (by decide), ih, domainDenies_cons_of_skip (by simp [hd])]
    | true =>
      rw [domainPolicy, hd, if_neg (by decide)]
      cases hm : rule.tryMatch none host with
      | noMatch => rw [ih, domainDenies_cons_of_skip fun _ => hm]
      | deny => simp [domainDenies_cons_of_match hd, hm]
      | allow => simp [domainDenies_cons_of_match hd, hm]

/-- A denying domain rule decides, so an address can only be allowed by a rule in front
of it. -/
theorem firstMatch_append_cons_of_deny {pre post : List AclRule} {dom : AclRule}
    {host : GoString} {ip : IP} (hdom : dom.isDomain = true)
    (hdeny : dom.tryMatch none host = .deny) :
    FirstMatch (pre ++ dom :: post) host ip .allow ↔ FirstMatch pre host ip .allow := by
  have hdeny' : dom.tryMatch (some ip) host = .deny :=
    (AclRule.tryMatch_of_isDomain hdom (some ip) none host).trans hdeny
  induction pre with
  | nil =>
    rw [List.nil_append, firstMatch_cons_of_match (by rw [hdeny']; decide), hdeny']
    exact iff_of_false (by decide) not_firstMatch_nil
  | cons q pre ih =>
    rw [List.cons_append]
    by_cases hq : q.tryMatch (some ip) host = .noMatch
    · rw [firstMatch_cons_of_noMatch hq, firstMatch_cons_of_noMatch hq]
      exact ih
    · rw [firstMatch_cons_of_match hq, firstMatch_cons_of_match hq]

/-- An address is overruled exactly when the first stage denies a host for which the
second stage would allow it. -/
theorem overruled_iff (rules : List AclRule) (host : GoString) (ip : IP) :
    Overruled rules host ip ↔
      domainPolicy rules host = some .domainDenied ∧ FirstMatch rules host ip .allow := by
  rw [domainPolicy_eq_some_iff]
  constructor
  · rintro ⟨pre, dom, post, rfl, hpre, hdom, hdeny, hfirst⟩
    exact ⟨⟨pre, dom, post, rfl, hpre, hdom, hdeny⟩,
      (firstMatch_append_cons_of_deny hdom hdeny).mpr hfirst⟩
  · rintro ⟨⟨pre, dom, post, rfl, hpre, hdom, hdeny⟩, hfirst⟩
    exact ⟨pre, dom, post, rfl, hpre, hdom, hdeny,
      (firstMatch_append_cons_of_deny hdom hdeny).mp hfirst⟩

theorem prepareTargetPolicy_eq {h : Handler} {hostPort host port : GoString}
    (hsplit : splitHostPort hostPort = .ok (host, port)) (hport : portIsAllowed h port = true) :
    prepareTargetPolicy h hostPort = (host, port, domainPolicy h.aclRules host) := by
  rw [prepareTargetPolicy, hsplit]
  simp [hport]

/-- The first stage has one failure only once the port is allowed. -/
theorem domainPolicy_eq_none_or (rules : List AclRule) (host : GoString) :
    domainPolicy rules host = none ∨ domainPolicy rules host = some .domainDenied := by
  induction rules with
  | nil => exact Or.inl rfl
  | cons rule rules ih =>
    rw [domainPolicy]
    split
    · exact ih
    · split
      · exact Or.inr rfl
      · exact Or.inl rfl
      · exact ih

theorem dialable_of_domainPolicy_none {h : Handler} {hostPort host port : GoString}
    (hsplit : splitHostPort hostPort = .ok (host, port)) (hport : portIsAllowed h port = true)
    (hnone : domainPolicy h.aclRules host = none) (resolved : List IP) :
    dialable h hostPort resolved =
      resolved.filter fun ip => decide (FirstMatch h.aclRules host ip .allow) := by
  rw [dialable, prepareTargetPolicy_eq hsplit hport, hnone]
  refine List.filter_congr fun ip _ => ?_
  rw [Bool.eq_iff_iff, hostIsAllowed_iff_firstMatch, decide_eq_true_iff]

theorem dialable_of_domainDenied {h : Handler} {hostPort host port : GoString}
    (hsplit : splitHostPort hostPort = .ok (host, port)) (hport : portIsAllowed h port = true)
    (hdenied : domainPolicy h.aclRules host = some .domainDenied) (resolved : List IP) :
    dialable h hostPort resolved = [] := by
  rw [dialable, prepareTargetPolicy_eq hsplit hport, hdenied]

/-- **When the two stages are the order.**  On an allowed port, the addresses the proxy is
willing to dial are those whose first matching rule allows them exactly when none of the
resolved addresses is overruled; and the first stage denies a host only if the second
stage would deny every address, exactly when no address at all is overruled. -/
theorem dialable_eq_iff_not_overruled (h : Handler) (hostPort host port : GoString)
    (hsplit : splitHostPort hostPort = .ok (host, port)) (hport : portIsAllowed h port = true) :
    (∀ resolved : List IP,
      dialable h hostPort resolved =
          resolved.filter (fun ip => decide (FirstMatch h.aclRules host ip .allow)) ↔
        ∀ ip ∈ resolved, ¬ Overruled h.aclRules host ip) ∧
    ((prepareTargetPolicy h hostPort = (host, port, some .domainDenied) →
        ∀ ip, hostIsAllowed h host ip = false) ↔
      ∀ ip, ¬ Overruled h.aclRules host ip) := by
  refine ⟨fun resolved => ?_, ?_⟩
  · rcases domainPolicy_eq_none_or h.aclRules host with hnone | hdenied
    · refine iff_of_true (dialable_of_domainPolicy_none hsplit hport hnone resolved) ?_
      intro ip _ hover
      rw [overruled_iff, hnone] at hover
      exact absurd hover.1 (by simp)
    · rw [dialable_of_domainDenied hsplit hport hdenied, eq_comm, List.filter_eq_nil_iff]
      refine forall₂_congr fun ip _ => ?_
      rw [overruled_iff, decide_eq_true_iff]
      exact not_congr ⟨fun hf => ⟨hdenied, hf⟩, fun ho => ho.2⟩
  · rw [prepareTargetPolicy_eq hsplit hport]
    constructor
    · intro hdeny ip hover
      rw [overruled_iff, ← rulesAllow_iff_firstMatch] at hover
      have hfalse := hdeny (by rw [hover.1]) ip
      rw [hostIsAllowed, hover.2] at hfalse
      exact absurd hfalse (by decide)
    · intro hover heq ip
      have hdenied : domainPolicy h.aclRules host = some .domainDenied :=
        (Prod.mk.inj (Prod.mk.inj heq).2).2
      by_contra htrue
      rw [Bool.not_eq_false, hostIsAllowed_iff_firstMatch] at htrue
      exact hover ip ((overruled_iff _ _ _).mpr ⟨hdenied, htrue⟩)

/-- The rules of the configuration `allow 192.0.2.0/24`, `deny *.example.com`. -/
def networkThenDomain : List AclRule :=
  (provisionACL [⟨[ascii "192.0.2.0/24"], true⟩, ⟨[ascii "*.example.com"], false⟩]).toOption.getD []

/-- The theorem at a configuration whose first rule allows the address and whose second
rule denies the host. -/
theorem dialable_eq_iff_networkThenDomain :
    dialable { aclRules := networkThenDomain } (ascii "www.example.com:443") [[192, 0, 2, 7]] =
        [[192, 0, 2, 7]].filter (fun ip =>
          decide (FirstMatch networkThenDomain (ascii "www.example.com") ip .allow)) ↔
      ∀ ip ∈ [[192, 0, 2, 7]], ¬ Overruled networkThenDomain (ascii "www.example.com") ip :=
  (dialable_eq_iff_not_overruled { aclRules := networkThenDomain } (ascii "www.example.com:443")
    (ascii "www.example.com") (ascii "443") (by decide) (by decide)).1 [[192, 0, 2, 7]]

/-- **A denying domain rule behind an allowing network rule.**  The first rule that matches
the host and the address allows the address, and `hostIsAllowed` says so, but the first
stage denies the host and nothing is dialled. -/
theorem networkThenDomain_denied :
    (∃ rules, provisionACL
        [⟨[ascii "192.0.2.0/24"], true⟩, ⟨[ascii "*.example.com"], false⟩] = .ok rules ∧
      rules = networkThenDomain) ∧
    FirstMatch networkThenDomain (ascii "www.example.com") [192, 0, 2, 7] .allow ∧
    hostIsAllowed { aclRules := networkThenDomain } (ascii "www.example.com") [192, 0, 2, 7]
      = true ∧
    prepareTargetPolicy { aclRules := networkThenDomain } (ascii "www.example.com:443") =
      (ascii "www.example.com", ascii "443", some .domainDenied) ∧
    dialable { aclRules := networkThenDomain } (ascii "www.example.com:443") [[192, 0, 2, 7]]
      = [] := by
  refine ⟨⟨networkThenDomain, ?_, rfl⟩, ?_, ?_, ?_, ?_⟩ <;> decide

end Acl
end ForwardProxy
