import ForwardProxy.Core.NetIP

/-!
# Access control rules (`acl.go`)

A rule is about an IP network, about a domain or about everything, and either allows
or denies.  `newACLRule` reads the subject of a rule: the word `all`, a network, a
single address, or a domain with an optional `*.` in front.  `provisionACL` is the
part of `Provision` that turns the configured subjects into rules, in order, and
appends the defaults.
-/

namespace ForwardProxy
namespace Acl

open ForwardProxy.Core

/-- `ACLRule`: the subjects of one directive and what it does with them. -/
structure ACLRule where
  subjects : List GoString
  allow : Bool
  deriving DecidableEq, Repr

/-- `aclDecision`. -/
inductive Decision where
  | allow
  | deny
  | noMatch
  deriving DecidableEq, Repr

/-- The three implementations of the interface `aclRule`: `aclIPRule`,
`aclDomainRule` and `aclAllRule`. -/
inductive AclRule where
  | ip (net : IPNet) (allow : Bool)
  | domain (domain : GoString) (subdomainsAllowed allow : Bool)
  | all (allow : Bool)
  deriving DecidableEq, Repr

/-- The decision of a rule that matches. -/
def Decision.ofAllow (allow : Bool) : Decision := if allow then .allow else .deny

/-- Whether `aclDomainRule.tryMatch` finds its domain in the host. -/
def domainMatches (domain : GoString) (subdomainsAllowed : Bool) (host : GoString) : Bool :=
  let host := trimPrefix host [dot]
  host == domain || (subdomainsAllowed && (dot :: domain).isSuffixOf host)

/-- `tryMatch`; the nil address is `none`. -/
def AclRule.tryMatch : AclRule → Option IP → GoString → Decision
  | .ip net allow, addr, _ =>
    if net.contains (addr.getD []) then Decision.ofAllow allow else .noMatch
  | .domain dom sub allow, _, host =>
    if domainMatches dom sub host then Decision.ofAllow allow else .noMatch
  | .all allow, _, _ => Decision.ofAllow allow

/-- The type assertion `rule.(*aclDomainRule)`. -/
def AclRule.isDomain : AclRule → Bool
  | .domain .. => true
  | _ => false

/-! ## Reading a subject -/

/-- The bytes `isValidDomainLite` lets through. -/
def isDomainByte (c : UInt8) : Bool :=
  (97 ≤ c && c ≤ 122) || (65 ≤ c && c ≤ 90) || c == 95 || isDigit c || c == 45 || c == dot

/-- Go's `string(c)` of a byte: the UTF-8 form of that code point. -/
def runeString (c : UInt8) : GoString :=
  if c < 128 then [c] else [192 + c / 64, 128 + c % 64]

/-- `isValidDomainLite`: the error, or `none` when the domain seems valid. -/
def isValidDomainLite (domain : GoString) : Option GoString :=
  match domain.find? (fun c => !isDomainByte c) with
  | some c => some (ascii "character " ++ runeString c ++ ascii " is not allowed")
  | none =>
    (split domain dot).findSome? fun s =>
      if s.length = 0 then
        some (ascii "empty section between dots in domain name or trailing dot")
      else if 63 < s.length then some (ascii "domain name section is too long")
      else none

/-- The network a subject denotes: `ParseCIDR`, or else a single address with a full
mask. -/
def subjectNet (subject : GoString) : Option IPNet :=
  match parseCIDR subject with
  | some net => some net
  | none =>
    match parseIP subject with
    | none => none
    | some ip =>
      if ip.to4.isSome then parseCIDR (subject ++ ascii "/32")
      else if ip.to16.isSome then parseCIDR (subject ++ ascii "/128")
      else none

/-- `newACLRule`. -/
def newACLRule (ruleSubject : GoString) (allow : Bool) : Except GoString AclRule :=
  if ruleSubject = ascii "all" then .ok (.all allow)
  else
    match subjectNet ruleSubject with
    | some net => .ok (.ip net allow)
    | none =>
      let sub := (ascii "*.").isPrefixOf ruleSubject
      let domain := if sub then ruleSubject.drop 2 else ruleSubject
      match isValidDomainLite domain with
      | some err => .error (domain ++
          ascii " could not be parsed as either IP, IP network, or domain: " ++ err)
      | none => .ok (.domain domain sub allow)

/-- The networks `Provision` denies by default. -/
def defaultDenied : List GoString :=
  [ascii "10.0.0.0/8", ascii "127.0.0.0/8", ascii "172.16.0.0/12", ascii "192.168.0.0/16",
    ascii "::1/128", ascii "fe80::/10"]

/-- The rules of one directive, in the order of its subjects. -/
def directiveRules (rule : ACLRule) : Except GoString (List AclRule) :=
  rule.subjects.mapM fun subj => newACLRule subj rule.allow

/-- The part of `Provision` that builds `h.aclRules`: the configured rules in order,
the denied networks, and a rule that allows everything. -/
def provisionACL (acl : List ACLRule) : Except GoString (List AclRule) := do
  let configured ← acl.mapM directiveRules
  let denied ← defaultDenied.mapM fun ipDeny => newACLRule ipDeny false
  return configured.flatten ++ denied ++ [.all true]

/-! ## What a rule can decide -/

/-- A domain rule does not look at the address. -/
theorem AclRule.tryMatch_of_isDomain {r : AclRule} (h : r.isDomain = true) (ip ip' : Option IP)
    (host : GoString) : r.tryMatch ip host = r.tryMatch ip' host := by
  cases r with
  | domain d sub allow => rfl
  | ip net allow => exact absurd h (by simp [AclRule.isDomain])
  | all allow => exact absurd h (by simp [AclRule.isDomain])

end Acl
end ForwardProxy
