import ForwardProxy.Acl.Rule
import ForwardProxy.Core.Networks

/-!
# What an address or a network denotes as the subject of a rule

`newACLRule` turns a single address into a network with one address in it, by writing `/32` behind
it when the address has a 4-byte form and `/128` otherwise.  The number of bits is chosen from the
value of the address, and `ParseCIDR` counts it in the bytes of the text.  The two agree for every
text but one kind: an IPv4 address in its IPv6 spelling.  Behind `::ffff:1.2.3.4` the suffix `/32`
keeps four zero bytes, and the rule is about the network `::/32`, in which that address is not.
-/

namespace ForwardProxy
namespace Acl

open ForwardProxy.Core

/-- A rule applies to an address. -/
def AclRule.Matches (rule : AclRule) (x : IP) (host : GoString) : Prop :=
  rule.tryMatch (some x) host ≠ .noMatch

/-- The rule of a subject is about the addresses that the subject spells: a single address, or the
network. -/
structure Exact (subject : GoString) (allow : Bool) : Prop where
  single : ∀ ip, parseIP subject = some ip → ∃ rule, newACLRule subject allow = .ok rule ∧
    ∀ (x : IP) (host : GoString), x.Regular → (rule.Matches x host ↔ ip.equal x = true)
  network : ∀ net, parseCIDR subject = some net → ∃ rule, newACLRule subject allow = .ok rule ∧
    ∀ (x : IP) (host : GoString), x.Regular → (rule.Matches x host ↔ net.Agrees x)
  /-- It does not matter in which form the address is given. -/
  forms : (parseIP subject).isSome ∨ (parseCIDR subject).isSome →
    ∀ rule, newACLRule subject allow = .ok rule →
      ∀ (x x' : IP) (host : GoString), x.to16 = some x' →
        rule.tryMatch (some x') host = rule.tryMatch (some x) host

/-- The IPv6 spelling of an IPv4 address. -/
def MappedText (subject : GoString) : Prop :=
  ((parseIP subject).bind IP.to4).isSome ∧ colon ∈ subject

instance (subject : GoString) : Decidable (MappedText subject) :=
  inferInstanceAs (Decidable (_ ∧ _))

/-! ## The network of a single address -/

/-- The bits that `newACLRule` writes behind a single address. -/
def fullBits (a : Addr) : ℕ := if a.as16.to4.isSome then 32 else 128

theorem subjectNet_of_parseAddr {subject : GoString} {a : Addr} (h : parseAddr subject = some a)
    (hzone : a.zone = []) : subjectNet subject = some (a.network (fullBits a)) := by
  have hregular := regular_bytes_of_parseAddr h hzone
  have hcidr : parseCIDR subject = none := by
    rw [parseCIDR, indexByte_eq_none (parseAddr_shape h hzone).1]
  have hip : parseIP subject = some a.as16 := by simp [parseIP, h, hzone]
  simp only [subjectNet, hcidr, hip, fullBits]
  by_cases h4 : a.as16.to4.isSome = true
  · rw [if_pos h4, if_pos h4]
    have hbits : ascii "/32" = slash :: ascii "32" := rfl
    have hvalue : digitsValue (ascii "32") = 32 := rfl
    have hle : 32 ≤ a.bitLen := by
      rw [Addr.bitLen]
      rcases hregular with hlen | hlen <;> omega
    rw [hbits, parseCIDR_append h hzone (by decide) (by decide) (hvalue ▸ hle), hvalue]
  · have h16 : a.as16.to16.isSome = true := by simp [IP.to16, length_as16 hregular]
    rw [if_neg h4, if_neg h4, if_pos h16]
    have hbits : ascii "/128" = slash :: ascii "128" := rfl
    have hvalue : digitsValue (ascii "128") = 128 := rfl
    have hle : 128 ≤ a.bitLen := by
      rcases hregular with hlen | hlen
      · -- four bytes have a 4-byte form
        exact absurd (by simp [Addr.as16, hlen, IP.to4, v4InV6Prefix]) h4
      · rw [Addr.bitLen, hlen]
    rw [hbits, parseCIDR_append h hzone (by decide) (by decide) (hvalue ▸ hle), hvalue]

theorem newACLRule_of_subjectNet {subject : GoString} {net : IPNet}
    (h : subjectNet subject = some net) (allow : Bool) :
    newACLRule subject allow = .ok (.ip net allow) := by
  have hall : subject ≠ ascii "all" := by
    rintro rfl
    have hnone : subjectNet (ascii "all") = none := by decide
    exact absurd (hnone.symm.trans h) (by simp)
  rw [newACLRule, if_neg hall, h]

theorem matches_ip_iff {net : IPNet} (hnet : net.Regular) (allow : Bool) (x : IP)
    (host : GoString) : (AclRule.ip net allow).Matches x host ↔ net.Agrees x := by
  rw [← contains_iff_agrees hnet, AclRule.Matches, AclRule.tryMatch, Option.getD_some]
  cases allow <;> cases net.contains x <;> simp [Decision.ofAllow]

/-- The mapped spelling with 32 bits gives the network of zeros, which has no 4-byte form. -/
theorem short_network_mapped {a : Addr} {v : IP} (hv : v.length = 4)
    (h : a.bytes = v4InV6Prefix ++ v) : (a.network 32).ip.short.length = 16 := by
  have hmask : cidrMask 32 16 = List.replicate 4 255 ++ List.replicate 12 0 := by decide
  have hlen : a.bytes.length = 16 := by simp [h, hv, v4InV6Prefix]
  have hzero : (a.network 32).ip = List.replicate 16 0 := by
    rw [Addr.network, hlen, hmask, h]
    obtain ⟨p, q, r, s, rfl⟩ := List.length_eq_four.mp hv
    simp [v4InV6Prefix, List.replicate]
  rw [hzero]
  decide

/-! ## Which subjects are exact -/

/-- The rule of a single address that is not in the mapped spelling. -/
theorem agrees_network_fullBits {a : Addr} (h : IP.Regular a.bytes)
    (hfull : fullBits a = a.bitLen) {x : IP} (hx : x.Regular) :
    (a.network (fullBits a)).Agrees x ↔ a.as16.equal x = true := by
  have hshort : a.as16.short = IP.short a.bytes := by
    rcases h with h | h
    · rw [Addr.as16, if_pos h, IP.short_mapped h, IP.short_of_length_four h]
    · rw [Addr.as16, if_neg (by omega)]
  rw [hfull, Addr.network_full h, agrees_full_iff h rfl, IP.equal_iff (Or.inr (length_as16 h)) hx,
    hshort, eq_comm]

/-- A single address gets all its bits unless it is in the mapped spelling. -/
theorem fullBits_eq_or {subject : GoString} {a : Addr} (h : parseAddr subject = some a)
    (hzone : a.zone = []) :
    (fullBits a = a.bitLen ∧ ¬ MappedText subject) ∨
      (fullBits a = 32 ∧ MappedText subject ∧ ∃ v : IP, v.length = 4 ∧
        a.bytes = v4InV6Prefix ++ v) := by
  have hip : parseIP subject = some a.as16 := by simp [parseIP, h, hzone]
  have hmapped : MappedText subject ↔ a.as16.to4.isSome = true ∧ colon ∈ subject := by
    rw [MappedText, hip, Option.bind_some]
  rcases (parseAddr_shape h hzone).2 with ⟨hlen, hcolon⟩ | ⟨hlen, hcolon⟩
  · have h4 : a.as16.to4.isSome = true := by simp [Addr.as16, hlen, IP.to4, v4InV6Prefix]
    exact Or.inl ⟨by rw [fullBits, if_pos h4, Addr.bitLen, hlen],
      fun hm => hcolon (hmapped.mp hm).2⟩
  · have has16 : a.as16 = a.bytes := by rw [Addr.as16, if_neg (by omega)]
    rcases IP.Regular.cases (Or.inr hlen) with h4 | ⟨v, hv, hbytes⟩ | ⟨-, hnone⟩
    · omega
    · have h4 : a.as16.to4.isSome = true := by
        rw [has16, hbytes]
        simp [IP.to4, hv, v4InV6Prefix]
      exact Or.inr ⟨if_pos h4, hmapped.mpr ⟨h4, hcolon⟩, v, hv, hbytes⟩
    · have h4 : ¬ a.as16.to4.isSome = true := by simp [has16, hnone]
      exact Or.inl ⟨by rw [fullBits, if_neg h4, Addr.bitLen, hlen], fun hm => h4 (hmapped.mp hm).1⟩

/-- A subject denotes the addresses it spells exactly when it is not the IPv6 spelling of an IPv4
address. -/
theorem exact_iff (subject : GoString) (allow : Bool) :
    Exact subject allow ↔ ¬ MappedText subject := by
  constructor
  · intro hexact hmapped
    obtain ⟨ip, hip⟩ := Option.isSome_iff_exists.mp (Option.isSome_of_isSome_bind hmapped.1)
    obtain ⟨a, ha, hzone, rfl⟩ := exists_addr_of_parseIP hip
    obtain ⟨rule, hrule, hmatches⟩ := hexact.single _ hip
    have hregular := regular_bytes_of_parseAddr ha hzone
    rw [newACLRule_of_subjectNet (subjectNet_of_parseAddr ha hzone)] at hrule
    rcases fullBits_eq_or ha hzone with ⟨-, hnot⟩ | ⟨hbits, -, v, hv, hbytes⟩
    · exact hnot hmapped
    -- the address itself has four bytes in its short form, the network sixteen
    have hself : (a.network 32).Agrees a.as16 := by
      rw [← matches_ip_iff (a.regular_network hregular 32) allow _ [], ← hbits,
        Except.ok.inj hrule]
      exact (hmatches _ [] (Or.inr (length_as16 hregular))).mpr
        ((IP.equal_of_length_eq rfl).mpr rfl)
    have hshort : a.as16.short = v := by
      rw [Addr.as16, if_neg (by simp [hbytes, hv, v4InV6Prefix]), hbytes, IP.short_mapped hv]
    have hlen := hself.1
    rw [hshort, hv, short_network_mapped hv hbytes] at hlen
    exact absurd hlen (by decide)
  · intro hmapped
    refine ⟨fun ip hip => ?_, fun net hnet => ?_, fun hsome rule hrule x x' host hx => ?_⟩
    · obtain ⟨a, ha, hzone, rfl⟩ := exists_addr_of_parseIP hip
      have hregular := regular_bytes_of_parseAddr ha hzone
      refine ⟨_, newACLRule_of_subjectNet (subjectNet_of_parseAddr ha hzone) allow, ?_⟩
      intro x host hx
      rcases fullBits_eq_or ha hzone with ⟨hfull, -⟩ | ⟨-, hm, -⟩
      · rw [matches_ip_iff (a.regular_network hregular _),
          agrees_network_fullBits hregular hfull hx]
      · exact absurd hm hmapped
    · have hsubject : subjectNet subject = some net := by rw [subjectNet, hnet]
      exact ⟨_, newACLRule_of_subjectNet hsubject allow,
        fun x host _ => matches_ip_iff (regular_of_parseCIDR hnet) allow x host⟩
    · obtain ⟨net, hnet⟩ : ∃ net, subjectNet subject = some net := by
        rcases hsome with hsome | hsome
        · obtain ⟨ip, hip⟩ := Option.isSome_iff_exists.mp hsome
          obtain ⟨a, ha, hzone, -⟩ := exists_addr_of_parseIP hip
          exact ⟨_, subjectNet_of_parseAddr ha hzone⟩
        · obtain ⟨net, hnet⟩ := Option.isSome_iff_exists.mp hsome
          exact ⟨net, by rw [subjectNet, hnet]⟩
      rw [newACLRule_of_subjectNet hnet] at hrule
      rw [← Except.ok.inj hrule, AclRule.tryMatch, AclRule.tryMatch, Option.getD_some,
        Option.getD_some, contains_congr_to16 net hx]

/-- A rule that denies `::ffff:1.2.3.4` does not match that address in either form, and denies
`::1`. -/
theorem mappedSubject_not_exact :
    parseIP (ascii "::ffff:1.2.3.4") = some (v4InV6Prefix ++ [1, 2, 3, 4]) ∧
    (∃ rule, newACLRule (ascii "::ffff:1.2.3.4") false = .ok rule ∧
      rule.tryMatch (some [1, 2, 3, 4]) [] = .noMatch ∧
      rule.tryMatch (some (v4InV6Prefix ++ [1, 2, 3, 4])) [] = .noMatch ∧
      rule.tryMatch (some (List.replicate 15 0 ++ [1])) [] = .deny) ∧
    ¬ Exact (ascii "::ffff:1.2.3.4") false := by
  have hip : parseIP (ascii "::ffff:1.2.3.4") = some (v4InV6Prefix ++ [1, 2, 3, 4]) := by decide
  have hnet : subjectNet (ascii "::ffff:1.2.3.4") =
      some ⟨List.replicate 16 0, List.replicate 4 255 ++ List.replicate 12 0⟩ := by decide
  have hrule := newACLRule_of_subjectNet hnet false
  refine ⟨hip, ⟨_, hrule, by decide, by decide, by decide⟩, fun hexact => ?_⟩
  obtain ⟨rule, hrule', hmatches⟩ := hexact.single _ hip
  have hsame := Except.ok.inj (hrule.symm.trans hrule')
  have hmatch := (hmatches [1, 2, 3, 4] [] (Or.inl rfl)).mpr (by decide)
  rw [← hsame] at hmatch
  exact hmatch (by decide)

end Acl
end ForwardProxy
