import ForwardProxy.Acl.Policy
import Mathlib.Data.List.DropRight

/-!
# Domain rules by labels

A domain rule compares bytes: the host is the domain, or it ends with a dot and the domain.
Read by labels this is what the rule means: the labels of the domain are the labels of the host,
or, with a wildcard, the last labels of the host.

The labels a rule can have are restricted (`labelOk`), so a rule sees of a host only its last
labels as far as they are such labels (`visible`).  For the same reason the subject of a domain rule
has no slash and no star, and is taken for a network only if it is an address
(`newACLRule_of_valid`), with `*.` in front of it never (`newACLRule_wildcard`).
-/

namespace ForwardProxy
namespace Acl

open ForwardProxy.Core

/-! ## Labels -/

/-- The labels of a name. -/
def labels (name : GoString) : List GoString := split name dot

theorem labels_ne_nil (name : GoString) : labels name ≠ [] :=
  List.splitOn_ne_nil dot name

theorem labels_append_dot (a b : GoString) : labels (a ++ dot :: b) = labels a ++ labels b :=
  List.splitOn_append_cons_self ..

theorem labels_injective {a b : GoString} (h : labels a = labels b) : a = b := by
  have hjoin : ∀ s : GoString, [dot].intercalate (labels s) = s := fun s =>
    List.intercalate_splitOn dot
  rw [← hjoin a, h, hjoin b]

theorem mem_label_iff {s : GoString} {c : UInt8} :
    (∃ l ∈ labels s, c ∈ l) ↔ c ∈ s ∧ c ≠ dot := mem_split_iff

theorem dot_notMem_label {s l : GoString} (hl : l ∈ labels s) : dot ∉ l :=
  sep_notMem_of_mem_split hl

/-- **Suffixes of labels are suffixes behind a dot.** -/
theorem labels_suffix_iff {d s : GoString} :
    labels d <:+ labels s ↔ s = d ∨ (dot :: d) <:+ s := by
  constructor
  · rintro ⟨t, ht⟩
    by_cases hnil : t = []
    · rw [hnil, List.nil_append] at ht
      exact Or.inl (labels_injective ht).symm
    · refine Or.inr ⟨[dot].intercalate t, labels_injective ?_⟩
      have hdots : ∀ l ∈ t, dot ∉ l :=
        fun l hl => dot_notMem_label (ht ▸ List.mem_append_left _ hl)
      rw [labels_append_dot, ← ht]
      exact congrArg (· ++ labels d) (List.splitOn_intercalate dot hdots hnil)
  · rintro (rfl | ⟨a, rfl⟩)
    · exact List.suffix_rfl
    · rw [labels_append_dot]
      exact List.suffix_append ..

/-! ## Matching -/

/-- The labels of a host, after the one dot in front of it that a rule ignores. -/
def hostLabels (host : GoString) : List GoString := labels (trimPrefix host [dot])

/-- A wildcard rule matches the hosts that end with its labels. -/
theorem domainMatches_wildcard (d host : GoString) :
    domainMatches d true host = true ↔ labels d <:+ hostLabels host := by
  rw [hostLabels, labels_suffix_iff, domainMatches]
  simp [List.isSuffixOf_iff_suffix]

/-- Any other rule matches the hosts that have its labels. -/
theorem domainMatches_exact (d host : GoString) :
    domainMatches d false host = true ↔ labels d = hostLabels host := by
  have hiff : labels d = hostLabels host ↔ trimPrefix host [dot] = d :=
    ⟨fun h => (labels_injective h).symm, fun h => by rw [hostLabels, h]⟩
  rw [hiff, domainMatches]
  simp

/-! ## What a rule can see -/

/-- The labels that a rule can have. -/
def labelOk (label : GoString) : Bool :=
  label ≠ [] && label.length ≤ 63 && label.all isDomainByte

/-- The domains that `isValidDomainLite` accepts are made of such labels. -/
theorem isValidDomainLite_eq_none_iff (d : GoString) :
    isValidDomainLite d = none ↔ ∀ l ∈ labels d, labelOk l = true := by
  have hbytes : (∀ c ∈ d, isDomainByte c = true) ↔ ∀ l ∈ labels d, ∀ c ∈ l,
      isDomainByte c = true := by
    constructor
    · intro h l hl c hc
      exact h c (mem_label_iff.mp ⟨l, hl, hc⟩).1
    · intro h c hc
      by_cases hdot : c = dot
      · rw [hdot]; rfl
      · obtain ⟨l, hl, hcl⟩ := mem_label_iff.mpr ⟨hc, hdot⟩
        exact h l hl c hcl
  unfold isValidDomainLite
  cases hfind : d.find? (fun c => !isDomainByte c) with
  | some c =>
    refine iff_of_false (by simp) fun h => ?_
    have hall := hbytes.mpr fun l hl c hc => by
      have := h l hl
      simp only [labelOk, Bool.and_eq_true, List.all_eq_true] at this
      exact this.2 c hc
    have hc := List.find?_some hfind
    rw [hall c (List.mem_of_find?_eq_some hfind)] at hc
    exact absurd hc (by simp)
  | none =>
    have hall : ∀ c ∈ d, isDomainByte c = true := by
      intro c hc
      simpa using List.find?_eq_none.mp hfind c hc
    rw [List.findSome?_eq_none_iff]
    refine forall₂_congr fun l hl => ?_
    have hl' : l.all isDomainByte = true := List.all_eq_true.mpr (hbytes.mp hall l hl)
    simp only [labelOk, hl', Bool.and_true]
    by_cases hnil : l = []
    · simp [hnil]
    · by_cases hlen : 63 < l.length
      · simp [hnil, hlen, not_le.mpr hlen]
      · simp [hnil, hlen, not_lt.mp hlen]

/-- What a rule can see of a host: its last labels, as far as a rule can have them. -/
def visible (host : GoString) : List GoString := (hostLabels host).rtakeWhile labelOk

/-- A suffix all of whose entries have a property lies in the last ones that have it. -/
theorem suffix_rtakeWhile_iff {α : Type*} {p : α → Bool} {l m : List α}
    (hl : ∀ x ∈ l, p x = true) : l <:+ m.rtakeWhile p ↔ l <:+ m := by
  constructor
  · exact fun h => h.trans (List.rtakeWhile_suffix ..)
  · rintro ⟨t, rfl⟩
    induction l using List.reverseRecOn with
    | nil => exact List.nil_suffix
    | append_singleton l x ih =>
      rw [← List.append_assoc, List.rtakeWhile_concat_pos _ _ _ (hl x (by simp))]
      exact (List.suffix_append_inj_of_length_eq rfl).mpr
        ⟨ih fun y hy => hl y (List.mem_append_left _ hy), rfl⟩

/-- A wildcard rule looks at the visible labels only. -/
theorem domainMatches_wildcard_iff_visible {d : GoString} (hd : isValidDomainLite d = none)
    (host : GoString) : domainMatches d true host = true ↔ labels d <:+ visible host := by
  rw [domainMatches_wildcard, visible,
    suffix_rtakeWhile_iff ((isValidDomainLite_eq_none_iff d).mp hd)]

/-- Any other rule looks at the visible labels, and at whether these are all. -/
theorem domainMatches_exact_iff_visible {d : GoString} (hd : isValidDomainLite d = none)
    (host : GoString) : domainMatches d false host = true ↔
      labels d = visible host ∧ visible host = hostLabels host := by
  rw [domainMatches_exact]
  constructor
  · intro h
    have hself : visible host = hostLabels host :=
      List.rtakeWhile_eq_self_iff.mpr (h ▸ (isValidDomainLite_eq_none_iff d).mp hd)
    exact ⟨h.trans hself.symm, hself⟩
  · rintro ⟨h, hself⟩
    exact h.trans hself

/-! ## The rule of a domain -/

theorem isDomainByte_of_valid {d : GoString} (hd : isValidDomainLite d = none) {c : UInt8}
    (hc : c ∈ d) : isDomainByte c = true := by
  unfold isValidDomainLite at hd
  cases hfind : d.find? (fun c => !isDomainByte c) with
  | some b =>
    rw [hfind] at hd
    exact absurd hd (by simp)
  | none => simpa using List.find?_eq_none.mp hfind c hc

theorem slash_notMem_of_valid {d : GoString} (hd : isValidDomainLite d = none) : slash ∉ d :=
  fun hmem => absurd (isDomainByte_of_valid hd hmem) (by decide)

/-- A subject without a slash is a network only if it is an address. -/
theorem subjectNet_of_parseIP_none {subject : GoString} (hslash : slash ∉ subject)
    (hip : parseIP subject = none) : subjectNet subject = none := by
  have hcidr : parseCIDR subject = none := by rw [parseCIDR, indexByte_eq_none hslash]
  simp only [subjectNet, hcidr, hip]

/-- A subject with a wildcard is not an address: its first field is a star. -/
theorem subjectNet_wildcard {d : GoString} (hd : isValidDomainLite d = none) :
    subjectNet (ascii "*." ++ d) = none := by
  have hsplit : split (ascii "*." ++ d) dot = [42] :: split d dot := labels_append_dot [42] d
  have hfields : parseIPv4Fields (ascii "*." ++ d) = none := by
    rw [parseIPv4Fields, hsplit, List.mapM_cons]
    exact ite_eq_right_iff.mpr fun _ => rfl
  have haddr : parseAddr (ascii "*." ++ d) = none := by
    have hfind : (ascii "*." ++ d).find? (fun c => c = dot ∨ c = colon ∨ c = percent) = some dot :=
      rfl
    rw [parseAddr, hfind]
    simp only [if_true, hfields, Option.map_none]
  refine subjectNet_of_parseIP_none ?_ (by rw [parseIP, haddr, Option.bind_none])
  rw [List.mem_append, not_or]
  exact ⟨by decide, slash_notMem_of_valid hd⟩

theorem newACLRule_wildcard {d : GoString} (hd : isValidDomainLite d = none) (allow : Bool) :
    newACLRule (ascii "*." ++ d) allow = .ok (.domain d true allow) := by
  have hne : ascii "*." ++ d ≠ ascii "all" := by
    intro h
    exact absurd (congrArg List.head? h) (by simp [ascii])
  have hsub : (ascii "*.").isPrefixOf (ascii "*." ++ d) = true :=
    List.isPrefixOf_iff_prefix.mpr (List.prefix_append ..)
  have hdrop : (ascii "*." ++ d).drop 2 = d := rfl
  rw [newACLRule, if_neg hne, subjectNet_wildcard hd]
  simp only [hsub, if_true, hdrop, hd]

/-- A domain without a wildcard is read as such, unless it is the word `all` or an address. -/
theorem newACLRule_of_valid {d : GoString} (hd : isValidDomainLite d = none)
    (hall : d ≠ ascii "all") (hip : parseIP d = none) (allow : Bool) :
    newACLRule d allow = .ok (.domain d false allow) := by
  have hsub : (ascii "*.").isPrefixOf d = false := by
    rw [Bool.eq_false_iff]
    intro h
    have hstar : (42 : UInt8) ∈ d :=
      (List.isPrefixOf_iff_prefix.mp h).subset (by decide)
    exact absurd (isDomainByte_of_valid hd hstar) (by decide)
  rw [newACLRule, if_neg hall, subjectNet_of_parseIP_none (slash_notMem_of_valid hd) hip]
  simp only [hsub, Bool.false_eq_true, if_false, hd]

theorem ofAllow_ne_noMatch (allow : Bool) : Decision.ofAllow allow ≠ .noMatch := by
  cases allow <;> decide

/-- A domain rule matches where it finds its domain, whatever it then decides. -/
theorem tryMatch_domain_ne_noMatch_iff (d : GoString) (sub allow : Bool) (ip : Option IP)
    (host : GoString) : (AclRule.domain d sub allow).tryMatch ip host ≠ .noMatch ↔
      domainMatches d sub host = true := by
  rw [AclRule.tryMatch]
  split_ifs with h
  · exact iff_of_true (ofAllow_ne_noMatch allow) h
  · exact iff_of_false (fun hne => hne rfl) h

/-- **Domain rules match on label boundaries.**  The rule of `*.` and a domain matches the hosts
whose last labels are those of the domain.  The rule of the domain alone, unless it is the word
`all` or an address, matches the hosts that have its labels and no others. -/
theorem domainRule_matches_iff (d : GoString) (hd : isValidDomainLite d = none) (allow : Bool) :
    (∃ rule, newACLRule (ascii "*." ++ d) allow = .ok rule ∧ ∀ ip host,
      (rule.tryMatch ip host ≠ .noMatch ↔ labels d <:+ labels (trimPrefix host [dot]))) ∧
    (d ≠ ascii "all" → parseIP d = none →
      ∃ rule, newACLRule d allow = .ok rule ∧ ∀ ip host,
        (rule.tryMatch ip host ≠ .noMatch ↔ labels d = labels (trimPrefix host [dot]))) := by
  constructor
  · refine ⟨_, newACLRule_wildcard hd allow, fun ip host => ?_⟩
    rw [tryMatch_domain_ne_noMatch_iff]
    exact domainMatches_wildcard d host
  · intro hall hip
    refine ⟨_, newACLRule_of_valid hd hall hip allow, fun ip host => ?_⟩
    rw [tryMatch_domain_ne_noMatch_iff]
    exact domainMatches_exact d host

/-- The rule `*.caddyserver.com` matches `caddyserver.com` and `subdomain.caddyserver.com`, but not
`fakecaddyserver.com`; the rule `caddyserver.com` matches only the first. -/
theorem domainRule_matches_caddyserver :
    isValidDomainLite (ascii "caddyserver.com") = none ∧
    (∃ rule, newACLRule (ascii "*." ++ ascii "caddyserver.com") false = .ok rule ∧
      rule.tryMatch none (ascii "caddyserver.com") ≠ .noMatch ∧
      rule.tryMatch none (ascii "subdomain.caddyserver.com") ≠ .noMatch ∧
      ¬ rule.tryMatch none (ascii "fakecaddyserver.com") ≠ .noMatch) ∧
    ∃ rule, newACLRule (ascii "caddyserver.com") false = .ok rule ∧
      rule.tryMatch none (ascii ".caddyserver.com") ≠ .noMatch ∧
      ¬ rule.tryMatch none (ascii "subdomain.caddyserver.com") ≠ .noMatch := by
  have hd : isValidDomainLite (ascii "caddyserver.com") = none := by decide +kernel
  obtain ⟨⟨wild, hwild, hsuffix⟩, hplain⟩ := domainRule_matches_iff _ hd false
  obtain ⟨plain, hplain, hequal⟩ := hplain (by decide) (by decide +kernel)
  refine ⟨hd, ⟨wild, hwild, ?_, ?_, ?_⟩, plain, hplain, ?_, ?_⟩
  · rw [hsuffix]
    decide +kernel
  · rw [hsuffix]
    decide +kernel
  · rw [hsuffix]
    decide +kernel
  · rw [hequal]
    decide +kernel
  · rw [hequal]
    decide +kernel

end Acl
end ForwardProxy
