import ForwardProxy.ConnectUdp.Target
import ForwardProxy.Core.Decimal
import ForwardProxy.Core.LetterCase

/-!
# Canonical targets

The target that `parseConnectUDPTarget` returns has one spelling.  Its host is the text that
`IP.String` writes, or a name of lower-case labels, and its port is what `strconv.Itoa` writes, so
that `net.SplitHostPort` reads off `hostPort` what was joined.

A target written back into a path is parsed to itself.  Nothing in it needs an escape, the text of
an address is read as that address, and a name is left alone by IDNA.  For the last step IDNA has to
be idempotent, and it has to have mapped upper-case letters, because its output is lower-cased
before it is used (`IdnaLookup`).  One case lies between the two: a name of digits, as IDNA makes it
from full-width digits, can be the text of an IPv4 address, but such a text has one spelling.
-/

namespace ForwardProxy
namespace ConnectUdp

open ForwardProxy.Core Serve

/-! ## The form of a target -/

/-- The canonical text of an address. -/
def CanonicalIP (host : GoString) : Prop :=
  ∃ ip : IP, (ip.length = 4 ∨ ip.length = 16) ∧ host = ip.string

/-- A label: lower-case letters, digits and hyphens, of which none is at an end. -/
structure CanonicalLabel (label : GoString) : Prop where
  ne_nil : label ≠ []
  length_le : label.length ≤ 63
  head_ne : label.head? ≠ some 45
  last_ne : label.getLast? ≠ some 45
  bytes : ∀ c ∈ label, isLabelByte c = true

/-- A name of at most 253 bytes, made of labels. -/
structure CanonicalName (host : GoString) : Prop where
  length_le : host.length ≤ 253
  no_trailing_dot : host.getLast? ≠ some dot
  labels : ∀ label ∈ split host dot, CanonicalLabel label

theorem canonicalLabelOk_iff (label : GoString) : canonicalLabelOk label = true ↔
    CanonicalLabel label := by
  simp only [canonicalLabelOk, Bool.and_eq_true, decide_eq_true_eq, List.all_eq_true]
  constructor
  · rintro ⟨⟨⟨⟨hne, hlen⟩, hhead⟩, hlast⟩, hbytes⟩
    exact ⟨fun hnil => hne (by rw [hnil]; rfl), hlen, hhead, hlast, hbytes⟩
  · rintro ⟨hne, hlen, hhead, hlast, hbytes⟩
    exact ⟨⟨⟨⟨fun h => hne (List.length_eq_zero_iff.mp h), hlen⟩, hhead⟩, hlast⟩, hbytes⟩

/-- What `canonicalDomain` returns. -/
theorem canonicalDomain_eq_some_iff {lib : Lib} {host name : GoString} :
    canonicalDomain lib host = some name ↔
      ∃ a, lib.toASCII host = some a ∧ toLower a = name ∧ CanonicalName name := by
  unfold canonicalDomain
  cases ha : lib.toASCII host with
  | none => simp
  | some a =>
    simp only [Option.some.injEq, exists_eq_left']
    constructor
    · intro h
      split_ifs at h with hbad hlabels
      obtain rfl := Option.some.inj h
      simp only [not_or, not_lt] at hbad
      refine ⟨rfl, hbad.2.1, hbad.2.2, fun label hlabel => (canonicalLabelOk_iff label).mp ?_⟩
      exact List.all_eq_true.mp hlabels label hlabel
    · rintro ⟨rfl, hname⟩
      have hlabels : (split (toLower a) dot).all canonicalLabelOk = true :=
        List.all_eq_true.mpr fun label hlabel =>
          (canonicalLabelOk_iff label).mpr (hname.labels label hlabel)
      have hne : (toLower a).length ≠ 0 := by
        intro hlen
        have hnil := List.length_eq_zero_iff.mp hlen
        have hlabel := hname.labels [] (by rw [hnil]; exact List.mem_cons_self)
        exact hlabel.ne_nil rfl
      rw [if_neg (by simp [hne, hname.length_le, hname.no_trailing_dot]), if_pos hlabels]

/-- A host in its final form. -/
theorem canonical_of_canonicalHost {lib : Lib} {host host' : GoString}
    (h : canonicalHost lib host = some host') : CanonicalIP host' ∨ CanonicalName host' := by
  unfold canonicalHost at h
  cases hip : parseIP host with
  | some ip =>
    rw [hip] at h
    have h16 : ip.length = 16 := length_of_parseIP hip
    exact Or.inl ⟨ip, Or.inr h16, (Option.some.inj h).symm⟩
  | none =>
    rw [hip] at h
    obtain ⟨a, -, -, hname⟩ := canonicalDomain_eq_some_iff.mp h
    exact Or.inr hname

/-! ## The bytes of a target -/

/-- Letters, digits, hyphens, dots and colons. -/
def isTargetByte (c : UInt8) : Bool :=
  (97 ≤ c && c ≤ 122) || (65 ≤ c && c ≤ 90) || isDigit c || c == 45 || c == dot || c == colon

/-- A text of such bytes. -/
def Plain (s : GoString) : Prop := ∀ c ∈ s, isTargetByte c = true

theorem Plain.notMem {s : GoString} (h : Plain s) {c : UInt8} (hc : isTargetByte c = false) :
    c ∉ s := fun hmem => by simp [h c hmem] at hc

theorem isTargetByte_of_isLabelByte {c : UInt8} (h : isLabelByte c = true) :
    isTargetByte c = true := by
  unfold isLabelByte at h
  unfold isTargetByte
  grind

theorem isTargetByte_of_isDigit {c : UInt8} (h : isDigit c = true) : isTargetByte c = true := by
  simp [isTargetByte, h]

theorem isTargetByte_of_hexValue {c : UInt8} (h : (hexValue c).isSome = true) :
    isTargetByte c = true := by
  unfold hexValue at h
  unfold isTargetByte isDigit
  grind

theorem CanonicalName.plain {host : GoString} (h : CanonicalName host) : Plain host := by
  intro c hc
  by_cases hdot : c = dot
  · rw [hdot]
    decide
  · obtain ⟨label, hlabel, hmem⟩ := mem_split_iff.mpr ⟨hc, hdot⟩
    exact isTargetByte_of_isLabelByte ((h.labels label hlabel).bytes c hmem)

theorem CanonicalIP.plain {host : GoString} (h : CanonicalIP host) : Plain host := by
  obtain ⟨ip, hlen, rfl⟩ := h
  intro c hc
  cases h4 : ip.to4 with
  | some p4 =>
    rw [IP.string_of_to4 h4] at hc
    rcases mem_string4 hc with rfl | hdigit
    · decide
    · exact isTargetByte_of_isDigit hdigit
  | none =>
    have hstring : ip.string = string6 (groups ip) := by
      rw [IP.string, if_neg (by omega), if_neg (by omega), h4]
    rw [hstring] at hc
    rcases mem_string6 hc with rfl | hhex
    · decide
    · exact isTargetByte_of_hexValue hhex

theorem plain_itoa (n : ℕ) : Plain (itoa n) := fun c hc =>
  isTargetByte_of_isDigit (List.all_eq_true.mp (all_isDigit_itoa n) c hc)

/-- Nothing in such a text is escaped, in a segment or in a path. -/
theorem not_shouldEscape {c : UInt8} (h : isTargetByte c = true) :
    shouldEscapePath c = false ∧ shouldEscapeSegment c = false := by
  revert h
  refine forall_byte (P := fun c => isTargetByte c = true →
    shouldEscapePath c = false ∧ shouldEscapeSegment c = false) ?_ c
  decide +kernel

/-! ## What the parser accepts -/

theorem parseHostAndPort_eq_some_iff {lib : Lib} {rawHost rawPort : GoString}
    {t : ConnectUDPTarget} :
    parseHostAndPort lib rawHost rawPort = some t ↔
      ¬ (containsString (toLower rawHost) (ascii "%2f") ||
        containsString (toLower rawHost) (ascii "%5c")) = true ∧
      ∃ host, unescapePath rawHost = some host ∧
        ¬ (host = [] || host.any fun c => c ∈ ascii "/\\%@[]") = true ∧
        ¬ (percent ∈ rawPort || !allASCIIDigits rawPort) = true ∧
        ∃ portNumber, atoi rawPort = some portNumber ∧
          ¬ (portNumber < 1 || 65535 < portNumber) = true ∧
          ∃ canonical, canonicalHost lib host = some canonical ∧
            { host := canonical, port := itoa portNumber.toNat,
              hostPort := joinHostPort canonical (itoa portNumber.toNat) } = t := by
  unfold parseHostAndPort
  simp only [Option.bind_eq_bind, Option.bind_none, Option.ite_none_left_eq_some,
    Option.bind_eq_some_iff, Option.pure_def, Option.some.injEq]

/-- A target that the parser makes. -/
structure Parsed (lib : Lib) (t : ConnectUDPTarget) : Prop where
  /-- The host is the final form of something. -/
  host : ∃ host, canonicalHost lib host = some t.host
  port : ∃ n : ℕ, 1 ≤ n ∧ n ≤ 65535 ∧ t.port = itoa n
  hostPort : t.hostPort = joinHostPort t.host t.port

theorem parsed_of_parseHostAndPort {lib : Lib} {rawHost rawPort : GoString} {t : ConnectUDPTarget}
    (h : parseHostAndPort lib rawHost rawPort = some t) : Parsed lib t := by
  obtain ⟨-, host, -, -, -, portNumber, -, hrange, canonical, hhost, rfl⟩ :=
    parseHostAndPort_eq_some_iff.mp h
  simp only [Bool.or_eq_true, decide_eq_true_eq, not_or, not_lt] at hrange
  exact ⟨⟨host, hhost⟩, ⟨portNumber.toNat, by omega, by omega, rfl⟩, rfl⟩

theorem parsed_of_parseConnectUDPTarget {lib : Lib} {r : Request} {t : ConnectUDPTarget}
    (h : parseConnectUDPTarget lib r = some t) : Parsed lib t := by
  unfold parseConnectUDPTarget at h
  split_ifs at h
  split at h
  · split_ifs at h
    exact parsed_of_parseHostAndPort h
  · cases h

section Form

variable {lib : Lib} {t : ConnectUDPTarget} (h : Parsed lib t)

include h

theorem Parsed.canonical : CanonicalIP t.host ∨ CanonicalName t.host := by
  obtain ⟨host, hhost⟩ := h.host
  exact canonical_of_canonicalHost hhost

theorem Parsed.plain_host : Plain t.host := h.canonical.elim CanonicalIP.plain CanonicalName.plain

theorem Parsed.plain_port : Plain t.port := by
  obtain ⟨n, -, -, hn⟩ := h.port
  rw [hn]
  exact plain_itoa n

theorem Parsed.host_ne_nil : t.host ≠ [] := by
  rcases h.canonical with ⟨ip, hlen, hip⟩ | hname
  · have hparse := parseIP_string hlen
    rintro hnil
    rw [← hip, hnil] at hparse
    rcases hlen with hlen | hlen
    · exact absurd hparse (by simp [IP.to16, hlen, parseIP, parseAddr])
    · exact absurd hparse (by simp [IP.to16, hlen, parseIP, parseAddr])
  · intro hnil
    have hlabel := hname.labels [] (by rw [hnil]; exact List.mem_cons_self)
    exact hlabel.ne_nil rfl

/-- `net.SplitHostPort` reads off the host and the port. -/
theorem Parsed.splitHostPort_hostPort : splitHostPort t.hostPort = .ok (t.host, t.port) := by
  have hport : PortText t.port := by
    obtain ⟨n, -, -, hn⟩ := h.port
    have hdigits := List.all_eq_true.mp (all_isDigit_itoa n)
    rw [hn]
    refine ⟨fun hmem => ?_, (plain_itoa n).notMem (by decide), (plain_itoa n).notMem (by decide)⟩
    exact absurd (hdigits _ hmem) (by decide)
  rw [h.hostPort]
  exact splitHostPort_joinHostPort (h.plain_host.notMem (by decide))
    (h.plain_host.notMem (by decide)) hport

end Form

/-! ## Canonical hosts are fixed points -/

/-- What is documented of `idna.Lookup.ToASCII`: it is idempotent on what it returns, which is in
ASCII, and it maps upper-case letters to lower-case ones. -/
structure IdnaLookup (lib : Lib) : Prop where
  idempotent : ∀ s a, lib.toASCII s = some a → lib.toASCII a = some a
  ascii : ∀ s a, lib.toASCII s = some a → ∀ c ∈ a, c < 128
  mapsCase : ∀ s a, lib.toASCII s = some a → ∀ c ∈ a, lowerByte c = c

theorem CanonicalName.colon_notMem {host : GoString} (h : CanonicalName host) : colon ∉ host := by
  intro hmem
  obtain ⟨label, hlabel, hc⟩ := mem_split_iff.mpr ⟨hmem, (by decide : colon ≠ dot)⟩
  exact absurd ((h.labels label hlabel).bytes colon hc) (by decide)

theorem canonicalHost_fixed {lib : Lib} (hidna : IdnaLookup lib) {host host' : GoString}
    (h : canonicalHost lib host = some host') : canonicalHost lib host' = some host' := by
  unfold canonicalHost at h
  cases hip : parseIP host with
  | some ip =>
    rw [hip] at h
    obtain rfl := Option.some.inj h
    have h16 := length_of_parseIP hip
    have hto16 : ip.to16 = some ip := by simp [IP.to16, h16]
    rw [canonicalHost, parseIP_string (Or.inr h16), hto16]
  | none =>
    rw [hip] at h
    obtain ⟨a, ha, hlower, hname⟩ := canonicalDomain_eq_some_iff.mp h
    have hsame : toLower a = a :=
      toLower_eq_self fun c hc => ⟨hidna.ascii _ _ ha c hc, hidna.mapsCase _ _ ha c hc⟩
    rw [hsame] at hlower
    subst hlower
    unfold canonicalHost
    cases hip' : parseIP a with
    | some ip' => exact congrArg some (string_of_parseIP hip' hname.colon_notMem)
    | none => exact canonicalDomain_eq_some_iff.mpr ⟨a, hidna.idempotent _ _ ha, hsame, hname⟩

/-! ## The way back -/

/-- The path of a target. -/
def rebuiltPath (t : ConnectUDPTarget) : GoString :=
  uriPrefix ++ pathEscape t.host ++ [slash] ++ t.port ++ [slash]

theorem split_slash {a b : GoString} (ha : slash ∉ a) (hb : slash ∉ b) :
    split (a ++ slash :: (b ++ [slash])) slash = [a, b, []] := by
  rw [split, List.splitOn_append_cons_self_of_not_mem ha,
    List.splitOn_append_cons_self_of_not_mem hb, List.splitOn_nil]

/-- A text without a percent sign contains nothing that begins with one. -/
theorem not_containsString {s : GoString} (h : percent ∉ s) (sub : GoString) :
    containsString s (percent :: sub) = false := by
  rw [containsString, List.any_eq_false]
  intro t ht hpre
  have hmem : percent ∈ t := (List.isPrefixOf_iff_prefix.mp hpre).subset List.mem_cons_self
  exact h (((List.mem_tails t s).mp ht).subset hmem)

theorem parseHostAndPort_of_parsed {lib : Lib} (hidna : IdnaLookup lib) {t : ConnectUDPTarget}
    (h : Parsed lib t) : parseHostAndPort lib t.host t.port = some t := by
  have hpercent : percent ∉ t.host := h.plain_host.notMem (by decide)
  have hlower : percent ∉ toLower t.host := (mem_toLower_iff (by decide) t.host).not.mpr hpercent
  have hdelimiter : ∀ c ∈ t.host, c ∉ ascii "/\\%@[]" := by
    intro c hc hmem
    have hbad : ∀ d ∈ ascii "/\\%@[]", isTargetByte d = false := by decide +kernel
    exact h.plain_host.notMem (hbad c hmem) hc
  obtain ⟨host, hhost⟩ := h.host
  obtain ⟨n, hlow, hhigh, hn⟩ := h.port
  have hdigits : allASCIIDigits t.port = true := by
    rw [allASCIIDigits, hn, all_isDigit_itoa, decide_eq_true (itoa_ne_nil n)]
    rfl
  refine parseHostAndPort_eq_some_iff.mpr ⟨?_, t.host, unescapePath_eq_self hpercent, ?_, ?_, n, ?_,
    ?_, t.host, canonicalHost_fixed hidna hhost, ?_⟩
  · rw [show ascii "%2f" = percent :: ascii "2f" by decide, show ascii "%5c" = percent :: ascii "5c"
      by decide, not_containsString hlower, not_containsString hlower]
    decide
  · simp only [Bool.or_eq_true, decide_eq_true_eq, List.any_eq_true, not_or, not_exists, not_and]
    exact ⟨h.host_ne_nil, hdelimiter⟩
  · rw [hdigits, decide_eq_false (h.plain_port.notMem (by decide))]
    decide
  · rw [hn]
    exact atoi_itoa (by omega)
  · simp only [Bool.or_eq_true, decide_eq_true_eq, not_or, not_lt]
    omega
  · rw [Int.toNat_natCast, ← hn, ← h.hostPort]

/-- Nothing in the path of a target is escaped. -/
theorem Parsed.rebuiltPath_eq {lib : Lib} {t : ConnectUDPTarget} (h : Parsed lib t) :
    rebuiltPath t = uriPrefix ++ (t.host ++ slash :: (t.port ++ [slash])) := by
  rw [rebuiltPath, pathEscape_eq_self fun c hc => (not_shouldEscape (h.plain_host c hc)).2]
  simp

theorem Parsed.setPath_rebuiltPath {lib : Lib} {t : ConnectUDPTarget} (h : Parsed lib t) (u : URL) :
    u.setPath (rebuiltPath t) = some { u with path := rebuiltPath t, rawPath := [] } ∧
      escapePath (rebuiltPath t) = rebuiltPath t := by
  have hplain : ∀ c ∈ rebuiltPath t, shouldEscapePath c = false := by
    have hprefix : ∀ c ∈ uriPrefix, shouldEscapePath c = false := by decide +kernel
    have hslash : shouldEscapePath slash = false := by decide
    intro c hc
    rw [h.rebuiltPath_eq, List.mem_append, List.mem_append, List.mem_cons, List.mem_append,
      List.mem_singleton] at hc
    rcases hc with hc | hc | rfl | hc | rfl
    · exact hprefix c hc
    · exact (not_shouldEscape (h.plain_host c hc)).1
    · exact hslash
    · exact (not_shouldEscape (h.plain_port c hc)).1
    · exact hslash
  have hescape := escapePath_eq_self hplain
  have hpercent : percent ∉ rebuiltPath t := fun hmem => absurd (hplain percent hmem) (by decide)
  refine ⟨?_, hescape⟩
  rw [URL.setPath, unescapePath_eq_self hpercent, Option.map_some, hescape, if_pos rfl]

/-- The target of a request whose path is that of the target. -/
theorem parse_rebuilt {lib : Lib} (hidna : IdnaLookup lib) {r : Request} {t : ConnectUDPTarget}
    (h : parseConnectUDPTarget lib r = some t) :
    ∃ u, r.url.setPath (rebuiltPath t) = some u ∧
      parseConnectUDPTarget lib { r with url := u } = some t := by
  have hparsed := parsed_of_parseConnectUDPTarget h
  obtain ⟨hset, hescape⟩ := hparsed.setPath_rebuiltPath r.url
  have heq := hparsed.rebuiltPath_eq
  generalize rebuiltPath t = p at hset hescape heq ⊢
  have hstar : p ≠ ascii "*" := by
    intro hstar
    rw [hstar] at heq
    have hhead := congrArg List.head? heq
    rw [List.head?_append_of_ne_nil _ (by decide)] at hhead
    exact absurd hhead (by decide)
  have hpath : ({ r.url with path := p, rawPath := [] } : URL).escapedPath = p := by
    rw [URL.escapedPath, if_neg (fun hraw => hraw.1 rfl), if_neg hstar, hescape]
  have hpre : uriPrefix.isPrefixOf p = true := by
    rw [heq]
    exact List.isPrefixOf_iff_prefix.mpr (List.prefix_append _ _)
  have hrest : trimPrefix p uriPrefix = t.host ++ slash :: (t.port ++ [slash]) := by
    rw [trimPrefix, if_pos hpre, heq, List.drop_left]
  have hport : t.port ≠ [] := by
    obtain ⟨n, -, -, hn⟩ := hparsed.port
    exact hn ▸ itoa_ne_nil n
  refine ⟨_, hset, ?_⟩
  unfold parseConnectUDPTarget at h ⊢
  split_ifs at h with hguard hprefix
  -- the guard does not look at the path
  refine (if_neg hguard).trans ?_
  rw [hpath, hpre, hrest, split_slash (hparsed.plain_host.notMem (by decide))
    (hparsed.plain_port.notMem (by decide))]
  dsimp only
  rw [if_neg (by decide), if_neg (by simp [hparsed.host_ne_nil, hport])]
  exact parseHostAndPort_of_parsed hidna hparsed

/-- **CONNECT-UDP targets are canonical.**  For every request that is accepted: the host is the text
of an address or a name of lower-case labels, the port is a number from 1 to 65535 in decimal,
`net.SplitHostPort` gives back exactly these two, and the request whose path is rebuilt from them
has the same target. -/
theorem connectUDPTarget_canonical {lib : Lib} {r : Request} {t : ConnectUDPTarget}
    (h : parseConnectUDPTarget lib r = some t) :
    (CanonicalIP t.host ∨ CanonicalName t.host) ∧
      (∃ n : ℕ, 1 ≤ n ∧ n ≤ 65535 ∧ t.port = itoa n) ∧
      splitHostPort t.hostPort = .ok (t.host, t.port) ∧
      (IdnaLookup lib → ∃ u, r.url.setPath (rebuiltPath t) = some u ∧
        parseConnectUDPTarget lib { r with url := u } = some t) := by
  have hparsed := parsed_of_parseConnectUDPTarget h
  exact ⟨hparsed.canonical, hparsed.port, hparsed.splitHostPort_hostPort,
    fun hidna => parse_rebuilt hidna h⟩

/-- IDNA on names in ASCII. -/
def lowerLib : Lib where
  equalFold s t := s = t
  toLower := toLower
  toASCII s := if s.all (fun c => c < 128) then some (lower s) else none

theorem idnaLookup_lowerLib : IdnaLookup lowerLib := by
  have hsmall : ∀ c : UInt8, c < 128 → lowerByte c < 128 := by
    unfold lowerByte
    grind
  have hout : ∀ s a, lowerLib.toASCII s = some a → ∀ c ∈ a, c < 128 ∧ lowerByte c = c := by
    intro s a ha c hc
    obtain ⟨hall, hlower⟩ := Option.ite_none_right_eq_some.mp ha
    rw [← Option.some.inj hlower] at hc
    obtain ⟨d, hd, rfl⟩ := List.mem_map.mp hc
    have hlt := of_decide_eq_true (List.all_eq_true.mp hall d hd)
    exact ⟨hsmall d hlt, lowerByte_lowerByte d⟩
  refine ⟨fun s a ha => ?_, fun s a ha c hc => (hout s a ha c hc).1,
    fun s a ha c hc => (hout s a ha c hc).2⟩
  have hbytes := hout s a ha
  have hall : (a.all fun c => c < 128) = true :=
    List.all_eq_true.mpr fun c hc => decide_eq_true (hbytes c hc).1
  have hlower : lower a = a :=
    (List.map_congr_left fun c hc => (hbytes c hc).2).trans (List.map_id a)
  exact (if_pos hall).trans (congrArg some hlower)

/-- A request for `Example.Test`, port 53. -/
def exampleTestRequest : Request where
  method := ascii "CONNECT"
  url := { scheme := ascii "https", host := ascii "proxy.localhost"
           path := ascii "/.well-known/masque/udp/Example.Test/0053/" }
  proto := ascii "connect-udp"
  protoMajor := 3
  protoMinor := 0
  header := [(ascii "Capsule-Protocol", [ascii "?1"])]
  host := ascii "proxy.localhost"

theorem connectUDPTarget_canonical_exampleTest :
    parseConnectUDPTarget lowerLib exampleTestRequest =
        some ⟨ascii "example.test", ascii "53", ascii "example.test:53"⟩ ∧
      ∃ u, exampleTestRequest.url.setPath (ascii "/.well-known/masque/udp/example.test/53/") =
        some u ∧ parseConnectUDPTarget lowerLib { exampleTestRequest with url := u } =
          some ⟨ascii "example.test", ascii "53", ascii "example.test:53"⟩ := by
  have hparse : parseConnectUDPTarget lowerLib exampleTestRequest =
      some ⟨ascii "example.test", ascii "53", ascii "example.test:53"⟩ := by decide +kernel
  have hpath : rebuiltPath ⟨ascii "example.test", ascii "53", ascii "example.test:53"⟩ =
      ascii "/.well-known/masque/udp/example.test/53/" := by decide +kernel
  refine ⟨hparse, ?_⟩
  rw [← hpath]
  exact (connectUDPTarget_canonical hparse).2.2.2 idnaLookup_lowerLib

end ConnectUdp
end ForwardProxy
