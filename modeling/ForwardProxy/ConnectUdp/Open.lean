import ForwardProxy.ConnectUdp.Canonical
import ForwardProxy.Core.LetterCase
import ForwardProxy.Core.PathEscape

/-!
# The request of the client and the target of the server (`cmd/m4-rfc9298-client`)

`open` writes the host that it was given into the path of a URL, escaped, and the port behind it;
the server takes the path apart and reads the host back.  Between the two the URL is parsed, written
into a header field and parsed again.  Here the request is the one that the server is given.

The host may be any text.  The server refuses some bytes, and it looks for two of them, the slash
and the backslash, before it reads the escapes; in a text that the client has escaped these are
found exactly where they were.

## Main results

* `open_target`: the server accepts the request for a host and a port exactly when the host has none
  of the refused bytes and a final form, and the port is in range; and then that is the target.
-/

namespace ForwardProxy
namespace ConnectUdp

open ForwardProxy.Core Serve

/-! ## The client -/

namespace InteropClient

/-- `strconv.Itoa`. -/
def itoaInt (n : ℤ) : GoString := if n < 0 then 45 :: itoa n.natAbs else itoa n.toNat

/-- The path that `open` writes. -/
def openPath (host : GoString) (port : ℤ) : GoString :=
  uriPrefix ++ (pathEscape host ++ slash :: (itoaInt port ++ [slash]))

/-- The header that `open` makes. -/
def openHeader (auth : GoString) : Header :=
  let header := Header.set [] (ascii "Capsule-Protocol") (ascii "?1")
  if auth ≠ [] then header.set (ascii "Proxy-Authorization") auth else header

/-- The request that `open` sends to a proxy, as it arrives; `none` is an error of `url.Parse` on
the path.  The proxy is an authority that `url.Parse` takes over into `Host` byte by byte: a host
name, an IPv4 address or an IPv6 address in brackets, with or without a port, and without user
information, escapes, slashes, question marks or number signs.  Of another authority `url.Parse`
makes something else or an error. -/
def openRequest (proxy auth host : GoString) (port : ℤ) : Option Request :=
  (({ scheme := ascii "https", host := proxy } : URL).setPath (openPath host port)).map fun url =>
    { method := ascii "CONNECT", url := url, proto := ascii "connect-udp", protoMajor := 3
      protoMinor := 0, header := openHeader auth, host := proxy }

end InteropClient

open InteropClient

/-! ## The path -/

theorem mem_itoaInt {port : ℤ} {c : UInt8} (h : c ∈ itoaInt port) : c = 45 ∨ isDigit c = true := by
  unfold itoaInt at h
  split_ifs at h
  · rcases List.mem_cons.mp h with rfl | h
    · exact Or.inl rfl
    · exact Or.inr (List.all_eq_true.mp (all_isDigit_itoa _) c h)
  · exact Or.inr (List.all_eq_true.mp (all_isDigit_itoa _) c h)

theorem plain_itoaInt (port : ℤ) : Plain (itoaInt port) := by
  intro c hc
  rcases mem_itoaInt hc with rfl | hdigit
  · decide
  · exact isTargetByte_of_isDigit hdigit

theorem unescapePath_openPath (host : GoString) (port : ℤ) :
    unescapePath (openPath host port) =
      some (uriPrefix ++ (host ++ slash :: (itoaInt port ++ [slash]))) := by
  have hprefix : percent ∉ uriPrefix := by decide
  have hport : percent ∉ slash :: (itoaInt port ++ [slash]) := by
    have hplain := (plain_itoaInt port).notMem (c := percent) (by decide)
    simp only [List.mem_cons, List.mem_append, List.not_mem_nil, or_false, not_or]
    exact ⟨by decide, hplain, by decide⟩
  rw [openPath, unescapePath_append hprefix, unescapePath_pathEscape, unescapePath_eq_self hport]
  rfl

theorem validEncodedPath_openPath (host : GoString) (port : ℤ) :
    validEncodedPath (openPath host port) = true := by
  have hsegment : ∀ c, shouldEscapeSegment c = false →
      (c ∈ ascii "!$&'()*+,;=:@[]%" || !shouldEscapePath c) = true := by
    refine forall_byte ?_
    decide +kernel
  have hprefix : ∀ c ∈ uriPrefix, (c ∈ ascii "!$&'()*+,;=:@[]%" || !shouldEscapePath c) = true := by
    decide +kernel
  have hslash : (slash ∈ ascii "!$&'()*+,;=:@[]%" || !shouldEscapePath slash) = true := by decide
  have hpercent : (percent ∈ ascii "!$&'()*+,;=:@[]%" || !shouldEscapePath percent) = true := by
    decide
  rw [validEncodedPath, List.all_eq_true]
  intro c hc
  simp only [openPath, List.mem_append, List.mem_cons, List.not_mem_nil, or_false] at hc
  rcases hc with hc | hc | rfl | hc | rfl
  · exact hprefix c hc
  · rcases mem_pathEscape hc with rfl | hplain
    · exact hpercent
    · exact hsegment c hplain
  · exact hslash
  · exact hsegment c (not_shouldEscape (plain_itoaInt port c hc)).2
  · exact hslash

/-! ## The host -/

theorem containsString_iff {s sub : GoString} : containsString s sub = true ↔ sub <:+: s := by
  rw [containsString, List.any_eq_true, List.infix_iff_prefix_suffix]
  simp only [List.mem_tails, List.isPrefixOf_iff_prefix]
  exact exists_congr fun t => And.comm

/-- An escape that is found in the lower-case form of an escaped text is that of a byte of the
text. -/
theorem exists_of_containsString {host : GoString} {x y : UInt8}
    (h : containsString (toLower (pathEscape host)) [percent, x, y] = true) :
    ∃ c ∈ host, lowerByte (upperHexDigit (c.toNat / 16)) = x ∧
      lowerByte (upperHexDigit (c.toNat % 16)) = y := by
  have hascii : ∀ c ∈ pathEscape host, c < 128 := by
    have hsmall : ∀ c, c = percent ∨ shouldEscapeSegment c = false → c < 128 := by
      refine forall_byte ?_
      decide +kernel
    exact fun c hc => hsmall c (mem_pathEscape hc)
  rw [containsString_iff, toLower_eq_lower hascii] at h
  obtain ⟨pre, post, heq⟩ := h
  obtain ⟨front, rest, hhost, hfront, -⟩ := List.map_eq_append_iff.mp heq.symm
  obtain ⟨pre', mid, rfl, -, hmid⟩ := List.map_eq_append_iff.mp hfront
  obtain ⟨a, _, rfl, ha, hmid⟩ := List.map_eq_cons_iff.mp hmid
  obtain ⟨b, _, rfl, hb, hmid⟩ := List.map_eq_cons_iff.mp hmid
  obtain ⟨c, _, rfl, hc, hmid⟩ := List.map_eq_cons_iff.mp hmid
  obtain rfl := List.map_eq_nil_iff.mp hmid
  obtain rfl := (lowerByte_eq_iff (by decide)).mp ha
  obtain ⟨d, hd, rfl, rfl⟩ := exists_of_escaped_infix ⟨pre', rest, hhost.symm⟩
  exact ⟨d, hd, hb, hc⟩

/-- The bytes that the server refuses in a host. -/
def Refused (c : UInt8) : Prop := c ∈ ascii "/\\%@[]"

/-- The server finds no escaped slash and no escaped backslash in a host without them. -/
theorem not_containsString_pathEscape {host : GoString} (h : ∀ c ∈ host, ¬ Refused c) :
    ¬ (containsString (toLower (pathEscape host)) (ascii "%2f") ||
      containsString (toLower (pathEscape host)) (ascii "%5c")) = true := by
  have hslash : ∀ c : UInt8, lowerByte (upperHexDigit (c.toNat / 16)) = 50 →
      lowerByte (upperHexDigit (c.toNat % 16)) = 102 → c ∈ ascii "/\\%@[]" := by
    refine forall_byte ?_
    decide +kernel
  have hbackslash : ∀ c : UInt8, lowerByte (upperHexDigit (c.toNat / 16)) = 53 →
      lowerByte (upperHexDigit (c.toNat % 16)) = 99 → c ∈ ascii "/\\%@[]" := by
    refine forall_byte ?_
    decide +kernel
  rw [Bool.or_eq_true, not_or]
  constructor
  · intro hcontains
    obtain ⟨c, hc, hx, hy⟩ := exists_of_containsString (x := 50) (y := 102) hcontains
    exact h c hc (hslash c hx hy)
  · intro hcontains
    obtain ⟨c, hc, hx, hy⟩ := exists_of_containsString (x := 53) (y := 99) hcontains
    exact h c hc (hbackslash c hx hy)

/-- The digits of a port that is not negative. -/
theorem allASCIIDigits_itoaInt_iff {port : ℤ} : allASCIIDigits (itoaInt port) = true ↔
    0 ≤ port := by
  unfold itoaInt allASCIIDigits
  split_ifs with hneg
  · exact iff_of_false (by simp [isDigit]) (not_le.mpr hneg)
  · refine iff_of_true ?_ (not_lt.mp hneg)
    rw [all_isDigit_itoa, decide_eq_true (itoa_ne_nil _)]
    rfl

theorem atoi_itoaInt {port : ℤ} (hpos : 0 ≤ port) (hint : port < 0x8000000000000000) :
    atoi (itoaInt port) = some port := by
  rw [itoaInt, if_neg (not_lt.mpr hpos), atoi_itoa (by omega), Int.toNat_of_nonneg hpos]

/-- What the server makes of the host and the port in the path. -/
theorem parseHostAndPort_open {lib : Lib} {host : GoString} {port : ℤ}
    (hint : port < 0x8000000000000000) {t : ConnectUDPTarget} :
    parseHostAndPort lib (pathEscape host) (itoaInt port) = some t ↔
      host ≠ [] ∧ (∀ c ∈ host, ¬ Refused c) ∧ 1 ≤ port ∧ port ≤ 65535 ∧
        canonicalHost lib host = some t.host ∧ t.port = itoa port.toNat ∧
        t.hostPort = joinHostPort t.host t.port := by
  have hunescape : unescapePath (pathEscape host) = some host := by
    simpa [unescapePath] using unescapePath_pathEscape host []
  have hdigits : ¬ (percent ∈ itoaInt port || !allASCIIDigits (itoaInt port)) = true ↔
      0 ≤ port := by
    rw [decide_eq_false ((plain_itoaInt port).notMem (by decide)), ← allASCIIDigits_itoaInt_iff]
    simp
  rw [parseHostAndPort_eq_some_iff, hdigits]
  simp only [hunescape, Option.some.injEq, exists_eq_left']
  constructor
  · rintro ⟨-, hbad, hpos, portNumber, hatoi, hrange, canonical, hcanonical, rfl⟩
    rw [atoi_itoaInt hpos hint] at hatoi
    obtain rfl := Option.some_inj.mp hatoi
    simp only [Bool.or_eq_true, decide_eq_true_eq, List.any_eq_true, not_or, not_exists, not_and,
      not_lt] at hbad hrange
    exact ⟨hbad.1, hbad.2, hrange.1, hrange.2, hcanonical, rfl, rfl⟩
  · rintro ⟨hne, hbad, hlow, hhigh, hcanonical, hport, hhostPort⟩
    refine ⟨not_containsString_pathEscape hbad, ?_, by omega, port, atoi_itoaInt (by omega) hint,
      ?_, t.host, hcanonical, ?_⟩
    · simp only [Bool.or_eq_true, decide_eq_true_eq, List.any_eq_true, not_or, not_exists, not_and]
      exact ⟨hne, hbad⟩
    · simp only [Bool.or_eq_true, decide_eq_true_eq, not_or, not_lt]
      exact ⟨hlow, hhigh⟩
    · rw [← hport, ← hhostPort]

/-! ## The main result -/

/-- The header of the request says that capsules are spoken. -/
theorem capsuleProtocol_open (auth : GoString) :
    (openHeader auth).get (ascii "Capsule-Protocol") = ascii "?1" := by
  have hne : canonicalHeaderKey (ascii "Proxy-Authorization") ≠
      canonicalHeaderKey (ascii "Capsule-Protocol") := by decide +kernel
  have hself : Header.get (Header.set [] (ascii "Capsule-Protocol") (ascii "?1"))
      (ascii "Capsule-Protocol") = ascii "?1" := by
    rw [Header.get, Header.set, Header.lookup_insert_self]
    rfl
  unfold openHeader
  split_ifs
  · rw [Header.get, Header.set, Header.lookup_insert_of_ne _ hne]
    exact hself
  · exact hself

/-- **The target that was asked for.**  For every proxy that `openRequest` stands for, every host,
whatever its bytes, and every port that an `int` holds: the request that the client makes is
accepted by the server exactly when the host is not empty, has none of the bytes that the server
refuses and has a final form, and the port is from 1 to 65535; and then the target is that host in
its final form, with that port. -/
theorem open_target (lib : Lib) {proxy : GoString} (hproxy : proxy ≠ [])
    (hfold : lib.equalFold proxy proxy = true) (auth host : GoString) {port : ℤ}
    (hint : port < 0x8000000000000000) :
    ∃ r, openRequest proxy auth host port = some r ∧ ∀ t, parseConnectUDPTarget lib r = some t ↔
      host ≠ [] ∧ (∀ c ∈ host, ¬ Refused c) ∧ 1 ≤ port ∧ port ≤ 65535 ∧
        canonicalHost lib host = some t.host ∧ t.port = itoa port.toNat ∧
        t.hostPort = joinHostPort t.host t.port := by
  obtain ⟨u, hu⟩ : ∃ u, ({ scheme := ascii "https", host := proxy } : URL).setPath
      (openPath host port) = some u := by
    rw [URL.setPath, unescapePath_openPath]
    exact ⟨_, rfl⟩
  refine ⟨_, congrArg (Option.map _) hu, fun t => ?_⟩
  -- what the URL shows is the path that the client has written
  have hfields : u.scheme = ascii "https" ∧ u.host = proxy ∧ u.user = none ∧ u.rawQuery = [] ∧
      u.forceQuery = false ∧ u.fragment = [] ∧
      u.path = uriPrefix ++ (host ++ slash :: (itoaInt port ++ [slash])) := by
    rw [URL.setPath, unescapePath_openPath] at hu
    rw [← Option.some_inj.mp hu]
    exact ⟨rfl, rfl, rfl, rfl, rfl, rfl, rfl⟩
  obtain ⟨hscheme, hhost, huser, hquery, hforce, hfragment, hpath⟩ := hfields
  have hescaped : u.escapedPath = openPath host port := by
    refine URL.escapedPath_of_setPath hu (validEncodedPath_openPath host port) ?_ ?_
    · rw [openPath]
      exact List.append_ne_nil_of_left_ne_nil (by decide) _
    · intro hstar
      rw [hpath] at hstar
      have hhead := congrArg List.head? hstar
      rw [List.head?_append_of_ne_nil _ (by decide)] at hhead
      exact absurd hhead (by decide)
  have hpre : uriPrefix.isPrefixOf (openPath host port) = true :=
    List.isPrefixOf_iff_prefix.mpr (List.prefix_append _ _)
  have hrest : split (trimPrefix (openPath host port) uriPrefix) slash =
      [pathEscape host, itoaInt port, []] := by
    have hslash : slash ∉ pathEscape host := by
      intro hmem
      rcases mem_pathEscape hmem with heq | hplain
      · exact absurd heq (by decide)
      · exact absurd hplain (by decide)
    rw [trimPrefix, if_pos hpre, openPath, List.drop_left]
    exact split_slash hslash ((plain_itoaInt port).notMem (by decide))
  rw [← parseHostAndPort_open hint]
  unfold parseConnectUDPTarget
  rw [if_neg (by simp [isConnectUDPRequest, hscheme, hhost, huser, hquery, hforce, hfragment,
    hproxy, hfold, capsuleProtocol_open]), hescaped, hpre, if_neg (by decide), hrest]
  dsimp only
  have hport : itoaInt port ≠ [] := by
    unfold itoaInt
    split_ifs
    · exact List.cons_ne_nil _ _
    · exact itoa_ne_nil _
  by_cases hempty : pathEscape host = []
  · -- an empty host is refused here, and would be refused there
    rw [if_pos (by simp [hempty]), hempty]
    simp [parseHostAndPort_eq_some_iff, unescapePath]
  · rw [if_neg (by simp [hempty, hport])]

/-- A host in capitals, with the name of a user at the proxy. -/
theorem open_target_exampleTest :
    ∃ r, openRequest (ascii "proxy.localhost:443") (ascii "Basic dTpw")
      (ascii "Example.Test") 53 = some r ∧ parseConnectUDPTarget lowerLib r =
        some ⟨ascii "example.test", ascii "53", ascii "example.test:53"⟩ := by
  obtain ⟨r, hr, htarget⟩ := @open_target lowerLib (ascii "proxy.localhost:443") (by decide)
    (by decide) (ascii "Basic dTpw") (ascii "Example.Test") 53 (by decide)
  refine ⟨r, hr, (htarget _).mpr ⟨by decide, ?_, by decide, by decide, ?_, ?_, ?_⟩⟩
  · unfold Refused
    decide +kernel
  · decide +kernel
  · decide +kernel
  · decide +kernel

end ConnectUdp
end ForwardProxy
