import ForwardProxy.Core.AddrText
import ForwardProxy.Core.URL

/-!
# The host of a URL

What `url.Parse` leaves in `URL.Host`: a name without a colon, or an IPv6 literal in brackets, and
behind it perhaps a colon and a port of digits, of which there may be none.  A name cannot have an
opening bracket, but it can have a closing one, and the zone of a literal can have either, because
it is unescaped.

`Hostname` and `Port` take such a text apart, and `net.SplitHostPort` does so for an address; the
two agree on a host only where the address is the text that `net.JoinHostPort` would have made.
-/

namespace ForwardProxy
namespace Core

/-- The parts of the host of a URL. -/
structure URLHost where
  name : GoString
  /-- An IPv6 literal. -/
  bracketed : Bool
  /-- What stands behind the colon, if there is one. -/
  port : Option GoString
  port_digits : (port.getD []).all isDigit = true
  colon_mem_iff : colon ∈ name ↔ bracketed = true
  lbracket_notMem : bracketed = false → lbracket ∉ name

namespace URLHost

variable (t : URLHost)

/-- The name, in its brackets. -/
def host : GoString := if t.bracketed then lbracket :: (t.name ++ [rbracket]) else t.name

/-- The text. -/
def text : GoString :=
  match t.port with
  | none => t.host
  | some port => t.host ++ colon :: port

/-- Digits are neither colons nor brackets. -/
theorem portText_of_all_isDigit {port : GoString} (h : port.all isDigit = true) :
    PortText port := by
  rw [List.all_eq_true] at h
  refine ⟨fun hmem => ?_, fun hmem => ?_, fun hmem => ?_⟩
  · exact absurd (h _ hmem) (by decide)
  · exact absurd (h _ hmem) (by decide)
  · exact absurd (h _ hmem) (by decide)

/-- `splitURLHostPort` without its last step, which takes the brackets off. -/
def cutPort (hostPort : GoString) : GoString × GoString :=
  match lastIndexByte hostPort colon with
  | some i =>
    if validOptionalPort (hostPort.drop i) then (hostPort.take i, hostPort.drop (i + 1))
    else (hostPort, [])
  | none => (hostPort, [])

/-- The last step of `splitURLHostPort`. -/
def unbracket (host : GoString) : GoString :=
  if host.head? = some lbracket ∧ host.getLast? = some rbracket then
    (host.drop 1).dropLast
  else host

theorem splitURLHostPort_eq (hostPort : GoString) :
    splitURLHostPort hostPort = (unbracket (cutPort hostPort).1, (cutPort hostPort).2) := rfl

/-- The brackets come off again. -/
theorem unbracket_host : unbracket t.host = t.name := by
  unfold unbracket host
  cases hb : t.bracketed with
  | true =>
    have hlast : (lbracket :: (t.name ++ [rbracket])).getLast? = some rbracket := by
      rw [← List.cons_append, List.getLast?_concat]
    rw [if_pos rfl, if_pos ⟨rfl, hlast⟩, List.drop_one, List.tail_cons, List.dropLast_concat]
  | false =>
    have hhead : t.name.head? ≠ some lbracket :=
      fun h => t.lbracket_notMem hb (List.mem_of_mem_head? h)
    rw [if_neg Bool.false_ne_true, if_neg fun h => hhead h.1]

/-- Without a port, what stands behind the last colon ends with a bracket. -/
theorem not_validOptionalPort_host {i : ℕ} (hi : lastIndexByte t.host colon = some i) :
    ¬ validOptionalPort (t.host.drop i) = true := by
  have hget := getElem?_of_lastIndexByte hi
  cases hb : t.bracketed with
  | false =>
    have hcolon : colon ∈ t.name := by
      have hmem := List.mem_of_getElem? hget
      rwa [host, hb, if_neg Bool.false_ne_true] at hmem
    exact absurd (t.colon_mem_iff.mp hcolon) (by simp [hb])
  | true =>
    have hhost : t.host = (lbracket :: t.name) ++ [rbracket] := by rw [host, hb]; rfl
    have hlt := (List.getElem?_eq_some_iff.mp hget).1
    have hle : i ≤ (lbracket :: t.name).length := by
      rw [hhost, List.length_append] at hlt
      exact Nat.lt_succ_iff.mp hlt
    have hdrop : t.host.drop i = (lbracket :: t.name).drop i ++ [rbracket] := by
      rw [hhost, List.drop_append_of_le_length hle]
    obtain ⟨hi', hcolon⟩ := List.getElem?_eq_some_iff.mp hget
    have hcons : t.host.drop i = colon :: t.host.drop (i + 1) := by
      rw [← hcolon, List.cons_getElem_drop_succ]
    have hmem : rbracket ∈ t.host.drop (i + 1) := by
      have hin : rbracket ∈ t.host.drop i := by
        rw [hdrop]
        exact List.mem_append_right _ List.mem_cons_self
      rw [hcons] at hin
      exact (List.mem_cons.mp hin).resolve_left (by decide)
    rw [hcons, validOptionalPort, Bool.and_eq_true, List.all_eq_true]
    exact fun h => absurd (h.2 rbracket hmem) (by decide)

/-- **`Hostname` and `Port`** of a URL with this host. -/
theorem splitURLHostPort_text : splitURLHostPort t.text = (t.name, t.port.getD []) := by
  have hcut : cutPort t.text = (t.host, t.port.getD []) := by
    unfold cutPort text
    cases hport : t.port with
    | some port =>
      have hdigits : port.all isDigit = true := by
        have hall := t.port_digits
        rwa [hport] at hall
      have hvalid : validOptionalPort (colon :: port) = true := by
        simp [validOptionalPort, hdigits]
      dsimp only
      rw [lastIndexByte_append_cons _ (portText_of_all_isDigit hdigits).1]
      dsimp only
      rw [List.drop_left, if_pos hvalid, List.take_left]
      simp
    | none =>
      cases hi : lastIndexByte t.host colon with
      | none => rfl
      | some i =>
        dsimp only
        rw [if_neg (t.not_validOptionalPort_host hi)]
        rfl
  rw [splitURLHostPort_eq, hcut, t.unbracket_host]

/-- `net.SplitHostPort` can read the host off the address: there is no bracket in the name, and
where the port is missing nothing but the name stands there. -/
def Splits : Prop :=
  (lbracket ∉ t.name ∧ rbracket ∉ t.name) ∧
    (t.port.getD [] ≠ [] ∨ t.bracketed = false ∧ t.port = none)

/-- The address of a URL with this host: a port is added if there is none. -/
def address (defaultPort : GoString) : GoString :=
  if t.port.getD [] = [] then joinHostPort t.text defaultPort else t.text

/-- A text with a port is the one that `net.JoinHostPort` makes. -/
theorem text_eq_joinHostPort {port : GoString} (hport : t.port = some port) :
    t.text = joinHostPort t.name port := by
  unfold text host
  rw [hport]
  cases hb : t.bracketed with
  | true =>
    rw [joinHostPort_of_mem (t.colon_mem_iff.mpr hb)]
    simp
  | false =>
    have hcolon : colon ∉ t.name := fun h => by simp [t.colon_mem_iff.mp h] at hb
    rw [joinHostPort_of_notMem hcolon]
    simp

/-- A text that is more than the name has a colon in it, and is longer. -/
theorem colon_mem_text_and_length_lt (h : ¬ (t.bracketed = false ∧ t.port = none)) :
    colon ∈ t.text ∧ t.name.length < t.text.length := by
  cases hp : t.port with
  | some port =>
    rw [text, hp]
    refine ⟨List.mem_append_right _ List.mem_cons_self, ?_⟩
    have hle : t.name.length ≤ t.host.length := by
      unfold host
      split_ifs
      · simp only [List.length_cons, List.length_append]
        omega
      · exact le_rfl
    rw [List.length_append, List.length_cons]
    omega
  | none =>
    have hb : t.bracketed = true := by
      by_contra hne
      exact h ⟨Bool.eq_false_iff.mpr hne, hp⟩
    rw [text, hp, host, hb, if_pos rfl]
    refine ⟨List.mem_cons_of_mem _ (List.mem_append_left _ (t.colon_mem_iff.mpr hb)), ?_⟩
    simp only [List.length_cons, List.length_append]
    omega

/-- **When the address can be read.**  `net.SplitHostPort` gives the name and the port, or the
default for a port that is missing or empty, exactly when the host splits. -/
theorem splitHostPort_address_iff {defaultPort : GoString} (hdefault : PortText defaultPort) :
    splitHostPort (t.address defaultPort) =
        .ok (t.name, if t.port.getD [] = [] then defaultPort else t.port.getD []) ↔
      t.Splits := by
  unfold address Splits
  by_cases hport : t.port.getD [] = []
  · rw [if_pos hport, if_pos hport]
    by_cases hplain : t.bracketed = false ∧ t.port = none
    · have htext : t.text = t.name := by
        rw [text, hplain.2, host, hplain.1, if_neg Bool.false_ne_true]
      rw [htext]
      refine ⟨fun h => ⟨(eq_of_splitHostPort h).1, Or.inr hplain⟩, fun h => ?_⟩
      exact splitHostPort_joinHostPort h.1.1 h.1.2 hdefault
    · obtain ⟨hcolon, hlength⟩ := t.colon_mem_text_and_length_lt hplain
      refine iff_of_false (fun h => ?_) fun h => ?_
      · -- the address has brackets around the text, so that the name would be all of it
        obtain ⟨⟨hl, -⟩, heq⟩ := eq_of_splitHostPort h
        rw [joinHostPort_of_mem hcolon] at heq
        rcases heq with heq | heq
        · cases hname : t.name with
          | nil =>
            rw [hname] at heq
            exact absurd (List.cons.inj heq).1 (by decide)
          | cons c name =>
            rw [hname] at heq hl
            exact hl ((List.cons.inj heq).1 ▸ List.mem_cons_self)
        · have hlen := congrArg List.length heq
          simp only [List.length_append, List.length_cons, List.length_nil] at hlen
          omega
      · exact h.2.elim (fun hne => hne hport) hplain
  · obtain ⟨port, hp⟩ : ∃ port, t.port = some port := by
      cases hp : t.port with
      | none =>
        rw [hp] at hport
        exact absurd rfl hport
      | some port => exact ⟨port, rfl⟩
    have hdigits := portText_of_all_isDigit t.port_digits
    rw [if_neg hport, if_neg hport, t.text_eq_joinHostPort hp]
    rw [hp] at hport hdigits ⊢
    refine ⟨fun h => ⟨(eq_of_splitHostPort h).1, Or.inl hport⟩, fun h => ?_⟩
    exact splitHostPort_joinHostPort h.1.1 h.1.2 hdigits

end URLHost

end Core
end ForwardProxy
