import ForwardProxy.Core.NetIP

/-!
# Host and port: `net.JoinHostPort` and `net.SplitHostPort`

`JoinHostPort` puts a host that has a colon into brackets, because it must be an
IPv6 literal; `SplitHostPort` undoes this and reports every malformed address.

The one fact that the rest of the development needs is
`head?_joinHostPort_string_any`: the address made from the text of an IP starts with
a digit exactly when that IP is an IPv4 address.  So an address determines the
family it came from, and the addresses of the two families are disjoint.
-/

namespace ForwardProxy
namespace Core

/-- `net.JoinHostPort`. -/
def joinHostPort (host port : GoString) : GoString :=
  if colon ∈ host then [lbracket] ++ host ++ [rbracket, colon] ++ port
  else host ++ [colon] ++ port

/-- The reasons `net.SplitHostPort` gives. -/
inductive AddrError where
  | missingPort
  | tooManyColons
  | missingRbracket
  | unexpectedLbracket
  | unexpectedRbracket
  deriving DecidableEq, Repr

/-- The texts of the reasons. -/
def AddrError.text : AddrError → GoString
  | .missingPort => ascii "missing port in address"
  | .tooManyColons => ascii "too many colons in address"
  | .missingRbracket => ascii "missing ']' in address"
  | .unexpectedLbracket => ascii "unexpected '[' in address"
  | .unexpectedRbracket => ascii "unexpected ']' in address"

/-- An error of a lookup, of a dial or of a context, as far as a caller can tell errors
apart: the two sentinels of the `context` package, and any other error with what its
`Timeout` method says. -/
inductive NetError where
  | canceled
  | deadlineExceeded
  | other (id : ℕ) (timeout : Bool)
  deriving DecidableEq, Repr

/-- The checks at the end of `net.SplitHostPort`: no bracket outside the pair around
an IPv6 literal.  `j` and `k` are where the search for either starts, `i` is the
position of the last colon. -/
def splitBrackets (hostport host : GoString) (i j k : ℕ) : Except AddrError (GoString × GoString) :=
  if lbracket ∈ hostport.drop j then .error .unexpectedLbracket
  else if rbracket ∈ hostport.drop k then .error .unexpectedRbracket
  else .ok (host, hostport.drop (i + 1))

/-- `net.SplitHostPort`. -/
def splitHostPort (hostport : GoString) : Except AddrError (GoString × GoString) :=
  match lastIndexByte hostport colon with
  | none => .error .missingPort
  | some i =>
    if hostport.head? = some lbracket then
      match indexByte hostport rbracket with
      | none => .error .missingRbracket
      | some e =>
        if e + 1 = hostport.length then .error .missingPort
        else if e + 1 = i then splitBrackets hostport ((hostport.take e).drop 1) i 1 (e + 1)
        else if hostport[e + 1]? = some colon then .error .tooManyColons
        else .error .missingPort
    else
      let host := hostport.take i
      if colon ∈ host then .error .tooManyColons
      else splitBrackets hostport host i 0 0

theorem joinHostPort_of_mem {host : GoString} (h : colon ∈ host) (port : GoString) :
    joinHostPort host port = [lbracket] ++ host ++ [rbracket, colon] ++ port := if_pos h

theorem joinHostPort_of_notMem {host : GoString} (h : colon ∉ host) (port : GoString) :
    joinHostPort host port = host ++ [colon] ++ port := if_neg h

/-- An address always has the colon between host and port. -/
theorem joinHostPort_ne_nil (host port : GoString) : joinHostPort host port ≠ [] := by
  unfold joinHostPort
  split <;> simp

/-- The text of something that is not an IPv4 address either has a colon or starts
with neither a digit nor a colon. -/
theorem IP.string_of_to4_eq_none {ip : IP} (h : ip.to4 = none) :
    colon ∈ ip.string ∨ (ip.string ≠ [] ∧ ip.string.head?.any isDigit = false) := by
  by_cases h0 : ip.length = 0
  · refine Or.inr ?_
    rw [IP.string, if_pos h0]
    decide
  · by_cases hlen : ip.length ≠ 4 ∧ ip.length ≠ 16
    · refine Or.inr ?_
      rw [IP.string, if_neg h0, if_pos hlen]
      exact ⟨List.cons_ne_nil _ _, rfl⟩
    · refine Or.inl ?_
      have h4 : ip.length ≠ 4 := by
        intro h4
        rw [IP.to4, if_pos h4] at h
        exact Option.some_ne_none _ h
      rw [IP.string, if_neg h0, if_neg hlen, h]
      refine colon_mem_string6 ?_
      rw [length_groups]
      omega

/-- **An address shows its family.**  It starts with a digit exactly when the IP it was
made from is an IPv4 address. -/
theorem head?_joinHostPort_string_any (ip : IP) (port : GoString) :
    (joinHostPort ip.string port).head?.any isDigit = ip.to4.isSome := by
  cases h : ip.to4 with
  | some p4 =>
    have hlen := IP.length_of_to4 h
    match p4, hlen with
    | b :: q, _ =>
      rw [IP.string_of_to4 h, joinHostPort_of_notMem (colon_notMem_string4 _)]
      have hd := head?_string4_any b q
      cases hs : string4 (b :: q) with
      | nil =>
        rw [hs] at hd
        exact absurd hd (by decide)
      | cons c s =>
        rw [hs] at hd
        simpa using hd
  | none =>
    rcases IP.string_of_to4_eq_none h with hc | ⟨hne, hd⟩
    · rw [joinHostPort_of_mem hc]
      rfl
    · by_cases hc : colon ∈ ip.string
      · rw [joinHostPort_of_mem hc]
        rfl
      · rw [joinHostPort_of_notMem hc, List.append_assoc, List.head?_append_of_ne_nil _ hne, hd]
        rfl

end Core
end ForwardProxy
