import ForwardProxy.Core.Base64
import ForwardProxy.Serve.Request

/-!
# Proxy authentication (`checkCredentials`)

The credentials of the configuration are the base 64 forms of `user:password`, and a client
presents one of them in `Proxy-Authorization`.  Next to its verdict the check records a user
name for the logs, and that is the part with the arithmetic: the name is a slice of the decoded
credential, and the slice is out of range when there is no colon in it.
-/

namespace ForwardProxy
namespace Serve

open ForwardProxy.Core

/-- `CorruptInputError.Error`. -/
def corruptInput (pos : ℕ) : GoString := ascii "illegal base64 data at input byte " ++ itoa pos

/-- The user name of an accepted credential: what stands before the colon in the whole of the
buffer, of which the decoder may have left a part zero. -/
def acceptedUser (creds : GoString) : Except Panic GoString :=
  let out := (Base64.decode creds).1
  let cred := out ++ List.replicate (Base64.decodedLen creds.length - out.length) 0
  match indexByte cred colon with
  | some i => .ok (cred.take i)
  | none => .error .sliceBounds

/-- The name of an accepted credential that was made from a user and a password. -/
theorem acceptedUser_encode {user : GoString} (h : colon ∉ user) (pass : GoString) :
    acceptedUser (Base64.encode (user ++ [colon] ++ pass)) = .ok user := by
  rw [acceptedUser, Base64.decode_encode]
  dsimp only
  rw [List.append_assoc, List.append_assoc, List.singleton_append, indexByte_append_cons h]
  dsimp only
  rw [List.take_left]

/-- The zeros behind the decoded bytes are no colons, so that the slice is in range exactly when
there is a colon among these bytes. -/
theorem exists_acceptedUser_iff (creds : GoString) :
    (∃ user, acceptedUser creds = .ok user) ↔ colon ∈ (Base64.decode creds).1 := by
  unfold acceptedUser
  generalize (Base64.decode creds).1 = out
  dsimp only
  generalize Base64.decodedLen creds.length - out.length = k
  by_cases hmem : colon ∈ out
  · obtain ⟨a, b, rfl, ha⟩ := List.eq_append_cons_of_mem hmem
    rw [List.append_assoc, List.cons_append, indexByte_append_cons ha]
    exact iff_of_true ⟨_, rfl⟩ hmem
  · have hnone : colon ∉ out ++ List.replicate k 0 := by
      rw [List.mem_append, List.mem_replicate]
      rintro (h | ⟨-, h⟩)
      · exact hmem h
      · exact absurd h (by decide)
    rw [indexByte_eq_none hnone]
    refine iff_of_false ?_ hmem
    rintro ⟨user, ⟨⟩⟩

/-- The record and the error for a credential that is not among the configured ones. -/
def rejected (presented : GoString) : GoString × ServeError :=
  match Base64.decode presented with
  | (_, some pos) => (ascii "invalidbase64:" ++ corruptInput pos, { text := corruptInput pos })
  | (cred, none) =>
    let id := if utf8Valid cred then
        match indexByte cred colon with
        | some i => ascii "invalid:" ++ cred.take i
        | none => ascii "invalidformat:" ++ cred
      else ascii "invalid::"
    (id, { text := ascii "invalid credentials" })

/-- Whatever the reason, the record of a rejected credential has a colon in it. -/
theorem colon_mem_rejected (presented : GoString) : colon ∈ (rejected presented).1 := by
  have hleft : ∀ (a b : GoString), colon ∈ a → colon ∈ a ++ b := fun a b h =>
    List.mem_append_left b h
  unfold rejected
  split
  · exact hleft _ _ (by decide)
  · rename_i cred _
    dsimp only
    by_cases hutf : utf8Valid cred
    · rw [if_pos hutf]
      split
      · exact hleft _ _ (by decide)
      · exact hleft _ _ (by decide)
    · rw [if_neg hutf]
      decide

/-- `checkCredentials`: the name that is recorded, if any, and the error. -/
def checkCredentials (authCredentials : List GoString) (r : Request) :
    Except Panic (Option GoString × Option ServeError) :=
  match split (r.header.get (ascii "Proxy-Authorization")) 32 with
  | [scheme, presented] =>
    if toLower scheme ≠ ascii "basic" then
      .ok (none, some { text := ascii "auth type is not supported" })
    else if authCredentials.any fun creds => creds = presented then do
      let user ← acceptedUser presented
      .ok (some user, none)
    else
      let (id, err) := rejected presented
      .ok (some id, some err)
  | _ =>
    let text := ascii "Proxy-Authorization is required! Expected format: <type> <credentials>"
    .ok (none, some { text })

/-! ## What the check accepts -/

/-- The value of the header field presents a credential: a scheme that reads `basic` in lower case,
one blank, and the credential. -/
def Presents (value scheme creds : GoString) : Prop :=
  value = scheme ++ 32 :: creds ∧ toLower scheme = ascii "basic"

theorem Presents.space_notMem {value scheme creds : GoString} (h : Presents value scheme creds) :
    32 ∉ scheme := by
  intro hmem
  have hlower := (mem_toLower_iff (by decide) scheme).mpr hmem
  rw [h.2] at hlower
  exact absurd hlower (by decide)

theorem Presents.split_eq {value scheme creds : GoString} (h : Presents value scheme creds)
    (hcreds : 32 ∉ creds) : split value 32 = [scheme, creds] :=
  split_eq_pair_iff.mpr ⟨h.1, h.space_notMem, hcreds⟩

/-- A value that presents one of the credentials: the verdict rests on the user name. -/
theorem checkCredentials_of_presents {authCredentials : List GoString} {r : Request}
    {scheme creds : GoString}
    (h : Presents (r.header.get (ascii "Proxy-Authorization")) scheme creds)
    (hspace : 32 ∉ creds) (hmem : creds ∈ authCredentials) :
    checkCredentials authCredentials r = (acceptedUser creds).map fun user =>
      (some user, none) := by
  have hany : (authCredentials.any fun c => c = creds) = true :=
    List.any_eq_true.mpr ⟨creds, hmem, decide_eq_true rfl⟩
  rw [checkCredentials, h.split_eq hspace]
  dsimp only
  rw [if_neg (not_not_intro h.2), if_pos hany]
  cases acceptedUser creds <;> rfl

/-- Any other value is rejected, and what is recorded then, if anything, has a colon in it. -/
theorem checkCredentials_of_not_presents {authCredentials : List GoString} {r : Request}
    (h : ∀ scheme creds, Presents (r.header.get (ascii "Proxy-Authorization")) scheme creds →
      32 ∉ creds → creds ∉ authCredentials) :
    ∃ id err, checkCredentials authCredentials r = .ok (id, some err) ∧
      ∀ name, id = some name → colon ∈ name := by
  have hnone : ∀ name, (none : Option GoString) = some name → colon ∈ name :=
    fun name hname => absurd hname.symm (Option.some_ne_none name)
  unfold checkCredentials
  split
  · rename_i scheme presented hsplit
    obtain ⟨hvalue, -, hspace⟩ := split_eq_pair_iff.mp hsplit
    by_cases hbasic : toLower scheme = ascii "basic"
    · have hany : ¬ (authCredentials.any fun c => c = presented) = true := by
        intro hany
        obtain ⟨c, hc, heq⟩ := List.any_eq_true.mp hany
        exact h scheme presented ⟨hvalue, hbasic⟩ hspace (of_decide_eq_true heq ▸ hc)
      rw [if_neg (not_not_intro hbasic), if_neg hany]
      exact ⟨_, _, rfl, fun name hname => Option.some.inj hname ▸ colon_mem_rejected presented⟩
    · rw [if_pos hbasic]
      exact ⟨_, _, rfl, hnone⟩
  · exact ⟨_, _, rfl, hnone⟩

end Serve
end ForwardProxy
