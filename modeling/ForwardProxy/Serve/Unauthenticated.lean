import ForwardProxy.Serve.Credentials

/-!
# Requests without credentials

A handler with credentials checks them before anything else, but it acts on the result in three
places: the hidden page shows it, the proxy's own host names make an exception for some requests
with it, and what is left is passed on or challenged.  `TurnedAway` lists what these three can come
to for a request that failed the check.

Nothing in that list reaches the network or takes a place among the associations.  With probe
resistance the list shrinks further: apart from the hidden page and the PAC file, the one thing that
happens is that the next handler gets the request as it came.
-/

namespace ForwardProxy
namespace Serve

open ForwardProxy.Core Prog

/-- The operation goes to the network, or hands the request to something that does. -/
def Outbound : Op → Prop
  | .roundTrip _ => True
  | .dialContext _ _ _ => True
  | .dialContextCheckACL _ _ _ => True
  | .writeRequest _ _ => True
  | .readResponse _ => True
  | .serveConnectUDP _ => True
  | .hijack => True
  | .writeTarget _ _ => True
  | .dualStream _ _ => True
  | _ => False

/-- What the check of the credentials leaves in the replacer. -/
def recorded : Option GoString → List Exchange
  | none => []
  | some id => [⟨.setUserID id, ()⟩]

/-- The header with the challenge. -/
def challenge (header : Header) : Header := header.set
    (ascii "Proxy-Authenticate") proxyAuthenticate

/-- The exception for the proxy's own host names, for a request that failed the check. -/
def OwnHost (hostsMatch : Request → Bool) (h : Handler) (r : Request) : Prop :=
  hostsMatch r = true ∧
    (r.method ≠ ascii "CONNECT" ∨ isConnectUDPRequest r = false ∨ h.probeResistance.isSome = true)

/-- What can become of a request that failed the check with an error: the operations, and the error
that is returned. -/
inductive TurnedAway (hostsMatch : Request → Bool) (h : Handler) (r : Request) (err : ServeError) :
    List Exchange → Option ServeError → Prop
  | hiddenPage {tr : List Exchange} {e : Option ServeError} (hfor : ForHiddenPage h r)
      (hrun : Runs (serveHiddenPage (some err)) tr e) : TurnedAway hostsMatch h r err tr e
  | pacFile {tr : List Exchange} {e : Option ServeError} (hown : OwnHost hostsMatch h r)
      (hpac : shouldServePACFile h r = true) (hrun : Runs (servePacFile r) tr e) :
      TurnedAway hostsMatch h r err tr e
  | next (e : Option ServeError)
      (hwhy : OwnHost hostsMatch h r ∧ shouldServePACFile h r = false ∨
        h.probeResistance.isSome = true) :
      TurnedAway hostsMatch h r err [⟨.next r, e⟩] e
  | challenged {tr : List Exchange} (hprobe : h.probeResistance = none)
      (hrun : Runs (modifyResponseHeader challenge) tr ()) :
      TurnedAway hostsMatch h r err tr (some (handlerError 407 err.text))

section Program

variable {hostsMatch : Request → Bool} {h : Handler} {r : Request} {err : ServeError}

/-- The gate turns the request away. -/
theorem turnedAway_of_runs_gate {tr : List Exchange} {res : Option (Option ServeError)}
    (hrun : Runs (gate hostsMatch h r (some err)) tr res) :
    ∃ e, res = some e ∧ TurnedAway hostsMatch h r err tr e := by
  unfold gate at hrun
  by_cases hhidden : h.probeResistance.isSome ∧ h.probeResistance ≠ some [] ∧
      h.probeResistance = some (requestHost r)
  · rw [if_pos hhidden] at hrun
    obtain ⟨tr₁, tr₂, e, rfl, hpage, hret⟩ := runs_bind_iff.mp hrun
    obtain ⟨rfl, rfl⟩ := runs_ret_iff.mp hret
    exact ⟨e, rfl, .hiddenPage hhidden (by rwa [List.append_nil])⟩
  rw [if_neg hhidden] at hrun
  by_cases hown : OwnHost hostsMatch h r
  · rw [if_pos (by simpa [OwnHost] using hown)] at hrun
    by_cases hpac : shouldServePACFile h r = true
    · rw [if_pos hpac] at hrun
      obtain ⟨tr₁, tr₂, e, rfl, hpage, hret⟩ := runs_bind_iff.mp hrun
      obtain ⟨rfl, rfl⟩ := runs_ret_iff.mp hret
      exact ⟨e, rfl, .pacFile hown hpac (by rwa [List.append_nil])⟩
    · rw [if_neg hpac] at hrun
      obtain ⟨e, tr', rfl, hret⟩ := runs_op_iff.mp hrun
      obtain ⟨rfl, rfl⟩ := runs_ret_iff.mp hret
      exact ⟨e, rfl, .next e (Or.inl ⟨hown, Bool.eq_false_iff.mpr hpac⟩)⟩
  · rw [if_neg (by simpa [OwnHost] using hown)] at hrun
    by_cases hprobe : h.probeResistance.isSome = true
    · simp only [hprobe, if_true] at hrun
      obtain ⟨e, tr', rfl, hret⟩ := runs_op_iff.mp hrun
      obtain ⟨rfl, rfl⟩ := runs_ret_iff.mp hret
      exact ⟨e, rfl, .next e (Or.inr hprobe)⟩
    · simp only [hprobe, Bool.false_eq_true, if_false] at hrun
      obtain ⟨tr₁, tr₂, u, rfl, hset, hret⟩ := runs_bind_iff.mp hrun
      obtain ⟨rfl, rfl⟩ := runs_ret_iff.mp hret
      exact ⟨_, rfl, .challenged (by simpa using hprobe) (by rwa [List.append_nil])⟩

/-- The check of the credentials records a name, and nothing else. -/
theorem runs_authenticate_iff {creds : List GoString} {id : Option GoString}
    (hcreds : h.authCredentials = some creds)
    (hfail : checkCredentials creds r = .ok (id, some err)) {tr : List Exchange} {a : Outcome} :
    Runs (authenticate h r) tr a ↔ tr = recorded id ∧ a = .ok (some err) := by
  unfold authenticate
  rw [hcreds]
  dsimp only
  rw [hfail]
  cases id with
  | none => exact runs_ret_iff
  | some id =>
    refine runs_op_iff.trans ⟨?_, ?_⟩
    · rintro ⟨u, tr', rfl, hret⟩
      obtain ⟨rfl, rfl⟩ := runs_ret_iff.mp hret
      exact ⟨rfl, rfl⟩
    · rintro ⟨rfl, rfl⟩
      exact ⟨(), [], rfl, .ret _⟩

/-- The request as `ServeHTTP` leaves it when nothing but the redaction changes it. -/
def left (r : Request) : Request := if isConnectUDPRequest r then redactConnectUDPRequest r else r

/-- A run for a request that fails the check: a name is recorded, then the gate decides. -/
theorem runs_serveHTTP_rejected_iff {creds : List GoString} {id : Option GoString}
    (hcreds : h.authCredentials = some creds)
    (hfail : checkCredentials creds r = .ok (id, some err)) {tr : List Exchange}
    {res : Request × Outcome} :
    Runs (serveHTTP hostsMatch h r) tr res ↔
      ∃ effects e, tr = recorded id ++ effects ∧ Runs (gate hostsMatch h r (some err)) effects
        (some e) ∧ res = (left r, .ok e) := by
  have hstart : Runs (serveHTTP hostsMatch h r) tr res ↔
      ∃ tr₁ tr₂ a, tr = tr₁ ++ tr₂ ∧ Runs (authenticate h r) tr₁ a ∧ _ := runs_bind_iff
  rw [hstart]
  constructor
  · rintro ⟨tr₁, tr₂, a, rfl, hauth, hrest⟩
    obtain ⟨rfl, rfl⟩ := (runs_authenticate_iff hcreds hfail).mp hauth
    obtain ⟨effects, tr₃, g, rfl, hgate, hret⟩ := runs_bind_iff.mp hrest
    obtain ⟨e, rfl, -⟩ := turnedAway_of_runs_gate hgate
    obtain ⟨rfl, rfl⟩ := runs_ret_iff.mp hret
    exact ⟨effects, e, by rw [List.append_nil], hgate, rfl⟩
  · rintro ⟨effects, e, rfl, hgate, rfl⟩
    refine ⟨recorded id, effects, _, rfl, (runs_authenticate_iff hcreds hfail).mpr ⟨rfl, rfl⟩, ?_⟩
    exact runs_bind_iff.mpr ⟨effects, [], some e, (List.append_nil _).symm, hgate, .ret _⟩

/-! ## Nothing goes out -/

theorem Preliminary.not_outbound {o : Op} (ho : Preliminary o) : ¬ Outbound o := by
  cases o <;> first | exact absurd ho id | exact id

theorem preliminary_recorded (id : Option GoString) : ∀ x ∈ recorded id, Preliminary x.1 := by
  cases id with
  | none => exact fun x hx => absurd hx List.not_mem_nil
  | some id =>
    intro x hx
    rw [List.mem_singleton.mp hx]
    trivial

theorem not_outbound_recorded (id : Option GoString) : ∀ x ∈ recorded id, ¬ Outbound x.1 :=
  fun x hx => (preliminary_recorded id x hx).not_outbound

/-- Nothing goes out at the gate. -/
theorem not_outbound_of_runs_gate {authErr : Option ServeError} {tr : List Exchange}
    {res : Option (Option ServeError)} (hrun : Runs (gate hostsMatch h r authErr) tr res) :
    ∀ x ∈ tr, ¬ Outbound x.1 :=
  ((follows_gate (fun _ => Preliminary.not_outbound) authErr).of_runs hrun).1

/-- **No unauthenticated proxying.**  If the handler has credentials and a request fails their
check, then in every run the request is turned away: apart from the name that is recorded there is
the hidden page, the PAC file, the next handler or a 407, and no operation goes to the network or
hands the request to something that does. -/
theorem unauthenticated_turned_away {creds : List GoString} {id : Option GoString}
    (hcreds : h.authCredentials = some creds)
    (hfail : checkCredentials creds r = .ok (id, some err)) {tr : List Exchange}
    {res : Request × Outcome} (hrun : Runs (serveHTTP hostsMatch h r) tr res) :
    (∃ effects e, tr = recorded id ++ effects ∧ res = (left r, .ok e) ∧
      TurnedAway hostsMatch h r err effects e) ∧
    ∀ x ∈ tr, ¬ Outbound x.1 := by
  obtain ⟨effects, e, rfl, hgate, rfl⟩ := (runs_serveHTTP_rejected_iff hcreds hfail).mp hrun
  obtain ⟨e', he, haway⟩ := turnedAway_of_runs_gate hgate
  obtain rfl := Option.some.inj he
  refine ⟨⟨effects, e, rfl, rfl, haway⟩, fun x hx => ?_⟩
  rcases List.mem_append.mp hx with hx | hx
  · exact not_outbound_recorded id x hx
  · exact not_outbound_of_runs_gate hgate x hx

/-- A handler with one user and password. -/
def lockedHandler : Handler := { authCredentials := some [ascii "dXNlcjpwYXNz"] }

/-- The credentials of the page request are not among them. -/
theorem checkCredentials_pageRequest :
    checkCredentials [ascii "dXNlcjpwYXNz"] pageRequest =
      .ok (some (ascii "invalidformat:x"), some { text := ascii "invalid credentials" }) := by
  decide +kernel

theorem unauthenticated_turned_away_page :
    Runs (serveHTTP (fun _ => false) lockedHandler pageRequest)
        [⟨.setUserID (ascii "invalidformat:x"), ()⟩, ⟨.responseHeader, []⟩,
          ⟨.setResponseHeader (challenge []), ()⟩]
        (pageRequest, .ok (some (handlerError 407 (ascii "invalid credentials")))) ∧
      ∀ tr res, Runs (serveHTTP (fun _ => false) lockedHandler pageRequest) tr res →
        ∀ x ∈ tr, ¬ Outbound x.1 := by
  refine ⟨?_, fun tr res hrun =>
    (unauthenticated_turned_away rfl checkCredentials_pageRequest hrun).2⟩
  refine (runs_serveHTTP_rejected_iff rfl checkCredentials_pageRequest).mpr ⟨_, _, rfl, ?_, rfl⟩
  exact .op (.op (.ret _))

/-! ## The handler that is not there -/

/-- With probe resistance the gate of a request that is neither for the hidden page nor for the PAC
file is the next handler. -/
theorem gate_eq_next (hprobe : h.probeResistance.isSome = true) (hhidden : ¬ ForHiddenPage h r)
    (hpac : ¬ (hostsMatch r = true ∧ shouldServePACFile h r = true)) :
    gate hostsMatch h r (some err) = (perform (Op.next r) >>= fun e => return some e) := by
  have hcond : ¬ (h.probeResistance.isSome ∧ h.probeResistance ≠ some [] ∧
      h.probeResistance = some (requestHost r)) := hhidden
  unfold gate
  rw [if_neg hcond]
  by_cases hmatch : hostsMatch r = true
  · rw [if_pos ⟨hmatch, Or.inr ⟨rfl, Or.inr hprobe⟩⟩, if_neg fun h => hpac ⟨hmatch, h⟩]
  · rw [if_neg fun h => hmatch h.1]
    simp only [hprobe, if_true]

/-- **Probe resistance is transparent.**  If a request fails the check of a handler with probe
resistance, its host is not the secret domain and it is not a PAC request to a matching host, then
the runs of `ServeHTTP` are exactly these: the next handler is called once with the request as it
came, nothing else happens but that a name may be recorded, and the answer is returned as it is.
Only after that is a CONNECT-UDP request redacted. -/
theorem probe_resistance_transparent {creds : List GoString} {id : Option GoString}
    {domain : GoString} (hprobe : h.probeResistance = some domain)
    (hcreds : h.authCredentials = some creds)
    (hfail : checkCredentials creds r = .ok (id, some err))
    (hhost : domain ≠ [] → requestHost r ≠ domain)
    (hpac : ¬ (hostsMatch r = true ∧ shouldServePACFile h r = true)) (tr : List Exchange)
    (res : Request × Outcome) :
    Runs (serveHTTP hostsMatch h r) tr res ↔
      ∃ e, tr = recorded id ++ [⟨.next r, e⟩] ∧ res = (left r, .ok e) := by
  have hhidden : ¬ ForHiddenPage h r := by
    rintro ⟨-, hne, heq⟩
    rw [hprobe] at hne heq
    exact hhost (fun h => hne (by rw [h])) (Option.some.inj heq).symm
  rw [runs_serveHTTP_rejected_iff hcreds hfail, gate_eq_next (by rw [hprobe]; rfl) hhidden hpac]
  constructor
  · rintro ⟨effects, e, rfl, hgate, rfl⟩
    obtain ⟨e', tr', rfl, hret⟩ := runs_op_iff.mp hgate
    obtain ⟨rfl, he⟩ := runs_ret_iff.mp hret
    obtain rfl := Option.some.inj he
    exact ⟨e, rfl, rfl⟩
  · rintro ⟨e, rfl, rfl⟩
    exact ⟨_, e, rfl, .op (.ret _), rfl⟩

theorem probe_resistance_transparent_page :
    ∃ tr, Runs (serveHTTP (fun _ => false)
        { lockedHandler with probeResistance := some (ascii "secret.example") } pageRequest) tr
        (pageRequest, .ok none) ∧
      tr = [⟨.setUserID (ascii "invalidformat:x"), ()⟩, ⟨.next pageRequest, none⟩] :=
  ⟨_, (probe_resistance_transparent rfl rfl checkCredentials_pageRequest (by decide) (by simp)
    [⟨.setUserID (ascii "invalidformat:x"), ()⟩, ⟨.next pageRequest, none⟩] _).mpr
      ⟨none, rfl, rfl⟩, rfl⟩

end Program

end Serve
end ForwardProxy
