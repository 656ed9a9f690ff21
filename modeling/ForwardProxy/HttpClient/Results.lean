import ForwardProxy.HttpClient.Dialer

/-!
# What `DialContext` returns

A caller of `DialContext` looks at the error only, and uses the connection if there is none.
So a result is usable if it is a connection without an error, or an error without a
connection.

When a step fails, the code does not return the error of the step.  It closes the connection
and returns what `Close` says (`err = rawConn.Close(); return nil, err`).  If `Close` has
nothing to complain about, the failure is gone: the result is neither a connection nor an
error; and on the cached connection, where the error decides whether to carry on, the call
returns instead of dialling.  `Masked` reads this off the run: a `Close` that succeeds right
after the step whose failure it replaces.

## Main results

* `usable_iff_not_masked`: the result is usable, and a failure on the cached connection is
  followed by a fresh dial, exactly when no failure is masked.
-/

namespace ForwardProxy
namespace HttpClient

open ForwardProxy.Core Prog

/-- A connection without an error, or an error without a connection. -/
def Usable (res : Result) : Prop :=
  (res.1 ≠ none ∧ res.2 = none) ∨ (res.1 = none ∧ res.2 ≠ none)

/-- The steps after which the answer of `Close` becomes the error: a failure, or the `Close`
after which a failed attempt on a new HTTP/2 connection is closed once more. -/
def givesUp : Exchange → Bool
  | ⟨.newClientConn _, some _⟩ => true
  | ⟨.roundTrip _ _, .error _⟩ => true
  | ⟨.write _ _, some _⟩ => true
  | ⟨.readResponse _, .error _⟩ => true
  | ⟨.close _, _⟩ => true
  | _ => false

/-- A `Close` that returns nil. -/
def closesWell : Exchange → Bool
  | ⟨.close _, none⟩ => true
  | _ => false

/-- A failure is replaced by the success of a `Close`. -/
def Masked : List Exchange → Prop
  | x :: y :: tr => (givesUp x = true ∧ closesWell y = true) ∨ Masked (y :: tr)
  | _ => False

/-- A dial of a new connection. -/
def dials : Exchange → Bool
  | ⟨.dial _ _, _⟩ => true
  | ⟨.dialTLS _ _, _⟩ => true
  | ⟨.tlsDial _ _, _⟩ => true
  | _ => false

/-- The run makes an attempt on the cached connection, and it fails. -/
def CachedFails : List Exchange → Prop
  | ⟨.cached, some (_, true)⟩ :: ⟨.roundTrip _ _, .ok resp⟩ :: _ => resp.statusCode ≠ 200
  | ⟨.cached, some (_, true)⟩ :: ⟨.roundTrip _ _, .error _⟩ :: _ => True
  | _ => False

/-- After a failed attempt on the cached connection a new one is dialled, or the scheme is
refused where it would be. -/
def GoesOn (c : HTTPConnectDialer) (tr : List Exchange) (res : Result) : Prop :=
  CachedFails tr → (∃ x ∈ tr, dials x = true) ∨
    (c.scheme ≠ ascii "http" ∧ c.scheme ≠ ascii "https" ∧
      res = (none, some (unsupportedScheme c.scheme)))

/-! ## Masking -/

theorem masked_cons_of_not_givesUp {x : Exchange} (h : givesUp x = false) (tr : List Exchange) :
    Masked (x :: tr) ↔ Masked tr := by
  cases tr with
  | nil => exact Iff.rfl
  | cons y tr => simp [Masked, h]

/-- A failed step and what `Close` makes of it. -/
theorem usable_iff_of_close {x : Exchange} (h : givesUp x = true) (rawConn : ℕ)
    (err : Option DialError) :
    Usable (none, err) ↔ ¬ Masked [x, ⟨.close rawConn, err⟩] := by
  cases err with
  | none => simp [Usable, Masked, h, closesWell]
  | some e => simp [Usable, Masked, closesWell]

/-- The end of a failed step: the connection is closed, and that is what is returned. -/
theorem usable_of_runs_close {x : Exchange} (hx : givesUp x = true) {rawConn : ℕ}
    {tr : List Exchange} {res : Result}
    (h : Runs (do
      let err ← perform (Op.close rawConn)
      return (none, err) : Prog Resp Result) tr res) : Usable res ↔ ¬ Masked (x :: tr) := by
  obtain ⟨err, tr₁, rfl, h₁⟩ := runs_op_iff.mp h
  obtain ⟨rfl, rfl⟩ := runs_ret_iff.mp h₁
  exact usable_iff_of_close hx rawConn err

/-- An error that is returned as it is. -/
theorem usable_of_runs_error {err : DialError} {tr : List Exchange} {res : Result}
    (h : Runs (.ret (none, some err) : Prog Resp Result) tr res) : Usable res ↔ ¬ Masked tr := by
  obtain ⟨rfl, rfl⟩ := runs_ret_iff.mp h
  simp [Usable, Masked]

/-! ## The runs of the parts -/

/-- The runs of `connectHttp2`. -/
theorem connectHttp2_runs {req : ConnectRequest} {rawConn : ℕ} {tr : List Exchange} {res : Result}
    (h : Runs (connectHttp2 req rawConn) tr res) :
    (∃ req' resp, tr = [⟨.roundTrip rawConn req', .ok resp⟩] ∧ resp.statusCode = 200 ∧
      res = (some (.http2 rawConn), none)) ∨
    (∃ req' resp err, tr = [⟨.roundTrip rawConn req', .ok resp⟩, ⟨.close rawConn, err⟩] ∧
      resp.statusCode ≠ 200 ∧ res = (none, some (non200 resp))) ∨
    (∃ req' e err, tr = [⟨.roundTrip rawConn req', .error e⟩, ⟨.close rawConn, err⟩] ∧
      res = (none, err)) := by
  simp only [connectHttp2, perform_bind] at h
  obtain ⟨r, tr₁, rfl, h₁⟩ := runs_op_iff.mp h
  cases r with
  | error e =>
    obtain ⟨err, tr₂, rfl, h₂⟩ := runs_op_iff.mp h₁
    obtain ⟨rfl, rfl⟩ := runs_ret_iff.mp h₂
    exact Or.inr (Or.inr ⟨_, e, err, rfl, rfl⟩)
  | ok resp =>
    dsimp only at h₁
    by_cases hstatus : resp.statusCode = 200
    · rw [if_neg (not_not.mpr hstatus)] at h₁
      obtain ⟨rfl, rfl⟩ := runs_ret_iff.mp h₁
      exact Or.inl ⟨_, resp, rfl, hstatus, rfl⟩
    · rw [if_pos hstatus] at h₁
      obtain ⟨err, tr₂, rfl, h₂⟩ := runs_op_iff.mp h₁
      obtain ⟨rfl, rfl⟩ := runs_ret_iff.mp h₂
      exact Or.inr (Or.inl ⟨_, resp, err, rfl, hstatus, rfl⟩)

theorem connectHttp1_usable {req : ConnectRequest} {rawConn : ℕ} {tr : List Exchange}
    {res : Result} (h : Runs (connectHttp1 req rawConn) tr res) : Usable res ↔ ¬ Masked tr := by
  simp only [connectHttp1, perform_bind] at h
  obtain ⟨w, tr₁, rfl, h₁⟩ := runs_op_iff.mp h
  cases w with
  | some e => exact usable_of_runs_close rfl h₁
  | none =>
    rw [masked_cons_of_not_givesUp rfl]
    obtain ⟨r, tr₂, rfl, h₂⟩ := runs_op_iff.mp h₁
    cases r with
    | error e => exact usable_of_runs_close rfl h₂
    | ok resp =>
      rw [masked_cons_of_not_givesUp rfl]
      dsimp only at h₂
      by_cases hstatus : resp.statusCode = 200
      · rw [if_neg (not_not.mpr hstatus)] at h₂
        obtain ⟨rfl, rfl⟩ := runs_ret_iff.mp h₂
        simp [Usable, Masked]
      · rw [if_pos hstatus] at h₂
        obtain ⟨err, tr₃, rfl, h₃⟩ := runs_op_iff.mp h₂
        obtain ⟨rfl, rfl⟩ := runs_ret_iff.mp h₃
        simp [Usable, Masked]

/-- The runs of the end of `startHttp2`, after an attempt without an error. -/
theorem setCached_runs {b : Bool} {rawConn : ℕ} {res res' : Result} {tr : List Exchange}
    (h : Runs (do
      if b then perform (Op.setCached rawConn)
      return res' : Prog Resp Result) tr res) : res = res' ∧
      (tr = [] ∨ tr = [⟨.setCached rawConn, ()⟩]) := by
  cases b with
  | false =>
    obtain ⟨rfl, rfl⟩ := runs_ret_iff.mp h
    exact ⟨rfl, Or.inl rfl⟩
  | true =>
    obtain ⟨⟨⟩, tr₁, rfl, h₁⟩ := runs_op_iff.mp h
    obtain ⟨rfl, rfl⟩ := runs_ret_iff.mp h₁
    exact ⟨rfl, Or.inr rfl⟩

theorem startHttp2_usable {c : HTTPConnectDialer} {req : ConnectRequest} {rawConn : ℕ}
    {tr : List Exchange} {res : Result} (h : Runs (startHttp2 c req rawConn) tr res) :
    Usable res ↔ ¬ Masked tr := by
  simp only [startHttp2, perform_bind] at h
  obtain ⟨e, tr₁, rfl, h₁⟩ := runs_op_iff.mp h
  cases e with
  | some e => exact usable_of_runs_close rfl h₁
  | none =>
    rw [masked_cons_of_not_givesUp rfl]
    obtain ⟨tr₂, tr₃, ⟨proxyConn, err⟩, rfl, h₂, h₃⟩ := runs_bind_iff.mp h₁
    rcases connectHttp2_runs h₂ with ⟨req', resp, rfl, hstatus, heq⟩ |
      ⟨req', resp, err₁, rfl, hstatus, heq⟩ | ⟨req', e, err₁, rfl, heq⟩
    · obtain ⟨rfl, rfl⟩ := Prod.mk.inj heq
      obtain ⟨rfl, htr⟩ := setCached_runs h₃
      rcases htr with rfl | rfl
      · simp [Usable, Masked]
      · simp [Usable, Masked, givesUp]
    · -- the connection is closed a second time, and that is what is returned
      obtain ⟨rfl, rfl⟩ := Prod.mk.inj heq
      rw [List.cons_append, masked_cons_of_not_givesUp rfl]
      exact usable_of_runs_close rfl h₃
    · obtain ⟨rfl, rfl⟩ := Prod.mk.inj heq
      cases err with
      | none =>
        -- the failure is gone, and the closed connection may even be cached
        obtain ⟨rfl, htr⟩ := setCached_runs h₃
        rcases htr with rfl | rfl
        · simp [Usable, Masked, givesUp, closesWell]
        · simp [Usable, Masked, givesUp, closesWell]
      | some e₁ =>
        obtain ⟨err, tr₄, rfl, h₄⟩ := runs_op_iff.mp h₃
        obtain ⟨rfl, rfl⟩ := runs_ret_iff.mp h₄
        have hclose := usable_iff_of_close (x := ⟨.close rawConn, some e₁⟩) rfl rawConn err
        rw [hclose]
        simp [Masked, closesWell]

theorem connectNegotiated_usable {c : HTTPConnectDialer} {req : ConnectRequest} {rawConn : ℕ}
    {proto : GoString} {tr : List Exchange} {res : Result}
    (h : Runs (connectNegotiated c req rawConn proto) tr res) : Usable res ↔ ¬ Masked tr := by
  rw [connectNegotiated] at h
  split_ifs at h
  · exact connectHttp1_usable h
  · exact startHttp2_usable h
  · obtain ⟨err, tr₁, rfl, h₁⟩ := runs_op_iff.mp h
    obtain ⟨rfl, rfl⟩ := runs_ret_iff.mp h₁
    simp [Usable, Masked]

/-- The runs of the part that dials begin with a dial, unless the scheme is refused. -/
structure FreshSpec (c : HTTPConnectDialer) (tr : List Exchange) (res : Result) : Prop where
  usable : Usable res ↔ ¬ Masked tr
  begins : (∃ x tr', tr = x :: tr' ∧ dials x = true) ∨ (tr = [] ∧ c.scheme ≠ ascii "http" ∧
    c.scheme ≠ ascii "https" ∧ res = (none, some (unsupportedScheme c.scheme)))

theorem FreshSpec.of_dial {c : HTTPConnectDialer} {x : Exchange} {tr : List Exchange}
    {res : Result} (hx : dials x = true) (h : Usable res ↔ ¬ Masked tr) :
    FreshSpec c (x :: tr) res := by
  have hgives : givesUp x = false := by
    obtain ⟨o, r⟩ := x
    cases o <;> first | rfl | exact absurd hx (by simp [dials])
  exact ⟨by rw [masked_cons_of_not_givesUp hgives, h], Or.inl ⟨x, tr, rfl, hx⟩⟩

theorem dialFresh_runs {c : HTTPConnectDialer} {network : GoString} {req : ConnectRequest}
    {tr : List Exchange} {res : Result} (h : Runs (dialFresh c network req) tr res) :
    FreshSpec c tr res := by
  rw [dialFresh] at h
  split_ifs at h with hhttp hhttps hdialTLS
  · obtain ⟨r, tr₁, rfl, h₁⟩ := runs_op_iff.mp h
    refine .of_dial rfl ?_
    cases r with
    | error e => exact usable_of_runs_error h₁
    | ok rawConn => exact connectNegotiated_usable h₁
  · obtain ⟨r, tr₁, rfl, h₁⟩ := runs_op_iff.mp h
    refine .of_dial rfl ?_
    cases r with
    | error e => exact usable_of_runs_error h₁
    | ok p => exact connectNegotiated_usable h₁
  · obtain ⟨r, tr₁, rfl, h₁⟩ := runs_op_iff.mp h
    refine .of_dial rfl ?_
    cases r with
    | error e => exact usable_of_runs_error h₁
    | ok tlsConn =>
      obtain ⟨e, tr₂, rfl, h₂⟩ := runs_op_iff.mp h₁
      rw [masked_cons_of_not_givesUp rfl]
      cases e with
      | some e => exact usable_of_runs_error h₂
      | none =>
        obtain ⟨proto, tr₃, rfl, h₃⟩ := runs_op_iff.mp h₂
        rw [masked_cons_of_not_givesUp rfl]
        exact connectNegotiated_usable h₃
  · obtain ⟨rfl, rfl⟩ := runs_ret_iff.mp h
    exact ⟨by simp [Usable, Masked], Or.inr ⟨rfl, hhttp, hhttps, rfl⟩⟩

/-- No `Close` stands at the beginning of a fresh attempt, so none there masks a failure on the
cached connection. -/
theorem FreshSpec.masked_cons {c : HTTPConnectDialer} {tr : List Exchange} {res : Result}
    (h : FreshSpec c tr res) (x : Exchange) : Masked (x :: tr) ↔ Masked tr := by
  rcases h.begins with ⟨y, tr', rfl, hy⟩ | ⟨rfl, -⟩
  · have hclose : closesWell y = false := by
      obtain ⟨o, r⟩ := y
      cases o <;> first | rfl | exact absurd hy (by simp [dials])
    simp [Masked, hclose]
  · simp [Masked]

/-- After a fresh attempt nothing is left to be said about going on. -/
theorem FreshSpec.goesOn {c : HTTPConnectDialer} {pre tr : List Exchange} {res : Result}
    (h : FreshSpec c tr res) : GoesOn c (pre ++ tr) res := by
  intro _
  rcases h.begins with ⟨y, tr', rfl, hy⟩ | ⟨-, hrefused⟩
  · exact Or.inl ⟨y, by simp, hy⟩
  · exact Or.inr hrefused

/-- The runs of the attempt on the cached connection: there is none, it succeeds, it is
answered by another status, or it fails. -/
theorem dialCached_runs {c : HTTPConnectDialer} {req : ConnectRequest} {tr : List Exchange}
    {r : Option Result} (h : Runs (dialCached c req) tr r) :
    (r = none ∧ (tr = [] ∨ ∃ a : Option (ℕ × Bool), tr = [⟨.cached, a⟩])) ∨
    (∃ rc req' resp, tr = [⟨.cached, some (rc, true)⟩, ⟨.roundTrip rc req', .ok resp⟩] ∧
      resp.statusCode = 200 ∧ r = some (some (.http2 rc), none)) ∨
    (∃ rc req' resp err, tr = [⟨.cached, some (rc, true)⟩, ⟨.roundTrip rc req', .ok resp⟩,
      ⟨.close rc, err⟩] ∧ resp.statusCode ≠ 200 ∧ r = none) ∨
    (∃ rc req' e err, tr = [⟨.cached, some (rc, true)⟩, ⟨.roundTrip rc req', .error e⟩,
      ⟨.close rc, err⟩] ∧ r = if err = none then some (none, none) else none) := by
  rw [dialCached] at h
  by_cases hreuse : c.enableH2ConnReuse = true
  · rw [if_pos hreuse, perform_bind] at h
    obtain ⟨a, tr₁, rfl, h₁⟩ := runs_op_iff.mp h
    match a with
    | none =>
      obtain ⟨rfl, rfl⟩ := runs_ret_iff.mp h₁
      exact Or.inl ⟨rfl, Or.inr ⟨_, rfl⟩⟩
    | some (rc, false) =>
      obtain ⟨rfl, rfl⟩ := runs_ret_iff.mp h₁
      exact Or.inl ⟨rfl, Or.inr ⟨_, rfl⟩⟩
    | some (rc, true) =>
      obtain ⟨tr₂, tr₃, ⟨proxyConn, err⟩, rfl, h₂, h₃⟩ := runs_bind_iff.mp h₁
      obtain ⟨rfl, rfl⟩ := runs_ret_iff.mp h₃
      rcases connectHttp2_runs h₂ with ⟨req', resp, rfl, hstatus, heq⟩ |
        ⟨req', resp, err₁, rfl, hstatus, heq⟩ | ⟨req', e, err₁, rfl, heq⟩
      · obtain ⟨rfl, rfl⟩ := Prod.mk.inj heq
        exact Or.inr (Or.inl ⟨rc, req', resp, rfl, hstatus, rfl⟩)
      · obtain ⟨rfl, rfl⟩ := Prod.mk.inj heq
        exact Or.inr (Or.inr (Or.inl ⟨rc, req', resp, err₁, rfl, hstatus, rfl⟩))
      · obtain ⟨rfl, rfl⟩ := Prod.mk.inj heq
        refine Or.inr (Or.inr (Or.inr ⟨rc, req', e, err, rfl, ?_⟩))
        cases err <;> rfl
  · rw [if_neg hreuse] at h
    obtain ⟨rfl, rfl⟩ := runs_ret_iff.mp h
    exact Or.inl ⟨rfl, Or.inl rfl⟩

/-! ## The main result -/

/-- **When the result is usable.**  In every run of `DialContext`, whatever the operations
answer: the result is a connection without an error or an error without a connection, and a
failed attempt on the cached connection is followed by a fresh dial, exactly when no failure
is replaced by the success of a `Close`. -/
theorem usable_iff_not_masked {c : HTTPConnectDialer} {network address : GoString}
    {ctxHeader : Option Header} {tr : List Exchange} {res : Result}
    (h : Runs (dialContext c network address ctxHeader) tr res) :
    (Usable res ∧ GoesOn c tr res) ↔ ¬ Masked tr := by
  simp only [dialContext] at h
  obtain ⟨tr₁, tr₂, r, rfl, h₁, h₂⟩ := runs_bind_iff.mp h
  rcases dialCached_runs h₁ with ⟨rfl, htr⟩ | ⟨rc, req', resp, rfl, hstatus, rfl⟩ |
    ⟨rc, req', resp, err, rfl, hstatus, rfl⟩ | ⟨rc, req', e, err, rfl, hr⟩
  · have hspec := dialFresh_runs h₂
    rw [and_iff_left hspec.goesOn, hspec.usable]
    rcases htr with rfl | ⟨a, rfl⟩
    · exact Iff.rfl
    · rw [List.singleton_append, masked_cons_of_not_givesUp rfl]
  · obtain ⟨rfl, rfl⟩ := runs_ret_iff.mp h₂
    have hgo : GoesOn c ([⟨.cached, some (rc, true)⟩, ⟨.roundTrip rc req', .ok resp⟩] ++ [])
        (some (.http2 rc), none) := fun hfails => absurd hstatus hfails
    rw [and_iff_left hgo]
    simp [Usable, Masked, closesWell]
  · have hspec := dialFresh_runs h₂
    rw [and_iff_left hspec.goesOn, hspec.usable, List.cons_append, masked_cons_of_not_givesUp rfl,
      List.cons_append, masked_cons_of_not_givesUp rfl, List.singleton_append, hspec.masked_cons]
  · cases err with
    | none =>
      -- the call returns with neither a connection nor an error
      subst hr
      obtain ⟨rfl, rfl⟩ := runs_ret_iff.mp h₂
      simp [Usable, Masked, givesUp, closesWell]
    | some e₁ =>
      subst hr
      have hspec := dialFresh_runs h₂
      rw [and_iff_left hspec.goesOn, hspec.usable, List.cons_append, masked_cons_of_not_givesUp rfl,
        ← hspec.masked_cons ⟨.close rc, some e₁⟩]
      simp [Masked, closesWell]

/-- A dialer for an upstream on HTTPS. -/
def httpsDialer : HTTPConnectDialer :=
  { scheme := ascii "https", host := ascii "proxy.example:443" }

/-- The request of the examples. -/
def exampleRequest : ConnectRequest :=
  { host := ascii "target.example:443", header := [], protoMajor := 2, protoMinor := 0 }

/-- The cached connection fails, and closing it succeeds. -/
def maskedFailure : List Exchange :=
  [⟨.cached, some (0, true)⟩, ⟨.roundTrip 0 exampleRequest, .error (.net 1)⟩, ⟨.close 0, none⟩]

theorem runs_maskedFailure :
    Runs (dialContext httpsDialer (ascii "tcp") (ascii "target.example:443") none) maskedFailure
      (none, none) :=
  .op (.op (.op (.ret _)))

/-- Neither a connection nor an error, and no fresh dial. -/
theorem maskedFailure_not_usable :
    Runs (dialContext httpsDialer (ascii "tcp") (ascii "target.example:443") none) maskedFailure
        (none, none) ∧
      ¬ Usable (none, none) ∧ CachedFails maskedFailure ∧ ∀ x ∈ maskedFailure, dials x = false :=
  ⟨runs_maskedFailure, by simp [Usable], trivial, by decide⟩

/-- The cached connection fails, closing it fails too, and so does the fresh dial. -/
def honestFailure : List Exchange :=
  [⟨.cached, some (0, true)⟩, ⟨.roundTrip 0 exampleRequest, .error (.net 1)⟩,
    ⟨.close 0, some (.net 2)⟩, ⟨.tlsDial (ascii "tcp") (ascii "proxy.example:443"),
      .error (.net 3)⟩]

theorem usable_iff_not_masked_honestFailure :
    (Usable (none, some (.net 3)) ∧ GoesOn httpsDialer honestFailure (none, some (.net 3))) ↔
      ¬ Masked honestFailure :=
  usable_iff_not_masked (c := httpsDialer)
    (show Runs (dialContext httpsDialer (ascii "tcp") (ascii "target.example:443") none)
      honestFailure (none, some (.net 3)) from .op (.op (.op (.op (.ret _)))))

end HttpClient
end ForwardProxy
