import ForwardProxy.Dial.Returned
import ForwardProxy.Serve.Release

/-!
# The status of a failed dial (`dialContextCheckACL`, `forwardproxy.go`)

`dialContextCheckACL` looks at the network and the target, runs the race and turns the error of the
race into one with a status.  An error of a lookup arrives wrapped in a policy failure and is taken
out again; other policy failures have a status of their own; any other error is a timeout or not.

`expectedStatus` says what the status should be without the variables of the code: from the network
and the target, from how the race ended, from the answers of the lookups, and from the failure that
was received last.  `dialContextCheckACL_status` says that this is the status of every call that
fails.
-/

namespace ForwardProxy
namespace Dial

open ForwardProxy.Core Acl Serve

/-! ## The code -/

/-- The networks that `dialContextCheckACL` accepts. -/
def Network.ofString (network : GoString) : Option Network :=
  if network = ascii "tcp" then some .tcp
  else if network = ascii "tcp4" then some .tcp4
  else if network = ascii "tcp6" then some .tcp6
  else none

/-- `errors.Is(err, context.DeadlineExceeded)`, or a `net.Error` that is a timeout. -/
def NetError.isTimeout : NetError → Bool
  | .canceled => false
  | .deadlineExceeded => true
  | .other _ timeout => timeout

/-- The same for an error of the race.  A policy failure unwraps to its cause. -/
def RaceError.isTimeout : RaceError → Bool
  | .net e => NetError.isTimeout e
  | .policy (.lookupFailed cause) => NetError.isTimeout cause
  | _ => false

/-- `tcpDialError`. -/
def tcpDialError (err : RaceError) : ServeError :=
  if err.isTimeout then handlerError 504 (ascii "target connection timed out")
  else handlerError 502 (ascii "target connection failed")

/-- `AddrError.Error`. -/
def addrErrorText (addr : GoString) (err : AddrError) : GoString :=
  if addr = [] then err.text else ascii "address " ++ addr ++ ascii ": " ++ err.text

/-- `legacyTargetPolicyError`.  `addr` is the address in the cause of a malformed target, and
`errText` is what the errors of the resolver say. -/
def legacyTargetPolicyError (errText : NetError → GoString) (addr : GoString)
    (failure : PolicyFailure) (host port : GoString) : ServeError :=
  match failure with
  | .malformed cause => handlerError 400 (addrErrorText addr cause)
  | .portDenied => handlerError 403 (ascii "port " ++ port ++ ascii " is not allowed")
  | .domainDenied => handlerError 403 (ascii "disallowed host " ++ host)
  | .lookupFailed cause =>
    handlerError 502 (ascii "lookup of " ++ host ++ ascii " failed: " ++ errText cause)
  | .noAllowedAddress => handlerError 403 (ascii "no allowed IP addresses for " ++ host)

/-- What `dialContextCheckACL` does before it dials. -/
inductive Entry where
  | refused (err : ServeError)
  /-- Dial through the upstream. -/
  | upstream
  | race (c : Config)

/-- `dialContextCheckACL` up to the dial. -/
def enter (errText : NetError → GoString) (h : Handler) (network hostPort : GoString) : Entry :=
  match Network.ofString network with
  | none => .refused (handlerError 400 (ascii "network " ++ network ++ ascii " is not supported"))
  | some net =>
    if h.upstream ≠ none then .upstream
    else
      match prepareTargetPolicy h hostPort with
      | (host, port, some failure) =>
        .refused (legacyTargetPolicyError errText hostPort failure host port)
      | (host, port, none) => .race { handler := h, network := net, host := host, port := port }

/-- `dialContextCheckACL` from the return of the race on. -/
def leave (errText : NetError → GoString) (hostPort : GoString) (c : Config) (conn : Option ℕ)
    (err : Option RaceError) : Option ℕ × Option ServeError :=
  match err with
  | none => (conn, none)
  | some (.policy (.lookupFailed cause)) => (none, some (tcpDialError (.net cause)))
  | some (.policy failure) =>
    (none, some (legacyTargetPolicyError errText hostPort failure c.host c.port))
  | some err => (none, some (tcpDialError err))

/-- The branch for an upstream, from the return of `h.dialContext` on; `ctxErr` is `ctx.Err()`.  A
missing error is no timeout. -/
def leaveUpstream (conn : Option ℕ) (err : Option NetError) (ctxErr : Option NetError) :
    Option ℕ × Option ServeError :=
  if err ≠ none ∨ conn = none ∨ ctxErr ≠ none then
    (none, some (tcpDialError (((ctxErr.or err).map .net).getD .dialFailed)))
  else (conn, none)

/-- `dialContextCheckACL`, along the events of the race; `none` while it has not returned.
`upstream` is what the dial through the upstream returns, and `ctx.Err()` then. -/
def dialContextCheckACL (errText : NetError → GoString)
    (upstream : Option ℕ × Option NetError × Option NetError) (h : Handler)
    (network hostPort : GoString) (now : ℕ) (es : List Event) :
    Option (Option ℕ × Option ServeError) :=
  match enter errText h network hostPort with
  | .refused err => some (none, some err)
  | .upstream => some (leaveUpstream upstream.1 upstream.2.1 upstream.2.2)
  | .race c =>
    match runFrom (step c) (init now) es with
    | none => none
    | some s =>
      match s.sched with
      | .returned conn err => some (leave errText hostPort c conn err)
      | _ => none

/-! ## What the status should be -/

/-- The addresses of a lookup that succeeded. -/
def Resolver.addrs (r : Resolver) : Option (List (Option IP)) :=
  match r.answer with
  | some (.ok addrs) => some addrs
  | _ => none

/-- The error of a lookup that failed. -/
def Resolver.err (r : Resolver) : Option NetError :=
  match r.answer with
  | some (.error e) => some e
  | _ => none

/-- The answers of the lookups that succeeded. -/
def State.succeeded (s : State) : List (List (Option IP)) :=
  [false, true].filterMap fun isV6 => (s.resolver isV6).addrs

/-- A lookup succeeded, and no address that was returned passed the access rules. -/
def State.allDenied (c : Config) (s : State) : Bool :=
  !s.succeeded.isEmpty && s.succeeded.all fun addrs => addrs.all fun a => !passes c a

/-- The race ended by itself, and not by its context. -/
def Event.endsItself : Event → Bool
  | .advance => true
  | _ => false

/-- The error that decides: that of the context if the race was ended by it, else the failure that
was received last if anything was dialled, else that of the lookups if both failed. -/
def deciding (c : Config) (now : ℕ) (es : List Event) (s : State) (e : Event) : Option RaceError :=
  if !e.endsItself then s.ctxErr.map .net
  else if s.attempts ≠ [] then lastFailure c (init now) es
  else if (s.resolver true).err ≠ none then (s.resolver false).err.map .net
  else none

/-- The status of a race that has failed. -/
def raceStatus (c : Config) (now : ℕ) (es : List Event) : Option ℕ :=
  (endOf c (init now) es).map fun (s, e) =>
    if e.endsItself && s.attempts.isEmpty && s.allDenied c then 403
    else if (deciding c now es s e).any RaceError.isTimeout then 504
    else 502

/-- The status of a call that is refused before it dials, or the race that it runs. -/
def admission (h : Handler) (network hostPort : GoString) : Except ℕ Config :=
  match Network.ofString network, splitHostPort hostPort with
  | some net, .ok (host, port) =>
    if !portIsAllowed h port || (domainPolicy h.aclRules host).isSome then .error 403
    else .ok { handler := h, network := net, host := host, port := port }
  | _, _ => .error 400

/-- The status of a call that has failed, without an upstream. -/
def expectedStatus (h : Handler) (network hostPort : GoString) (now : ℕ) (es : List Event) :
    Option ℕ :=
  match admission h network hostPort with
  | .error status => some status
  | .ok c => raceStatus c now es

/-- The call is admitted, and its race has returned a connection and an error. -/
def RaceReturns (h : Handler) (network hostPort : GoString) (now : ℕ) (es : List Event)
    (conn : Option ℕ) (err : Option RaceError) : Prop :=
  ∃ c s, admission h network hostPort = .ok c ∧ runFrom (step c) (init now) es = some s ∧
    s.sched = .returned conn err

/-! ## The status of a race -/

theorem status_tcpDialError (err : RaceError) :
    ∃ text, tcpDialError err = handlerError (if err.isTimeout then 504 else 502) text := by
  rw [tcpDialError]
  split_ifs
  · exact ⟨_, rfl⟩
  · exact ⟨_, rfl⟩

section Race

variable {errText : NetError → GoString} {hostPort : GoString} {c : Config} {now : ℕ}
  {es : List Event} {s : State}

/-- An error that is not a policy failure. -/
theorem leave_of_not_policy {err : RaceError} (h : err.isPolicy = false) :
    leave errText hostPort c none (some err) = (none, some (tcpDialError err)) := by
  cases err with
  | policy failure => exact absurd h (by simp [RaceError.isPolicy])
  | net e => rfl
  | dialFailed => rfl

theorem Resolver.addrs_eq_some_iff {r : Resolver} {addrs : List (Option IP)} :
    r.addrs = some addrs ↔ r.answer = some (.ok addrs) := by
  obtain ⟨pc, _ | _ | _⟩ := r <;> simp [Resolver.addrs]

theorem Resolver.err_eq_some_iff {r : Resolver} {e : NetError} :
    r.err = some e ↔ r.answer = some (.error e) := by
  obtain ⟨pc, _ | _ | _⟩ := r <;> simp [Resolver.err]

/-- The feed notes the errors of the lookups. -/
theorem err_eq (h : Reaches c s) (hclosed : s.feed.closed = true) (isV6 : Bool) :
    s.feed.err isV6 = (s.resolver isV6).err := by
  refine Option.ext fun e => ?_
  rw [err_eq_some_iff h hclosed, Resolver.err_eq_some_iff]

theorem mem_succeeded {addrs : List (Option IP)} :
    addrs ∈ s.succeeded ↔ ∃ isV6, (s.resolver isV6).answer = some (.ok addrs) := by
  rw [State.succeeded, List.mem_filterMap]
  simp only [Resolver.addrs_eq_some_iff]
  exact ⟨fun ⟨isV6, _, h⟩ => ⟨isV6, h⟩, fun ⟨isV6, h⟩ => ⟨isV6, by cases isV6 <;> simp, h⟩⟩

/-- Nothing succeeded exactly when both lookups failed. -/
theorem succeeded_eq_nil_iff (h : Reaches c s) (hclosed : s.feed.closed = true) :
    s.succeeded = [] ↔ ∀ isV6, (s.resolver isV6).err ≠ none := by
  have hanswer : ∀ isV6, ∃ answer, (s.resolver isV6).answer = some answer := by
    intro isV6
    refine exists_answer h isV6 ?_
    rw [done_of_closed h hclosed isV6]
    exact ResolverPc.noConfusion
  rw [List.eq_nil_iff_forall_not_mem]
  simp only [mem_succeeded, not_exists]
  constructor
  · intro hno isV6
    obtain ⟨answer, ha⟩ := hanswer isV6
    cases answer with
    | ok addrs => exact absurd ha (hno addrs isV6)
    | error e =>
      rw [Resolver.err_eq_some_iff.mpr ha]
      exact nofun
  · intro herr addrs isV6 hok
    refine herr isV6 ?_
    simp [Resolver.err, hok]

/-- The counter says whether an address passed. -/
theorem allDenied_eq (h : Reaches c s) (hclosed : s.feed.closed = true) (hne : s.succeeded ≠ []) :
    s.allDenied c = decide (s.feed.passedACL = 0) := by
  have hpassed : ∀ isV6, (s.resolver isV6).passed c = 0 ↔
      ∀ addrs, (s.resolver isV6).answer = some (.ok addrs) → ∀ a ∈ addrs, passes c a = false := by
    intro isV6
    have hin : (s.resolver isV6).isIn = true := by rw [Resolver.isIn, done_of_closed h hclosed isV6]
    rw [Resolver.passed]
    split
    · rename_i addrs hok
      rw [if_pos hin, List.countP_eq_zero]
      simp [hok]
    · rename_i hno
      exact ⟨fun _ addrs hok => absurd hok (hno addrs), fun _ => rfl⟩
  rw [Bool.eq_iff_iff, decide_eq_true_iff, (tallied h).passed, Nat.add_eq_zero_iff,
    hpassed, hpassed]
  simp only [State.allDenied, Bool.and_eq_true, Bool.not_eq_true', List.isEmpty_eq_false_iff,
    List.all_eq_true, mem_succeeded]
  constructor
  · rintro ⟨-, hall⟩
    exact ⟨fun addrs hok => hall addrs ⟨true, hok⟩, fun addrs hok => hall addrs ⟨false, hok⟩⟩
  · rintro ⟨h6, h4⟩
    refine ⟨hne, ?_⟩
    rintro addrs ⟨isV6, hok⟩
    cases isV6 with
    | false => exact h4 addrs hok
    | true => exact h6 addrs hok

/-- Nothing was dialled and both lookups failed: the error of the IPv4 lookup is the cause. -/
theorem finalError_of_failed (h : Reaches c s) (hclosed : s.feed.closed = true)
    (hnil : s.attempts = []) {e4 e6 : NetError} (he4 : (s.resolver false).err = some e4)
    (he6 : (s.resolver true).err = some e6) :
    s.feed.finalError s.started s.lastErr = .policy (.lookupFailed e4) := by
  have h4 : s.feed.errV4 = some e4 := (err_eq h hclosed false).trans he4
  have h6 : s.feed.errV6 = some e6 := (err_eq h hclosed true).trans he6
  rw [started_eq_length h, hnil, List.length_nil, Feed.finalError, if_neg (lt_irrefl 0), h4, h6]

/-- Nothing was dialled and a lookup succeeded: the counter decides. -/
theorem finalError_of_succeeded (h : Reaches c s) (hclosed : s.feed.closed = true)
    (hnil : s.attempts = [])
    (hnone : (s.resolver false).err = none ∨ (s.resolver true).err = none) :
    s.feed.finalError s.started s.lastErr =
      if s.feed.passedACL = 0 then .policy .noAllowedAddress else .dialFailed := by
  have h4 : s.feed.errV4 = (s.resolver false).err := err_eq h hclosed false
  have h6 : s.feed.errV6 = (s.resolver true).err := err_eq h hclosed true
  rw [started_eq_length h, hnil, List.length_nil, Feed.finalError, if_neg (lt_irrefl 0), h4, h6]
  rcases hnone with hnone | hnone
  · rw [hnone]
  · rw [hnone]
    cases (s.resolver false).err <;> rfl

/-- A race that ended by itself, without a dial. -/
theorem leave_finalError_of_nil (now : ℕ) (es : List Event) (h : Reaches c s)
    (hclosed : s.feed.closed = true) (hnil : s.attempts = []) :
    ∃ text, leave errText hostPort c none (some (s.feed.finalError s.started s.lastErr)) =
      (none, some (handlerError
        (if s.allDenied c then 403
          else if (deciding c now es s .advance).any RaceError.isTimeout then 504 else 502)
        text)) := by
  by_cases hfailed : s.succeeded = []
  · have herr := (succeeded_eq_nil_iff h hclosed).mp hfailed
    obtain ⟨e4, he4⟩ := Option.ne_none_iff_exists'.mp (herr false)
    obtain ⟨e6, he6⟩ := Option.ne_none_iff_exists'.mp (herr true)
    have hdenied : s.allDenied c = false := by rw [State.allDenied, hfailed]; rfl
    have hdeciding : deciding c now es s .advance = some (.net e4) := by
      simp [deciding, Event.endsItself, hnil, he4, he6]
    obtain ⟨text, htext⟩ := status_tcpDialError (.net e4)
    refine ⟨text, ?_⟩
    rw [finalError_of_failed h hclosed hnil he4 he6, hdeciding, hdenied, if_neg (by decide),
      Option.any_some, ← htext]
    rfl
  · have hnone : (s.resolver false).err = none ∨ (s.resolver true).err = none := by
      by_contra hboth
      rw [not_or] at hboth
      refine hfailed ((succeeded_eq_nil_iff h hclosed).mpr fun isV6 => ?_)
      cases isV6 with
      | false => exact hboth.1
      | true => exact hboth.2
    have hdeciding : deciding c now es s .advance = none := by
      rcases hnone with hnone | hnone <;> simp [deciding, Event.endsItself, hnil, hnone]
    rw [finalError_of_succeeded h hclosed hnil hnone, hdeciding, allDenied_eq h hclosed hfailed]
    by_cases hpassed : s.feed.passedACL = 0
    · rw [if_pos hpassed, decide_eq_true hpassed, if_pos rfl]
      exact ⟨_, rfl⟩
    · rw [if_neg hpassed, decide_eq_false hpassed, if_neg (by decide)]
      exact ⟨_, rfl⟩

/-- A race that ended by itself. -/
theorem leave_finalError (h : Reaches c s) (hclosed : s.feed.closed = true)
    (hlast : s.lastErr = lastFailure c (init now) es) :
    ∃ text, leave errText hostPort c none (some (s.feed.finalError s.started s.lastErr)) =
      (none, some (handlerError
        (if s.attempts.isEmpty && s.allDenied c then 403
          else if (deciding c now es s .advance).any RaceError.isTimeout then 504 else 502)
        text)) := by
  by_cases hnil : s.attempts = []
  · rw [List.isEmpty_iff.mpr hnil, Bool.true_and]
    exact leave_finalError_of_nil now es h hclosed hnil
  · have hpos : 0 < s.started := by
      rw [started_eq_length h]
      exact List.length_pos_iff.mpr hnil
    have hempty : s.attempts.isEmpty = false := List.isEmpty_eq_false_iff.mpr hnil
    have hdeciding : deciding c now es s .advance = s.lastErr := by
      simp [deciding, Event.endsItself, hnil, hlast]
    have hpolicy : (s.lastErr.getD .dialFailed).isPolicy = false := by
      cases herr : s.lastErr with
      | none => rfl
      | some err => exact isPolicy_of_lastErr h err herr
    have hany : s.lastErr.any RaceError.isTimeout = (s.lastErr.getD .dialFailed).isTimeout := by
      cases s.lastErr <;> rfl
    obtain ⟨text, htext⟩ := status_tcpDialError (s.lastErr.getD .dialFailed)
    refine ⟨text, ?_⟩
    rw [Feed.finalError, if_pos hpos, leave_of_not_policy hpolicy, hempty, Bool.false_and,
      if_neg (by decide), hdeciding, hany, ← htext]

/-- The result of a race that has returned. -/
theorem leave_returned {conn : Option ℕ} {err : Option RaceError}
    (hrun : runFrom (step c) (init now) es = some s) (hret : s.sched = .returned conn err) :
    (∃ k, conn = some k ∧ err = none) ∨
      ∃ e status text, conn = none ∧ err = some e ∧ raceStatus c now es = some status ∧
        leave errText hostPort c none (some e) = (none, some (handlerError status text)) := by
  obtain ⟨es₁, u, e, u', es₂, -, hend, hrun₁, hnot, hstep, hret', hrun₂⟩ :=
    exists_endOf (fun _ _ h => by simp [init] at h) hrun hret
  have hreach : Reaches c u := ⟨now, es₁, hrun₁⟩
  have hlast : u'.lastErr = lastFailure c (init now) es := by
    rw [← lastErr_eq_lastFailure hrun, lastErr_eq_of_returned hret' hrun₂]
  have hstatus : raceStatus c now es = some (if e.endsItself && u.attempts.isEmpty && u.allDenied c
      then 403 else if (deciding c now es u e).any RaceError.isTimeout then 504 else 502) := by
    rw [raceStatus, hend]
    rfl
  have hm := move_of_step hstep
  rcases return_cases hnot hm hret' with ⟨rfl, rfl, rfl, hclosed, -⟩ | ⟨he, rfl, x, hx, rfl⟩ |
    ⟨k, -, rfl, rfl⟩
  · have hsame : u'.lastErr = u.lastErr := by
      rw [lastErr_of_move hreach hm]
      rfl
    obtain ⟨text, htext⟩ := leave_finalError hreach hclosed (hsame ▸ hlast)
    exact Or.inr ⟨_, _, text, rfl, rfl, hstatus, htext⟩
  · have hitself : e.endsItself = false := by
      cases e with
      | advance => exact absurd rfl he
      | _ => rfl
    obtain ⟨text, htext⟩ := status_tcpDialError (.net x)
    refine Or.inr ⟨_, _, text, rfl, rfl, hstatus, ?_⟩
    have hdeciding : deciding c now es u e = some (.net x) := by simp [deciding, hitself, hx]
    rw [hitself, Bool.false_and, Bool.false_and, if_neg (by decide), hdeciding, Option.any_some,
      ← htext]
    rfl
  · exact Or.inl ⟨k, rfl, rfl⟩

theorem raceStatus_ne (c : Config) (now : ℕ) (es : List Event) :
    raceStatus c now es ≠ some 400 := by
  intro h
  rw [raceStatus, Option.map_eq_some_iff] at h
  obtain ⟨⟨s, e⟩, -, h⟩ := h
  dsimp only at h
  split_ifs at h <;> contradiction

end Race

/-! ## The status of a call -/

section Call

variable {errText : NetError → GoString} {upstream : Option ℕ × Option NetError × Option NetError}
  {h : Handler} {network hostPort : GoString} {now : ℕ} {es : List Event}

theorem enter_of_error {status : ℕ} (hup : h.upstream = none)
    (hadm : admission h network hostPort = .error status) :
    ∃ text, enter errText h network hostPort = .refused (handlerError status text) := by
  rw [admission] at hadm
  rw [enter]
  cases hnet : Network.ofString network with
  | none =>
    rw [hnet] at hadm
    obtain rfl : 400 = status := Except.error.inj hadm
    exact ⟨_, rfl⟩
  | some net =>
    rw [hnet] at hadm
    simp only [hup, ne_eq, not_true_eq_false, if_false]
    cases hsplit : splitHostPort hostPort with
    | error err =>
      rw [hsplit] at hadm
      obtain rfl : 400 = status := Except.error.inj hadm
      rw [prepareTargetPolicy, hsplit]
      exact ⟨_, rfl⟩
    | ok pair =>
      obtain ⟨host, port⟩ := pair
      rw [hsplit] at hadm
      dsimp only at hadm
      cases hport : portIsAllowed h port with
      | false =>
        obtain rfl : 403 = status := by simpa [hport] using hadm
        rw [prepareTargetPolicy, hsplit]
        simp only [hport, Bool.not_false, if_true]
        exact ⟨_, rfl⟩
      | true =>
        rw [prepareTargetPolicy_eq hsplit hport]
        rcases domainPolicy_eq_none_or h.aclRules host with hnone | hdenied
        · simp [hport, hnone] at hadm
        · obtain rfl : 403 = status := by simpa [hport, hdenied] using hadm
          rw [hdenied]
          exact ⟨_, rfl⟩

theorem enter_of_ok {c : Config} (hup : h.upstream = none)
    (hadm : admission h network hostPort = .ok c) : enter errText h network hostPort = .race c := by
  rw [admission] at hadm
  cases hnet : Network.ofString network with
  | none => simp [hnet] at hadm
  | some net =>
    cases hsplit : splitHostPort hostPort with
    | error err => simp [hnet, hsplit] at hadm
    | ok pair =>
      obtain ⟨host, port⟩ := pair
      rw [hnet, hsplit] at hadm
      dsimp only at hadm
      split_ifs at hadm with hdenied
      obtain ⟨hport, hnone⟩ : portIsAllowed h port = true ∧
          domainPolicy h.aclRules host = none := by
        simpa using hdenied
      obtain rfl := Except.ok.inj hadm
      simp [enter, hnet, hup, prepareTargetPolicy_eq hsplit hport, hnone]

/-- A call is refused with 400 for its network and its target alone. -/
theorem admission_eq_400_iff : admission h network hostPort = .error 400 ↔
    Network.ofString network = none ∨ ∃ err, splitHostPort hostPort = .error err := by
  rw [admission]
  cases Network.ofString network with
  | none => simp
  | some net =>
    cases splitHostPort hostPort with
    | error err => simp
    | ok pair =>
      dsimp only
      split_ifs <;> simp

theorem expectedStatus_eq_400_iff : expectedStatus h network hostPort now es = some 400 ↔
    admission h network hostPort = .error 400 := by
  rw [expectedStatus]
  cases hadm : admission h network hostPort with
  | error status => simp
  | ok c => simp [raceStatus_ne]

theorem dialContextCheckACL_of_error {status : ℕ} (hup : h.upstream = none)
    (hadm : admission h network hostPort = .error status) :
    ∃ text, dialContextCheckACL errText upstream h network hostPort now es =
      some (none, some (handlerError status text)) := by
  obtain ⟨text, henter⟩ :
      ∃ text, enter errText h network hostPort = .refused (handlerError status text) :=
    enter_of_error hup hadm
  exact ⟨text, by rw [dialContextCheckACL, henter]⟩

theorem dialContextCheckACL_of_ok {c : Config} {res : Option ℕ × Option ServeError}
    (hup : h.upstream = none) (hadm : admission h network hostPort = .ok c) :
    dialContextCheckACL errText upstream h network hostPort now es = some res ↔
      ∃ s conn err, runFrom (step c) (init now) es = some s ∧ s.sched = .returned conn err ∧
        leave errText hostPort c conn err = res := by
  rw [dialContextCheckACL, enter_of_ok hup hadm]
  dsimp only
  cases hrun : runFrom (step c) (init now) es with
  | none => simp
  | some s => cases hsched : s.sched <;> simp [hsched]

/-- A call that returns has the connection of its race, or an error with the status that is
expected: it was refused, or the race returned an error. -/
theorem dialContextCheckACL_result {res : Option ℕ × Option ServeError} (hup : h.upstream = none)
    (hres : dialContextCheckACL errText upstream h network hostPort now es = some res) :
    (∃ conn, RaceReturns h network hostPort now es (some conn) none ∧ res = (some conn, none)) ∨
      ∃ status text, (admission h network hostPort = .error status ∨
          ∃ err, RaceReturns h network hostPort now es none (some err)) ∧
        expectedStatus h network hostPort now es = some status ∧
        res = (none, some (handlerError status text)) := by
  rw [expectedStatus]
  cases hadm : admission h network hostPort with
  | error status =>
    obtain ⟨text, htext⟩ := dialContextCheckACL_of_error hup hadm
    exact Or.inr ⟨status, text, Or.inl rfl, rfl, Option.some_inj.mp (hres.symm.trans htext)⟩
  | ok c =>
    obtain ⟨s, conn, err, hrun, hret, rfl⟩ := (dialContextCheckACL_of_ok hup hadm).mp hres
    rcases leave_returned hrun hret with ⟨k, rfl, rfl⟩ | ⟨e, status, text, rfl, rfl, hst, hleave⟩
    · exact Or.inl ⟨k, ⟨c, s, hadm, hrun, hret⟩, rfl⟩
    · exact Or.inr ⟨status, text, Or.inr ⟨e, c, s, hadm, hrun, hret⟩, hst, hleave⟩

/-- A call that runs a race can return, whatever has happened so far. -/
theorem exists_dialContextCheckACL {c : Config} {s : State} (hup : h.upstream = none)
    (hadm : admission h network hostPort = .ok c) (hrun : runFrom (step c) (init now) es = some s) :
    ∃ es' res, dialContextCheckACL errText upstream h network hostPort now (es ++ es') =
      some res := by
  obtain ⟨es', s', hrun', conn, err, hret⟩ := exists_returned c s
  refine ⟨es', _, (dialContextCheckACL_of_ok hup hadm).mpr ⟨s', conn, err, ?_, hret, rfl⟩⟩
  rw [runFrom_append, hrun, Option.bind_some, hrun']

end Call

/-- `dialContextCheckACL` without an upstream.  A call that returns has the connection that its race
returned, or it was refused or its race returned an error, and then its error has the status that is
expected; the status is 400 exactly if the network is not one of TCP or the target does not split.
A call that is refused returns at once, and any other one can return whatever has happened so
far. -/
theorem dialContextCheckACL_status {h : Handler} (hup : h.upstream = none)
    (errText : NetError → GoString) (upstream : Option ℕ × Option NetError × Option NetError)
    (network hostPort : GoString) (now : ℕ) (es : List Event) :
    (∀ res, dialContextCheckACL errText upstream h network hostPort now es = some res →
      (∃ conn, RaceReturns h network hostPort now es (some conn) none ∧ res = (some conn, none)) ∨
        ∃ status text, (admission h network hostPort = .error status ∨
            ∃ err, RaceReturns h network hostPort now es none (some err)) ∧
          expectedStatus h network hostPort now es = some status ∧
          res = (none, some (handlerError status text))) ∧
    (∀ res, dialContextCheckACL errText upstream h network hostPort now es = some res →
      ((∃ text, res = (none, some (handlerError 400 text))) ↔
        Network.ofString network = none ∨ ∃ err, splitHostPort hostPort = .error err)) ∧
    (∀ status, admission h network hostPort = .error status →
      ∃ res, dialContextCheckACL errText upstream h network hostPort now es = some res) ∧
    ∀ c s, admission h network hostPort = .ok c → runFrom (step c) (init now) es = some s →
      ∃ es' res, dialContextCheckACL errText upstream h network hostPort now (es ++ es') =
        some res := by
  refine ⟨fun res => dialContextCheckACL_result hup, fun res hres => ?_, fun status hadm => ?_,
    fun c s => exists_dialContextCheckACL hup⟩
  · rw [← admission_eq_400_iff, ← @expectedStatus_eq_400_iff h network hostPort now es]
    rcases dialContextCheckACL_result hup hres with
      ⟨conn, ⟨c, s, hadm, -⟩, rfl⟩ | ⟨status, text, -, hst, rfl⟩
    · rw [expectedStatus_eq_400_iff, hadm]
      simp
    · rw [hst]
      simp [handlerError]
  · obtain ⟨text, htext⟩ := dialContextCheckACL_of_error hup hadm
    exact ⟨_, htext⟩

/-- Both lookups fail, the feed is closed, and the scheduler looks at it. -/
def lookupsFail (e f : NetError) : List Event :=
  [.lookupDone false (.error e), .resolve false, .pulse false, .lookupDone true (.error f),
    .resolve true, .pulse true, .closeFeed, .computeDue, .advance]

theorem dialContextCheckACL_status_lookupsFail :
    dialContextCheckACL (fun _ => []) (none, none, none) twoFamilies.handler (ascii "tcp")
      (ascii "target.example:443") 0 (lookupsFail .deadlineExceeded .canceled) =
        some (none, some (handlerError 504 (ascii "target connection timed out"))) ∧
    expectedStatus twoFamilies.handler (ascii "tcp") (ascii "target.example:443") 0
      (lookupsFail .deadlineExceeded .canceled) = some 504 := by
  have hres : dialContextCheckACL (fun _ => []) (none, none, none) twoFamilies.handler (ascii "tcp")
      (ascii "target.example:443") 0 (lookupsFail .deadlineExceeded .canceled) =
        some (none, some (handlerError 504 (ascii "target connection timed out"))) := by decide
  refine ⟨hres, ?_⟩
  rcases (dialContextCheckACL_status rfl (fun _ => []) (none, none, none) (ascii "tcp")
    (ascii "target.example:443") 0 (lookupsFail .deadlineExceeded .canceled)).1 _ hres with
    ⟨conn, -, heq⟩ | ⟨status, text, -, hstatus, heq⟩
  · simp at heq
  · obtain ⟨rfl, -⟩ : 504 = status ∧ ascii "target connection timed out" = text := by
      simpa [handlerError] using heq
    exact hstatus

/-! ## The operation of `ServeHTTP` -/

theorem leave_exclusive (errText : NetError → GoString) (hostPort : GoString) (c : Config)
    (conn : Option ℕ) (err : Option RaceError) :
    (leave errText hostPort c conn err).1 = none ∨
    (leave errText hostPort c conn err).2 = none := by
  cases err with
  | none => exact Or.inr rfl
  | some err =>
    cases err with
    | net e => exact Or.inl rfl
    | dialFailed => exact Or.inl rfl
    | policy failure => cases failure <;> exact Or.inl rfl

theorem leaveUpstream_exclusive (conn : Option ℕ) (err ctxErr : Option NetError) :
    (leaveUpstream conn err ctxErr).1 = none ∨ (leaveUpstream conn err ctxErr).2 = none := by
  rw [leaveUpstream]
  split_ifs
  · exact Or.inl rfl
  · exact Or.inr rfl

/-- With or without an upstream, there is no connection beside an error: the operation of
`ServeHTTP` abandons nothing. -/
theorem not_abandoned_of_dialContextCheckACL {errText : NetError → GoString}
    {upstream : Option ℕ × Option NetError × Option NetError} {h : Handler}
    {network hostPort : GoString} {now : ℕ} {es : List Event} {res : Option ℕ × Option ServeError}
    (hres : dialContextCheckACL errText upstream h network hostPort now es = some res)
    (ctxHeader : Option Header) :
    ¬ Abandoned ⟨.dialContextCheckACL network hostPort ctxHeader, res⟩ := by
  have hexclusive : res.1 = none ∨ res.2 = none := by
    rw [dialContextCheckACL] at hres
    cases henter : enter errText h network hostPort with
    | refused err =>
      rw [henter] at hres
      rw [← Option.some_inj.mp hres]
      exact Or.inl rfl
    | upstream =>
      rw [henter] at hres
      rw [← Option.some_inj.mp hres]
      exact leaveUpstream_exclusive ..
    | race c =>
      rw [henter] at hres
      dsimp only at hres
      split at hres
      · exact absurd hres nofun
      · split at hres
        · rw [← Option.some_inj.mp hres]
          exact leave_exclusive ..
        · exact absurd hres nofun
  rintro ⟨hconn, herr⟩
  exact hexclusive.elim hconn herr

end Dial
end ForwardProxy
