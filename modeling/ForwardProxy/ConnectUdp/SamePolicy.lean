import ForwardProxy.ConnectUdp.Resolve
import ForwardProxy.Dial.Admitted

/-!
# TCP and UDP apply the same target policy

The policy is written twice.  `resolveTargetCheckACL` filters one list with all the addresses of the
target; `dialTCPIncremental` filters the answers of two lookups, as they come in, with a family
check and a counter of its own.  Here the list is any merge of the two answers, and no lookup fails.

* Both let through the same addresses, each of them once: the UDP loop returns the addresses of the
  allowed entries (`mem_foldl_resolveEntry`), and these are the candidates of the two answers
  (`Merge.mem_candidates`).
* Both fail in the same way.  What fails before the lookup is `prepareTargetPolicy` in either case;
  after it, the race says `targetPolicyNoAllowedAddress` when its counter is zero, that is when no
  entry is allowed (`Merge.finalError`).
-/

namespace ForwardProxy
namespace ConnectUdp

open ForwardProxy.Core Acl Dial

/-! ## The loop of the UDP path -/

/-- The address that an allowed entry is written out as. -/
def entryAddress (h : Handler) (host port : GoString) : Option IP → Option GoString
  | none => none
  | some ip => if hostIsAllowed h host ip then some (joinHostPort ip.string port) else none

theorem resolveEntry_eq (h : Handler) (host port : GoString) (seen out : List GoString)
    (entry : Option IP) :
    resolveEntry h host port (seen, out) entry =
      match entryAddress h host port entry with
      | none => (seen, out)
      | some addr => if addr ∈ seen then (seen, out) else (addr :: seen, out ++ [addr]) := by
  cases entry with
  | none => rfl
  | some ip =>
    simp only [resolveEntry, entryAddress]
    cases hostIsAllowed h host ip with
    | false => rfl
    | true => simp [List.any_eq_true]

/-- The loop returns the addresses of the allowed entries, without later duplicates. -/
theorem foldl_resolveEntry (h : Handler) (host port : GoString) (entries : List (Option IP))
    (seen out : List GoString) :
    (entries.foldl (resolveEntry h host port) (seen, out)).2 =
      out ++ ((entries.filterMap (entryAddress h host port)).filter (· ∉ seen)).eraseDups := by
  induction entries generalizing seen out with
  | nil => simp
  | cons entry entries ih =>
    rw [List.foldl_cons, resolveEntry_eq]
    cases haddr : entryAddress h host port entry with
    | none => rw [List.filterMap_cons_none haddr, ih]
    | some addr =>
      rw [List.filterMap_cons_some haddr]
      dsimp only
      split_ifs with hseen
      · rw [ih, List.filter_cons_of_neg (by simpa using hseen)]
      · rw [ih, List.filter_cons_of_pos (by simpa using hseen), List.eraseDups_cons,
          List.append_assoc, List.singleton_append, List.filter_filter]
        congr 4
        funext b
        rw [Bool.eq_iff_iff]
        simp

theorem mem_foldl_resolveEntry {h : Handler} {host port : GoString} {entries : List (Option IP)}
    {addr : GoString} :
    addr ∈ (entries.foldl (resolveEntry h host port) ([], [])).2 ↔
      ∃ ip, some ip ∈ entries ∧ hostIsAllowed h host ip = true ∧
      addr = joinHostPort ip.string port := by
  rw [foldl_resolveEntry, List.nil_append, List.mem_eraseDups, List.mem_filter, List.mem_filterMap]
  constructor
  · rintro ⟨⟨entry, hmem, haddr⟩, -⟩
    cases entry with
    | none => exact absurd haddr (by simp [entryAddress])
    | some ip =>
      rw [entryAddress] at haddr
      split_ifs at haddr with hallow
      exact ⟨ip, hmem, hallow, (Option.some_inj.mp haddr).symm⟩
  · rintro ⟨ip, hmem, hallow, rfl⟩
    exact ⟨⟨some ip, hmem, by rw [entryAddress, if_pos hallow]⟩, by simp⟩

theorem nodup_foldl_resolveEntry (h : Handler) (host port : GoString) (entries : List (Option IP)) :
    (entries.foldl (resolveEntry h host port) ([], [])).2.Nodup := by
  rw [foldl_resolveEntry, List.nil_append]
  exact nodup_eraseDups _

/-! ## The two answers and their merge -/

/-- `merged` has the entries of both answers, in any order, and each answer has addresses of its
family only. -/
structure Merge (ip4 ip6 merged : List (Option IP)) : Prop where
  perm : merged.Perm (ip4 ++ ip6)
  v4 : ∀ ip, some ip ∈ ip4 → ip.to4.isSome = true
  v6 : ∀ ip, some ip ∈ ip6 → ip.to4.isSome = false

/-- What the lookup of a family answers. -/
def familyAnswer (ip4 ip6 : List (Option IP)) (isV6 : Bool) : List (Option IP) :=
  if isV6 then ip6 else ip4

/-- The call `dialTCPIncremental(ctx, "tcp", host, port)`. -/
def tcpConfig (h : Handler) (host port : GoString) : Config :=
  { handler := h, network := .tcp, host, port }

/-- The lookups that answer in this run answer with these. -/
def LookupsAnswer (ip4 ip6 : List (Option IP)) (es : List Event) : Prop :=
  ∀ isV6 answer, Event.lookupDone isV6 answer ∈ es → answer = .ok (familyAnswer ip4 ip6 isV6)

/-- The lookups that have answered have answered with these. -/
def Answered (ip4 ip6 : List (Option IP)) (s : State) : Prop :=
  ∀ isV6 answer, (s.resolver isV6).answer = some answer → answer = .ok (familyAnswer ip4 ip6 isV6)

section Merge

variable {ip4 ip6 merged : List (Option IP)} {h : Handler} {host port : GoString}

theorem Merge.mem_iff (hmerge : Merge ip4 ip6 merged) {entry : Option IP} :
    entry ∈ merged ↔ ∃ isV6, entry ∈ familyAnswer ip4 ip6 isV6 := by
  rw [hmerge.perm.mem_iff, List.mem_append]
  constructor
  · rintro (h | h)
    · exact ⟨false, h⟩
    · exact ⟨true, h⟩
  · rintro ⟨_ | _, h⟩
    · exact .inl h
    · exact .inr h

theorem Merge.family (hmerge : Merge ip4 ip6 merged) {isV6 : Bool} {ip : IP}
    (hip : some ip ∈ familyAnswer ip4 ip6 isV6) : ip.to4.isSome = !isV6 := by
  cases isV6 with
  | false => exact hmerge.v4 ip hip
  | true => exact hmerge.v6 ip hip

/-- For the network `tcp` the candidates of an answer are the addresses of its allowed entries. -/
theorem Merge.mem_candidates (hmerge : Merge ip4 ip6 merged) {isV6 : Bool} {addr : GoString} :
    addr ∈ candidates (tcpConfig h host port) isV6 (.ok (familyAnswer ip4 ip6 isV6)) ↔
      ∃ ip, some ip ∈ familyAnswer ip4 ip6 isV6 ∧ hostIsAllowed h host ip = true ∧
        addr = joinHostPort ip.string port := by
  constructor
  · intro hmem
    obtain ⟨addrs, ip, heq, hip, hallow, -, -, haddr⟩ := Dial.mem_candidates hmem
    rw [Except.ok.injEq] at heq
    exact ⟨ip, heq ▸ hip, hallow, haddr⟩
  · rintro ⟨ip, hip, hallow, rfl⟩
    rw [candidates, List.mem_eraseDups, List.mem_filterMap]
    refine ⟨some ip, hip, ?_⟩
    have hallow' :
        hostIsAllowed (tcpConfig h host port).handler (tcpConfig h host port).host ip = true :=
      hallow
    rw [candidateOf, hallow', hmerge.family hip]
    cases isV6 <;> rfl

/-- The UDP loop returns the candidates of both answers. -/
theorem Merge.mem_addresses (hmerge : Merge ip4 ip6 merged) {addr : GoString} :
    addr ∈ (merged.foldl (resolveEntry h host port) ([], [])).2 ↔
      ∃ isV6, addr ∈ candidates (tcpConfig h host port) isV6 (.ok (familyAnswer ip4 ip6 isV6)) := by
  rw [mem_foldl_resolveEntry]
  constructor
  · rintro ⟨ip, hip, hallow, haddr⟩
    obtain ⟨isV6, hin⟩ := hmerge.mem_iff.mp hip
    exact ⟨isV6, hmerge.mem_candidates.mpr ⟨ip, hin, hallow, haddr⟩⟩
  · rintro ⟨isV6, hcand⟩
    obtain ⟨ip, hin, hallow, haddr⟩ := hmerge.mem_candidates.mp hcand
    exact ⟨ip, hmerge.mem_iff.mpr ⟨isV6, hin⟩, hallow, haddr⟩

/-- The UDP path fails after the lookup if no entry is allowed. -/
theorem checkAnswer_eq_error_iff {failure : PolicyFailure} :
    checkAnswer h host port (.ok merged) = .error failure ↔
      failure = .noAllowedAddress ∧ ∀ ip, some ip ∈ merged → hostIsAllowed h host ip = false := by
  have hnil : (merged.foldl (resolveEntry h host port) ([], [])).2 = [] ↔
      ∀ ip, some ip ∈ merged → hostIsAllowed h host ip = false := by
    rw [List.eq_nil_iff_forall_not_mem]
    constructor
    · intro hnone ip hip
      rw [Bool.eq_false_iff]
      intro hallow
      exact hnone _ (mem_foldl_resolveEntry.mpr ⟨ip, hip, hallow, rfl⟩)
    · intro hdenied addr hmem
      obtain ⟨ip, hip, hallow, -⟩ := mem_foldl_resolveEntry.mp hmem
      exact absurd hallow (by simp [hdenied ip hip])
  rw [← hnil, checkAnswer]
  split_ifs with hempty
  · rw [Except.error.injEq]
    exact ⟨fun heq => ⟨heq.symm, hempty⟩, fun heq => heq.1.symm⟩
  · exact ⟨fun heq => absurd heq (by simp), fun heq => absurd heq.2 hempty⟩

/-! ## The race with these answers -/

theorem answered_of_run {c : Config} {now : ℕ} {es : List Event} {s : State}
    (hrun : runFrom (step c) (init now) es = some s) (hes : LookupsAnswer ip4 ip6 es) :
    Answered ip4 ip6 s :=
  fun isV6 answer hanswer => hes isV6 answer (lookupDone_mem hrun isV6 answer hanswer)

theorem Answered.admittedFrom {s : State} (hanswered : Answered ip4 ip6 s)
    (hreach : Reaches (tcpConfig h host port) s) {isV6 : Bool}
    (hin : (s.resolver isV6).isIn = true) :
    (s.resolver isV6).admittedFrom (tcpConfig h host port) isV6 =
      candidates (tcpConfig h host port) isV6 (.ok (familyAnswer ip4 ip6 isV6)) := by
  have hlooking : (s.resolver isV6).pc ≠ .looking := by
    intro hpc
    rw [Resolver.isIn, hpc] at hin
    exact absurd hin (by simp)
  obtain ⟨answer, hanswer⟩ := exists_answer hreach isV6 hlooking
  rw [← hanswered isV6 answer hanswer]
  generalize s.resolver isV6 = r at hin hanswer
  obtain ⟨pc, answer'⟩ := r
  cases hanswer
  cases pc with
  | admitted | done => rfl
  | _ => exact absurd hin (by simp [Resolver.isIn])

/-- What the race admits, the UDP path returns. -/
theorem Merge.mem_of_admitted (hmerge : Merge ip4 ip6 merged) {now : ℕ} {es : List Event}
    {s : State} (hrun : runFrom (step (tcpConfig h host port)) (init now) es = some s)
    (hanswered : Answered ip4 ip6 s) {addr : GoString}
    (haddr : addr ∈ admitted (tcpConfig h host port) (init now) es) :
    addr ∈ (merged.foldl (resolveEntry h host port) ([], [])).2 := by
  rw [(admitted_perm hrun).mem_iff, State.admittedFrom, List.mem_append] at haddr
  rw [hmerge.mem_addresses]
  rcases haddr with haddr | haddr
  · obtain ⟨answer, hanswer, hcand⟩ := Resolver.mem_admittedFrom haddr
    exact ⟨true, hanswered true answer hanswer ▸ hcand⟩
  · obtain ⟨answer, hanswer, hcand⟩ := Resolver.mem_admittedFrom haddr
    exact ⟨false, hanswered false answer hanswer ▸ hcand⟩

/-- What the UDP path returns, the race admits by the time both lookups are in. -/
theorem Merge.mem_admitted (hmerge : Merge ip4 ip6 merged) {now : ℕ} {es : List Event} {s : State}
    (hrun : runFrom (step (tcpConfig h host port)) (init now) es = some s)
    (hanswered : Answered ip4 ip6 s) (hin : ∀ isV6, (s.resolver isV6).isIn = true) {addr : GoString}
    (haddr : addr ∈ (merged.foldl (resolveEntry h host port) ([], [])).2) :
    addr ∈ admitted (tcpConfig h host port) (init now) es := by
  rw [(admitted_perm hrun).mem_iff, State.admittedFrom, List.mem_append]
  obtain ⟨isV6, hcand⟩ := hmerge.mem_addresses.mp haddr
  rw [← hanswered.admittedFrom ⟨now, es, hrun⟩ (hin isV6)] at hcand
  cases isV6 with
  | false => exact .inr hcand
  | true => exact .inl hcand

/-- The entries that pass are the allowed ones. -/
theorem passed_eq_zero_iff {c : Config} {entries : List (Option IP)} :
    entries.countP (passes c) = 0 ↔
      ∀ ip, some ip ∈ entries → hostIsAllowed c.handler c.host ip = false := by
  rw [List.countP_eq_zero]
  constructor
  · intro hnone ip hip
    exact Bool.eq_false_iff.mpr (hnone (some ip) hip)
  · intro hdenied entry hmem
    cases entry with
    | none => exact Bool.false_ne_true
    | some ip => exact Bool.eq_false_iff.mp (hdenied ip hmem)

/-- Once both lookups are in, and nothing was dialled, the race blames the policy if and only if no
entry is allowed. -/
theorem Merge.finalError (hmerge : Merge ip4 ip6 merged) {s : State}
    (hanswered : Answered ip4 ip6 s) (hreach : Reaches (tcpConfig h host port) s)
    (hin : ∀ isV6, (s.resolver isV6).isIn = true) (failure : PolicyFailure) :
    s.feed.finalError 0 none = .policy failure ↔
      checkAnswer h host port (.ok merged) = .error failure := by
  have htally := tallied hreach
  have herr : s.feed.errV4 = none := by
    rw [Option.eq_none_iff_forall_ne_some]
    intro e he
    have := hanswered false _ (htally.err false e he).2
    exact absurd this (by simp)
  have hpassed : ∀ isV6, (s.resolver isV6).passed (tcpConfig h host port) =
      (familyAnswer ip4 ip6 isV6).countP (passes (tcpConfig h host port)) := by
    intro isV6
    have hlooking : (s.resolver isV6).pc ≠ .looking := by
      intro hpc
      have := hin isV6
      rw [Resolver.isIn, hpc] at this
      exact absurd this (by simp)
    obtain ⟨answer, hanswer⟩ := exists_answer hreach isV6 hlooking
    rw [Resolver.passed, hanswer, hanswered isV6 answer hanswer]
    exact if_pos (hin isV6)
  have hzero : s.feed.passedACL = 0 ↔ ∀ ip, some ip ∈ merged → hostIsAllowed h host ip = false := by
    rw [htally.passed, hpassed, hpassed, Nat.add_eq_zero_iff, passed_eq_zero_iff,
      passed_eq_zero_iff]
    constructor
    · rintro ⟨h6, h4⟩ ip hip
      obtain ⟨_ | _, hfam⟩ := hmerge.mem_iff.mp hip
      · exact h4 ip hfam
      · exact h6 ip hfam
    · intro hdenied
      exact ⟨fun ip hip => hdenied ip (hmerge.mem_iff.mpr ⟨true, hip⟩),
        fun ip hip => hdenied ip (hmerge.mem_iff.mpr ⟨false, hip⟩)⟩
  rw [checkAnswer_eq_error_iff, ← hzero, Feed.finalError, if_neg (lt_irrefl 0), herr]
  dsimp only
  split_ifs with hacl
  · simp [hacl, eq_comm]
  · simp [hacl]

/-- A race that returns a policy failure. -/
theorem Merge.checkAnswer_of_policy (hmerge : Merge ip4 ip6 merged) {s s' : State} {e : Event}
    {conn : Option ℕ} {failure : PolicyFailure} (hanswered : Answered ip4 ip6 s)
    (hreach : Reaches (tcpConfig h host port) s) (hnot : ∀ conn err, s.sched ≠ .returned conn err)
    (hm : Move (tcpConfig h host port) s e s')
    (hret : s'.sched = .returned conn (some (.policy failure))) :
    checkAnswer h host port (.ok merged) = .error failure := by
  obtain ⟨hclosed, hfinal⟩ := exhausted_of_policy hreach hnot hm hret
  have hin : ∀ isV6, (s.resolver isV6).isIn = true := by
    intro isV6
    rw [Resolver.isIn, done_of_closed hreach hclosed isV6]
  exact (hmerge.finalError hanswered hreach hin failure).mp hfinal

/-- If no entry is allowed, nothing is dialled. -/
theorem Merge.attempts_eq_nil (hmerge : Merge ip4 ip6 merged) {s : State}
    (hanswered : Answered ip4 ip6 s) (hreach : Reaches (tcpConfig h host port) s)
    (hdenied : ∀ ip, some ip ∈ merged → hostIsAllowed h host ip = false) : s.attempts = [] := by
  rw [← List.map_eq_nil_iff (f := Attempt.addr), map_addr_attempts hreach,
    List.eq_nil_iff_forall_not_mem]
  intro addr hmem
  obtain ⟨isV6, answer, hanswer, hcand⟩ := exists_candidate_of_mem_dials hreach hmem
  rw [hanswered isV6 answer hanswer] at hcand
  obtain ⟨ip, hip, hallow, -⟩ := hmerge.mem_candidates.mp hcand
  exact absurd hallow (by simp [hdenied ip (hmerge.mem_iff.mpr ⟨isV6, hip⟩)])

/-- If no entry is allowed, a race whose context lives ends with that failure. -/
theorem Merge.policy_of_checkAnswer (hmerge : Merge ip4 ip6 merged) {s s' : State} {e : Event}
    {conn : Option ℕ} {err : Option RaceError} {failure : PolicyFailure}
    (hanswered : Answered ip4 ip6 s) (hreach : Reaches (tcpConfig h host port) s)
    (hnot : ∀ conn err, s.sched ≠ .returned conn err) (hctx : s.ctxErr = none)
    (hm : Move (tcpConfig h host port) s e s') (hret : s'.sched = .returned conn err)
    (hudp : checkAnswer h host port (.ok merged) = .error failure) :
    err = some (.policy failure) := by
  have hattempts := hmerge.attempts_eq_nil hanswered hreach (checkAnswer_eq_error_iff.mp hudp).2
  cases err with
  | some err =>
    obtain ⟨-, herr, hclosed, -, -, -⟩ := exhausted_of_error hnot hctx hm hret
    have hin : ∀ isV6, (s.resolver isV6).isIn = true := by
      intro isV6
      rw [Resolver.isIn, done_of_closed hreach hclosed isV6]
    have hstarted : s.started = 0 := by rw [started_eq_length hreach, hattempts, List.length_nil]
    rw [herr, hstarted, ← (hmerge.finalError hanswered hreach hin failure).mpr hudp]
    rfl
  | none =>
    -- only a winner is returned without an error, and there is none to be received
    have hsched := (untouched_of_attempts_eq_nil hreach hattempts).sched
    cases hm with
    | elapse | fire | cancel | lookupDone | resolve | pulse | closeFeed | closePulse | dialDone
    | settle | giveUp => exact absurd hret (hnot conn none)
    | returnWinner conn' hreceived => exact absurd hreceived (hsched [] conn').2
    | selectFailure => exact absurd hret (by simp [State.setAttempt])
    | _ => exact absurd hret (by simp [State.ret, State.resetTimer, State.setAttempt])

/-- A run of the race that ends with a policy failure. -/
theorem Merge.checkAnswer_of_run (hmerge : Merge ip4 ip6 merged) {now : ℕ} {es : List Event}
    {s : State} (hrun : runFrom (step (tcpConfig h host port)) (init now) es = some s) :
    LookupsAnswer ip4 ip6 es → ∀ conn failure, s.sched = .returned conn (some (.policy failure)) →
      checkAnswer h host port (.ok merged) = .error failure := by
  refine runFrom_history (P := fun es s => LookupsAnswer ip4 ip6 es → ∀ conn failure,
    s.sched = .returned conn (some (.policy failure)) →
      checkAnswer h host port (.ok merged) = .error failure)
    (fun _ _ _ hret => absurd hret (by simp [init])) ?_ hrun
  intro es s e s' hes ih hstep hanswers conn failure hret
  have hanswers' : LookupsAnswer ip4 ip6 es :=
    fun isV6 answer hmem => hanswers isV6 answer (List.mem_append_left [e] hmem)
  have hm := move_of_step hstep
  by_cases hnot : ∃ conn err, s.sched = .returned conn err
  · obtain ⟨conn', err, hold⟩ := hnot
    rw [sched_eq_of_returned hold hm] at hret
    exact ih hanswers' conn failure (hold.trans hret)
  · exact hmerge.checkAnswer_of_policy (answered_of_run hes hanswers') ⟨now, es, hes⟩
      (fun conn err hold => hnot ⟨conn, err, hold⟩) hm hret

/-! ## A race without candidates -/

/-- An answer without an allowed entry leaves the feed as it is. -/
theorem resolve_of_denied {c : Config} {entries : List (Option IP)}
    (hdenied : ∀ ip, some ip ∈ entries → hostIsAllowed c.handler c.host ip = false) (isV6 : Bool)
    (f : Feed) : f.resolve c isV6 (.ok entries) = (f, false) := by
  rw [Feed.resolve]
  generalize false = added
  induction entries with
  | nil => rfl
  | cons entry entries ih =>
    rw [List.foldl_cons]
    have hone : Feed.resolveOne c isV6 (f, added) entry = (f, added) := by
      cases entry with
      | none => rfl
      | some ip => simp [Feed.resolveOne, hdenied ip List.mem_cons_self]
    rw [hone]
    exact ih fun ip hip => hdenied ip (List.mem_cons_of_mem entry hip)

/-- Both lookups answer, the feed is closed, and the scheduler looks at it. -/
def answeredRun (ip4 ip6 : List (Option IP)) : List Event :=
  [.lookupDone false (.ok ip4), .resolve false, .pulse false, .lookupDone true (.ok ip6),
    .resolve true, .pulse true, .closeFeed, .computeDue, .advance]

theorem lookupsAnswer_answeredRun : LookupsAnswer ip4 ip6 (answeredRun ip4 ip6) := by
  intro isV6 answer hmem
  cases isV6 <;> simpa [answeredRun, familyAnswer] using hmem

theorem exists_denied_run {c : Config}
    (h4 : ∀ ip, some ip ∈ ip4 → hostIsAllowed c.handler c.host ip = false)
    (h6 : ∀ ip, some ip ∈ ip6 → hostIsAllowed c.handler c.host ip = false) :
    ∃ s, runFrom (step c) (init 0) (answeredRun ip4 ip6) = some s ∧
      s.sched = .returned none (some (.policy .noAllowedAddress)) := by
  have hsched : (runFrom (step c) (init 0) (answeredRun ip4 ip6)).map State.sched =
      some (.returned none (some (.policy .noAllowedAddress))) := by
    simp [answeredRun, runFrom, step, init, State.setResolver, State.ret, resolve_of_denied h4,
      resolve_of_denied h6, State.due, Feed.advance, Feed.isEmpty, Feed.finalError]
  rwa [Option.map_eq_some_iff] at hsched

end Merge

/-! ## The main result -/

/-- The addresses of a resolved target; a failure has none. -/
def addressesOf : Except PolicyFailure ResolvedTarget → List GoString
  | .ok target => target.addresses
  | .error _ => []

/-- The TCP path fails with this failure: at once, or at the end of a race with these answers. -/
def TcpFails (h : Handler) (hostPort : GoString) (ip4 ip6 : List (Option IP))
    (failure : PolicyFailure) : Prop :=
  match prepareTargetPolicy h hostPort with
  | (_, _, some failure') => failure' = failure
  | (host, port, none) => ∃ now es s conn,
      runFrom (step (tcpConfig h host port)) (init now) es = some s ∧ LookupsAnswer ip4 ip6 es ∧
        s.sched = .returned conn (some (.policy failure))

theorem addressesOf_checkAnswer (h : Handler) (host port : GoString) (entries : List (Option IP)) :
    addressesOf (checkAnswer h host port (.ok entries)) =
      (entries.foldl (resolveEntry h host port) ([], [])).2 := by
  rw [checkAnswer]
  split_ifs with hnil
  · exact hnil.symm
  · rfl

theorem resolveTargetCheckACL_of_failure {h : Handler} {hostPort host port : GoString}
    {failure : PolicyFailure} (hprep : prepareTargetPolicy h hostPort = (host, port, some failure))
    (lookupIP : GoString → Answer) :
    resolveTargetCheckACL h lookupIP hostPort = .error failure := by
  rw [resolveTargetCheckACL, hprep]

theorem resolveTargetCheckACL_of_prepared {h : Handler} {hostPort host port : GoString}
    (hprep : prepareTargetPolicy h hostPort = (host, port, none)) (lookupIP : GoString → Answer) :
    resolveTargetCheckACL h lookupIP hostPort = checkAnswer h host port (lookupIP host) := by
  rw [resolveTargetCheckACL, hprep]

/-- The two paths fail with the same failures. -/
theorem Merge.error_iff_tcpFails {ip4 ip6 merged : List (Option IP)} (hmerge : Merge ip4 ip6 merged)
    (h : Handler) (hostPort : GoString) (failure : PolicyFailure) :
    resolveTargetCheckACL h (fun _ => .ok merged) hostPort = .error failure ↔
      TcpFails h hostPort ip4 ip6 failure := by
  rcases hprep : prepareTargetPolicy h hostPort with ⟨host, port, result⟩
  rw [TcpFails, hprep]
  cases result with
  | some failure' =>
    rw [resolveTargetCheckACL_of_failure hprep, Except.error.injEq]
  | none =>
    rw [resolveTargetCheckACL_of_prepared hprep]
    constructor
    · intro hudp
      obtain ⟨rfl, hdenied⟩ := checkAnswer_eq_error_iff.mp hudp
      obtain ⟨s, hrun, hsched⟩ := exists_denied_run (c := tcpConfig h host port)
        (fun ip hip => hdenied ip (hmerge.mem_iff.mpr ⟨false, hip⟩))
        (fun ip hip => hdenied ip (hmerge.mem_iff.mpr ⟨true, hip⟩))
      exact ⟨0, _, s, none, hrun, lookupsAnswer_answeredRun, hsched⟩
    · rintro ⟨now, es, s, conn, hrun, hanswers, hsched⟩
      exact hmerge.checkAnswer_of_run hrun hanswers conn failure hsched

/-- **TCP and UDP apply the same target policy.**  The list that the UDP path looks up is any merge
of the answers of the two lookups of the TCP path, with addresses of the right family each.

* The UDP path returns every address once.
* The two paths fail with the same failures.
* Every run of the race admits every address once, admits only what the UDP path returns, and has
  admitted all of it by the time both lookups are in.
* Whenever the race returns while its context is not done, it returns a policy failure if and only
  if the UDP path does. -/
theorem same_target_policy (h : Handler) (hostPort : GoString) {ip4 ip6 merged : List (Option IP)}
    (hmerge : Merge ip4 ip6 merged) :
    (addressesOf (resolveTargetCheckACL h (fun _ => .ok merged) hostPort)).Nodup ∧
    (∀ failure, resolveTargetCheckACL h (fun _ => .ok merged) hostPort = .error failure ↔
      TcpFails h hostPort ip4 ip6 failure) ∧
    ∀ host port, prepareTargetPolicy h hostPort = (host, port, none) → ∀ now es s,
      runFrom (step (tcpConfig h host port)) (init now) es = some s → LookupsAnswer ip4 ip6 es →
      (admitted (tcpConfig h host port) (init now) es).Nodup ∧
      (∀ addr ∈ admitted (tcpConfig h host port) (init now) es,
        addr ∈ addressesOf (resolveTargetCheckACL h (fun _ => .ok merged) hostPort)) ∧
      ((∀ isV6, (s.resolver isV6).isIn = true) →
        ∀ addr ∈ addressesOf (resolveTargetCheckACL h (fun _ => .ok merged) hostPort),
          addr ∈ admitted (tcpConfig h host port) (init now) es) ∧
      ∀ e s' conn err, (∀ conn err, s.sched ≠ .returned conn err) → s.ctxErr = none →
        step (tcpConfig h host port) s e = some s' → s'.sched = .returned conn err →
        ∀ failure, err = some (.policy failure) ↔
          resolveTargetCheckACL h (fun _ => .ok merged) hostPort = .error failure := by
  refine ⟨?_, hmerge.error_iff_tcpFails h hostPort, ?_⟩
  · rcases hprep : prepareTargetPolicy h hostPort with ⟨host, port, result⟩
    cases result with
    | some failure =>
      rw [resolveTargetCheckACL_of_failure hprep]
      exact List.nodup_nil
    | none =>
      rw [resolveTargetCheckACL_of_prepared hprep, addressesOf_checkAnswer]
      exact nodup_foldl_resolveEntry h host port merged
  · intro host port hprep now es s hrun hanswers
    rw [resolveTargetCheckACL_of_prepared hprep, addressesOf_checkAnswer]
    have hanswered := answered_of_run hrun hanswers
    have hreach : Reaches (tcpConfig h host port) s := ⟨now, es, hrun⟩
    refine ⟨?_, fun addr => hmerge.mem_of_admitted hrun hanswered,
      fun hin addr => hmerge.mem_admitted hrun hanswered hin, ?_⟩
    · exact (admitted_perm hrun).nodup_iff.mpr (State.nodup_admittedFrom _ s)
    · intro e s' conn err hnot hctx hstep hret failure
      have hm := move_of_step hstep
      refine ⟨?_, hmerge.policy_of_checkAnswer hanswered hreach hnot hctx hm hret⟩
      rintro rfl
      exact hmerge.checkAnswer_of_policy hanswered hreach hnot hm hret

/-- One address of each family, with everything allowed: the race admits what the UDP path
returns. -/
theorem same_target_policy_twoFamilies :
    addressesOf (resolveTargetCheckACL { aclRules := [.all true] }
        (fun _ => .ok [some exampleV6, some exampleV4]) (ascii "target.example:443")) =
      [ascii "[2001:db8::1]:443", ascii "192.0.2.1:443"] ∧
    ∀ addr, addr ∈ admitted twoFamilies (init 0) firstDial ↔
      addr ∈ [ascii "[2001:db8::1]:443", ascii "192.0.2.1:443"] := by
  have haddresses : addressesOf (resolveTargetCheckACL { aclRules := [.all true] }
      (fun _ => .ok [some exampleV6, some exampleV4]) (ascii "target.example:443")) =
        [ascii "[2001:db8::1]:443", ascii "192.0.2.1:443"] := by decide
  have hmerge : Merge [some exampleV4] [some exampleV6] [some exampleV6, some exampleV4] :=
    ⟨.swap _ _ _, by simp; decide, by simp; decide⟩
  have hprep : prepareTargetPolicy { aclRules := [.all true] } (ascii "target.example:443") =
      (ascii "target.example", ascii "443", none) := by decide
  have hanswers : LookupsAnswer [some exampleV4] [some exampleV6] firstDial := by
    intro isV6 answer hmem
    cases isV6 <;> simpa [firstDial, familyAnswer] using hmem
  have hin : ∀ isV6, ((stateAfter twoFamilies firstDial).resolver isV6).isIn = true := by decide
  obtain ⟨-, hle, hge, -⟩ := (same_target_policy { aclRules := [.all true] }
    (ascii "target.example:443") hmerge).2.2 _ _ hprep 0 firstDial
      (stateAfter twoFamilies firstDial)
    (runFrom_stateAfter (by decide)) hanswers
  rw [haddresses] at hle hge
  exact ⟨haddresses, fun addr => ⟨hle addr, hge hin addr⟩⟩

end ConnectUdp
end ForwardProxy
