import ForwardProxy.Core.Fairness
import ForwardProxy.Dial.Wakeup
import Mathlib.Data.List.Perm.Subperm

/-!
# The race ends

The scheduler of `dialTCPIncremental` is woken by results, by ticks of the timer and by pulses of
the feed, and each time it goes through its loop once more.  It must not keep itself busy: a tick
that finds nothing due must not arm the timer again, and a pulse must not cause a pulse.

Every step is paid for here.  What a part of the state can still cause is its price (`State.price`):
an address in a queue pays for its way through the loop, for its attempt, for the failure that this
may end in and for the timer that is set at both; the timer pays for its tick, and a tick or a token
for one more turn of the loop.  Nothing but an answer of a lookup brings in anything new, and there
are two of these.

So the race does an amount of work that is linear in the number of candidates, and it returns,
provided that the parties that can go on do so in the end (`race_terminates`): the lookups and the
dials answer, the goroutines are scheduled, and time passes.
-/

namespace ForwardProxy
namespace Dial

open ForwardProxy.Core Acl

/-! ## Prices -/

/-- A label that is more than time passing. -/
def Event.isWork : Event → Bool
  | .elapse _ => false
  | _ => true

/-- What the scheduler does until it blocks, with what it starts on the way; it can return from
there. -/
def SchedPc.price : SchedPc → ℕ
  | .top => 3
  | .advancing _ => 2
  | .popped _ => 19
  | .starting _ => 18
  | .stamping _ => 8
  | .select => 1
  | .received _ => 1
  | .returned _ _ => 0

/-- What an attempt does, with what its result can cause. -/
def AttemptPc.price : AttemptPc → ℕ
  | .dialing => 9
  | .dialed _ _ => 8
  | .offering _ _ => 7
  | .finished => 0

/-- What the closer does, with the pulse. -/
def CloserPc.price : CloserPc → ℕ
  | .waiting => 5
  | .closed => 4
  | .done => 0

/-- How many candidates the answer of a lookup has, if it is there. -/
def Resolver.candidates (c : Config) (isV6 : Bool) (r : Resolver) : ℕ :=
  match r.answer with
  | none => 0
  | some answer => (Dial.candidates c isV6 answer).length

/-- What a lookup does, with the pulse and, once it is answered, with what its candidates cause. -/
def Resolver.price (c : Config) (isV6 : Bool) (r : Resolver) : ℕ :=
  match r.pc with
  | .looking => 6
  | .answered => 5 + 18 * r.candidates c isV6
  | .admitted _ => 4
  | .done => 0

/-- What the attempts do. -/
def attemptsPrice (attempts : List Attempt) : ℕ := (attempts.map fun a => a.pc.price).sum

/-- What the timer, a tick, a token and the context can cause. -/
def signalsPrice (timer : Option ℕ) (tick wake : Bool) (ctxErr : Option NetError) : ℕ :=
  (if timer.isSome then 4 else 0) + (if tick then 3 else 0) + (if wake then 3 else 0) +
    (if ctxErr.isNone then 1 else 0)

/-- What is in the queues. -/
def queuesPrice (f : Feed) : ℕ := 18 * (f.v4.length + f.v6.length)

/-- What the lookups do. -/
def lookupsPrice (c : Config) (resolver : Bool → Resolver) : ℕ :=
  (resolver false).price c false + (resolver true).price c true

/-- How many candidates the answers of the lookups have. -/
def answeredCandidates (c : Config) (resolver : Bool → Resolver) : ℕ :=
  (resolver false).candidates c false + (resolver true).candidates c true

/-- How many candidates the answers so far have. -/
def State.candidates (c : Config) (s : State) : ℕ := answeredCandidates c s.resolver

/-- An upper bound for the work that the state can cause without a further answer. -/
def State.price (c : Config) (s : State) : ℕ :=
  s.sched.price + attemptsPrice s.attempts + signalsPrice s.timer s.tick s.feed.wake s.ctxErr +
    queuesPrice s.feed + lookupsPrice c s.resolver + s.closer.price

/-! ## What a step costs -/

/-- Replacing one summand. -/
theorem sum_map_set {α : Type*} {f : α → ℕ} {l : List α} {i : ℕ} {a : α} (a' : α)
    (h : l[i]? = some a) : ((l.set i a').map f).sum + f a = (l.map f).sum + f a' := by
  induction l generalizing i with
  | nil => simp at h
  | cons b l ih =>
    cases i with
    | zero =>
      obtain rfl : b = a := by simpa using h
      simp only [List.set_cons_zero, List.map_cons, List.sum_cons]
      omega
    | succ i =>
      have hrest := ih (i := i) (by simpa using h)
      simp only [List.set_cons_succ, List.map_cons, List.sum_cons]
      omega

/-- A lookup that has not answered shows no answer. -/
def Unanswered (s : State) : Prop :=
  ∀ isV6, (s.resolver isV6).pc = .looking → (s.resolver isV6).answer = none

theorem Unanswered.setResolver {s : State} (h : Unanswered s) (b : Bool) {r : Resolver}
    (hr : r.pc ≠ .looking) : Unanswered (s.setResolver b r) := by
  intro isV6
  show (Function.update s.resolver b r isV6).pc = _ →
    (Function.update s.resolver b r isV6).answer = _
  by_cases hb : isV6 = b
  · rw [hb, Function.update_self]
    exact fun hpc => absurd hpc hr
  · rw [Function.update_of_ne hb]
    exact h isV6

theorem unanswered {c : Config} {s : State} (h : Reaches c s) : Unanswered s := by
  refine h.induction_on_move (fun _ _ _ => rfl) ?_
  intro s e s' ih hm
  cases hm with
  | lookupDone b answer hpc => exact ih.setResolver b nofun
  | resolve b answer hpc => exact Unanswered.setResolver (s := { s with feed := _ }) ih b nofun
  | pulse b added answer hpc => exact Unanswered.setResolver (s := { s with feed := _ }) ih b nofun
  | selectFailure =>
    unfold Unanswered
    rw [shrinkWindow_resolver]
    exact ih
  | _ => exact ih

/-- What is admitted has been answered. -/
theorem length_queues_resolve (c : Config) (isV6 : Bool) (f : Feed) (answer : Answer) :
    (f.resolve c isV6 answer).1.v4.length + (f.resolve c isV6 answer).1.v6.length ≤
      f.v4.length + f.v6.length + (candidates c isV6 answer).length := by
  have hother := (Feed.sameBut_resolve c isV6 f answer).queue_not
  have hself : ((f.resolve c isV6 answer).1.queue isV6).length ≤
      (f.queue isV6).length + (candidates c isV6 answer).length := by
    cases answer with
    | error err =>
      rw [(Feed.resolve_error c isV6 f err).1]
      exact Nat.le_add_right _ _
    | ok addrs =>
      obtain ⟨hq, -, -, -⟩ := Feed.resolve_ok c isV6 f addrs
      rw [hq, List.length_append]
      refine Nat.add_le_add_left (List.subperm_of_subset (nodup_eraseDups _) ?_).length_le _
      intro a ha
      rw [List.mem_eraseDups, List.mem_filter] at ha
      rw [candidates, List.mem_eraseDups]
      exact ha.1
  cases isV6 with
  | false =>
    simp only [Feed.queue_false, Bool.not_false, Feed.queue_true] at hself hother
    rw [hother]
    omega
  | true =>
    simp only [Feed.queue_true, Bool.not_true, Feed.queue_false] at hself hother
    rw [hother]
    omega

section Price

variable {c : Config} {s : State}

/-- One attempt goes on. -/
theorem attemptsPrice_set {attempts : List Attempt} {i : ℕ} {a : Attempt} (a' : Attempt)
    (ha : attempts[i]? = some a) :
    attemptsPrice (attempts.set i a') + a.pc.price = attemptsPrice attempts + a'.pc.price :=
  sum_map_set a' ha

/-- One lookup goes on. -/
theorem lookupsPrice_update (resolver : Bool → Resolver) (b : Bool) (r : Resolver) :
    lookupsPrice c (Function.update resolver b r) + (resolver b).price c b =
      lookupsPrice c resolver + r.price c b := by
  cases b with
  | false =>
    simp only [lookupsPrice, Function.update_self, Function.update_of_ne (by decide : true ≠ false)]
    omega
  | true =>
    simp only [lookupsPrice, Function.update_self, Function.update_of_ne (by decide : false ≠ true)]
    omega

theorem answeredCandidates_update (resolver : Bool → Resolver) (b : Bool) (r : Resolver) :
    answeredCandidates c (Function.update resolver b r) + (resolver b).candidates c b =
      answeredCandidates c resolver + r.candidates c b := by
  cases b with
  | false =>
    simp only [answeredCandidates, Function.update_self,
      Function.update_of_ne (by decide : true ≠ false)]
    omega
  | true =>
    simp only [answeredCandidates, Function.update_self,
      Function.update_of_ne (by decide : false ≠ true)]
    omega

/-- Popping an address lowers what is in the queues. -/
theorem queuesPrice_setQueue {f : Feed} {isV6 : Bool} {addr : GoString} {rest : List GoString}
    (hq : f.queue isV6 = addr :: rest) :
    queuesPrice (f.setQueue isV6 rest) + 18 = queuesPrice f := by
  cases isV6 with
  | false =>
    simp only [Feed.queue_false] at hq
    simp only [queuesPrice, Feed.setQueue, hq, List.length_cons, Bool.false_eq_true, if_false]
    omega
  | true =>
    simp only [Feed.queue_true] at hq
    simp only [queuesPrice, Feed.setQueue, hq, List.length_cons, if_true]
    omega

/-- The timer is set. -/
theorem signalsPrice_reset (timer : Option ℕ) (t : ℕ) (tick keepTick wake : Bool)
    (ctxErr : Option NetError) :
    signalsPrice (some t) (tick && keepTick) wake ctxErr ≤
      signalsPrice timer tick wake ctxErr + 4 := by
  cases tick <;> cases keepTick <;> simp only [signalsPrice, Bool.and_false, Bool.and_true,
    Option.isSome_some, if_true, Bool.false_eq_true, if_false] <;> omega

/-- A token is put into the slot. -/
theorem signalsPrice_pulse (timer : Option ℕ) (tick wake : Bool) (ctxErr : Option NetError) :
    signalsPrice timer tick true ctxErr ≤ signalsPrice timer tick wake ctxErr + 3 := by
  simp only [signalsPrice, if_true]
  omega

/-- The deferred `cancel`. -/
theorem signalsPrice_cancel (timer : Option ℕ) (tick wake : Bool) (ctxErr : Option NetError)
    (err : NetError) :
    signalsPrice timer tick wake (ctxErr.or (some err)) ≤ signalsPrice timer tick wake ctxErr := by
  cases ctxErr <;> simp [signalsPrice]

/-- A return is free. -/
theorem price_ret (s : State) (conn : Option ℕ) (err : Option RaceError) :
    (s.ret conn err).price c + s.sched.price ≤ s.price c := by
  have hsignals := signalsPrice_cancel s.timer s.tick s.feed.wake s.ctxErr .canceled
  simp only [State.price, State.ret, SchedPc.price]
  omega

/-- Shrinking the window sets the timer at most. -/
theorem price_shrinkWindow (s : State) (keepTick : Bool) :
    (shrinkWindow s keepTick).price c ≤ s.price c + 4 := by
  unfold shrinkWindow
  dsimp only
  split
  · exact Nat.le_add_right _ _
  · split_ifs
    · have hsignals := signalsPrice_reset s.timer (max s.now (s.lastStart + tcpMinimumDelay)) s.tick
        keepTick s.feed.wake s.ctxErr
      simp only [State.price, State.resetTimer]
      omega
    · exact Nat.le_add_right _ _

/-- A return lowers the price, from wherever the scheduler returns. -/
theorem price_ret_lt {s : State} (conn : Option ℕ) (err : Option RaceError)
    (hsched : 0 < s.sched.price) : (s.ret conn err).price c < s.price c := by
  have hret := price_ret (c := c) s conn err
  omega

/-- The scheduler goes on alone. -/
theorem price_sched_lt {pc : SchedPc} (hlt : pc.price < s.sched.price) :
    { s with sched := pc }.price c < s.price c := by
  simp only [State.price]
  omega

/-- What an attempt costs is all that changes with it. -/
theorem price_setAttempt {i : ℕ} {a : Attempt} (a' : Attempt) (ha : s.attempts[i]? = some a) :
    (s.setAttempt i a').price c + a.pc.price = s.price c + a'.pc.price := by
  have hattempts := attemptsPrice_set a' ha
  simp only [State.price, State.setAttempt]
  omega

theorem price_setAttempt_lt {i : ℕ} {a : Attempt} (a' : Attempt) (ha : s.attempts[i]? = some a)
    (hlt : a'.pc.price < a.pc.price) : (s.setAttempt i a').price c < s.price c := by
  have hset := price_setAttempt (c := c) a' ha
  omega

/-- The scheduler takes an address from a queue; the address pays for what is done with it. -/
theorem price_setQueue_lt {pc : SchedPc} {isV6 : Bool} {addr : GoString} {rest : List GoString}
    (hq : s.feed.queue isV6 = addr :: rest) (hlt : pc.price < s.sched.price + 18) :
    { s with feed := s.feed.setQueue isV6 rest, sched := pc }.price c < s.price c := by
  have hqueues := queuesPrice_setQueue hq
  simp only [State.price, Feed.wake_setQueue]
  omega

/-- The label of a lookup. -/
def Event.isLookup : Event → Bool
  | .lookupDone _ _ | .resolve _ | .pulse _ => true
  | _ => false

/-- The candidates are what the lookups found; no other move changes them. -/
theorem candidates_of_move {e : Event} {s' : State} (hm : Move c s e s')
    (hlookup : e.isLookup = false) : s'.candidates c = s.candidates c := by
  cases hm with
  | lookupDone => cases hlookup
  | resolve => cases hlookup
  | pulse => cases hlookup
  | selectFailure =>
    rw [State.candidates, shrinkWindow_resolver]
    rfl
  | _ => rfl

/-- A move that leaves the candidates alone lowers the price. -/
theorem price_lt_of_move {e : Event} {s' : State} (hm : Move c s e s') (hwork : e.isWork = true)
    (hlookup : e.isLookup = false) : s'.price c < s.price c := by
  cases hm with
  | elapse => cases hwork
  | lookupDone => cases hlookup
  | resolve => cases hlookup
  | pulse => cases hlookup
  | fire t ht hle =>
    simp only [State.price, signalsPrice, ht, Option.isSome_some, Option.isSome_none, if_true,
      Bool.false_eq_true, if_false]
    omega
  | cancel err hctx herr =>
    simp only [State.price, signalsPrice, hctx, Option.isNone_none, Option.isNone_some, if_true,
      Bool.false_eq_true, if_false]
    omega
  | closeFeed hcloser h4 h6 =>
    simp only [State.price, queuesPrice, hcloser, CloserPc.price]
    omega
  | closePulse hcloser =>
    have hsignals := signalsPrice_pulse s.timer s.tick s.feed.wake s.ctxErr
    simp only [State.price, queuesPrice, Feed.pulse, hcloser, CloserPc.price]
    omega
  | dialDone i a conn err ha hpc => exact price_setAttempt_lt _ ha (by simp [hpc, AttemptPc.price])
  | settle i a conn err attemptErr ha hpc hok =>
    exact price_setAttempt_lt _ ha (by simp [hpc, AttemptPc.price])
  | giveUp i a conn err ha hpc hctx =>
    exact price_setAttempt_lt _ ha (by simp [hpc, AttemptPc.price])
  | computeDue hsched => exact price_sched_lt (by simp [hsched, SchedPc.price])
  | advancePop isV6 addr rest hsched hq haddr =>
    exact price_setQueue_lt hq (by simp [hsched, SchedPc.price])
  | advanceBlank isV6 rest hsched hq =>
    exact price_setQueue_lt hq (by simp [hsched, SchedPc.price])
  | advanceEnd due hsched hclosed hempty hpending =>
    exact price_ret_lt _ _ (by simp [hsched, SchedPc.price])
  | advanceBlock due hsched hdue hgo => exact price_sched_lt (by simp [hsched, SchedPc.price])
  | checkCtxDone addr err hsched hctx => exact price_ret_lt _ _ (by simp [hsched, SchedPc.price])
  | checkCtx addr hsched hctx => exact price_sched_lt (by simp [hsched, SchedPc.price])
  | start addr hsched =>
    simp only [State.price, hsched, SchedPc.price, attemptsPrice, List.map_append, List.map_cons,
      List.map_nil, List.sum_append, List.sum_cons, List.sum_nil, AttemptPc.price]
    omega
  | stamp addr keepTick hsched =>
    have hsignals := signalsPrice_reset s.timer (s.now + tcpFallbackDelay) s.tick keepTick
      s.feed.wake s.ctxErr
    simp only [State.price, State.resetTimer, hsched, SchedPc.price]
    omega
  | selectCtx err hsched hctx => exact price_ret_lt _ _ (by simp [hsched, SchedPc.price])
  | selectConn i a conn err keepTick hsched ha hpc =>
    have hset := price_setAttempt (c := c) { a with pc := .finished } ha
    simp only [hpc, State.price, State.setAttempt, AttemptPc.price] at hset
    simp only [State.price, State.setAttempt, hsched, SchedPc.price]
    omega
  | selectFailure i a err keepTick hsched ha hpc =>
    -- the failure pays for the timer and for the next round of the scheduler
    have hattempts := attemptsPrice_set { a with pc := .finished } ha
    have hwindow := price_shrinkWindow (c := c) ({ s with
      pending := s.pending - 1
      lastErr := err
      trace := s.trace ++ [Obs.failure s.now]
      sched := .top }.setAttempt i { a with pc := .finished }) keepTick
    simp only [hpc, AttemptPc.price] at hattempts
    simp only [State.price, State.setAttempt, hsched, SchedPc.price] at hwindow ⊢
    omega
  | selectWake hsched hwake =>
    simp only [State.price, queuesPrice, signalsPrice, hsched, hwake, SchedPc.price, if_true,
      Bool.false_eq_true, if_false]
    omega
  | selectTick hsched htick =>
    simp only [State.price, signalsPrice, hsched, htick, SchedPc.price, if_true,
      Bool.false_eq_true, if_false]
    omega
  | discardWinner conn err hsched hctx =>
    exact price_ret_lt (s := s.close (some conn)) _ _ (by simp [State.close, hsched, SchedPc.price])
  | returnWinner conn hsched hctx => exact price_ret_lt _ _ (by simp [hsched, SchedPc.price])

/-- A lookup is paid for by the candidates that it brings in. -/
theorem price_of_lookup {e : Event} {s' : State} (h : Unanswered s) (hm : Move c s e s')
    (hlookup : e.isLookup = true) :
    s'.price c + 1 + 18 * s.candidates c ≤ s.price c + 18 * s'.candidates c := by
  cases hm with
  | lookupDone b answer hpc =>
    have hcandidates := answeredCandidates_update (c := c) s.resolver b ⟨.answered, some answer⟩
    have hlookups := lookupsPrice_update (c := c) s.resolver b ⟨.answered, some answer⟩
    simp only [Resolver.candidates, Resolver.price, h b hpc, hpc] at hcandidates hlookups
    simp only [State.price, State.candidates, State.setResolver]
    omega
  | resolve b answer hpc =>
    have hcandidates := answeredCandidates_update (c := c) s.resolver b
      ⟨.admitted (s.feed.resolve c b answer).2, some answer⟩
    have hlookups := lookupsPrice_update (c := c) s.resolver b
      ⟨.admitted (s.feed.resolve c b answer).2, some answer⟩
    have hqueues := length_queues_resolve c b s.feed answer
    have hwake := (Feed.sameBut_resolve c b s.feed answer).wake
    simp only [Resolver.candidates, Resolver.price, hpc] at hcandidates hlookups
    simp only [State.price, State.candidates, State.setResolver, queuesPrice, hwake]
    omega
  | pulse b added answer hpc =>
    have hcandidates := answeredCandidates_update (c := c) s.resolver b ⟨.done, answer⟩
    have hlookups := lookupsPrice_update (c := c) s.resolver b ⟨.done, answer⟩
    have hsignals := signalsPrice_pulse s.timer s.tick s.feed.wake s.ctxErr
    simp only [Resolver.candidates, Resolver.price, hpc] at hcandidates hlookups
    cases added with
    | false =>
      simp only [State.price, State.candidates, State.setResolver, Bool.false_eq_true, if_false]
      omega
    | true =>
      simp only [State.price, State.candidates, State.setResolver, Feed.pulse, queuesPrice, if_true]
      omega
  | _ => cases hlookup

/-- **Every step is paid for**, and only the answer of a lookup brings in something new. -/
theorem price_of_move {e : Event} {s' : State} (h : Unanswered s) (hm : Move c s e s') :
    s'.price c + (if e.isWork then 1 else 0) + 18 * s.candidates c ≤
      s.price c + 18 * s'.candidates c := by
  cases hlookup : e.isLookup with
  | true =>
    have hpaid := price_of_lookup h hm hlookup
    split_ifs <;> omega
  | false =>
    rw [candidates_of_move hm hlookup]
    split_ifs with hwork
    · have hlt := price_lt_of_move hm hwork hlookup
      omega
    · cases hm with
      | elapse d => exact Nat.le_refl _
      | _ => exact absurd rfl hwork

end Price

/-! ## The whole race -/

theorem Reaches.step {c : Config} {s s' : State} {e : Event} (h : Reaches c s)
    (hs : Dial.step c s e = some s') : Reaches c s' := by
  obtain ⟨now, hreach⟩ := h
  exact ⟨now, hreach.tail hs⟩

/-- The work of a run, and what is left of its price. -/
theorem price_add_work_le {c : Config} {now : ℕ} {es : List Event} {s : State}
    (hrun : runFrom (step c) (init now) es = some s) :
    s.price c + es.countP Event.isWork ≤ 21 + 18 * s.candidates c := by
  have hstep : ∀ s e s', Reaches c s → step c s e = some s' → Reaches c s' ∧
      s'.price c + (if e.isWork then 1 else 0) + 18 * s.candidates c ≤
        s.price c + 18 * s'.candidates c :=
    fun s e s' h hs => ⟨h.step hs, price_of_move (unanswered h) (move_of_step hs)⟩
  exact runFrom_work_le (State.price c) (fun s => 18 * s.candidates c) Event.isWork hstep
    ⟨now, Reachable.refl _⟩ hrun

/-- An answer stays. -/
theorem answer_of_move {c : Config} {s s' : State} {e : Event} {isV6 : Bool} {answer : Answer}
    (h : Unanswered s) (hm : Move c s e s') (ha : (s.resolver isV6).answer = some answer) :
    (s'.resolver isV6).answer = some answer := by
  have update : ∀ (b : Bool) (r : Resolver), (isV6 = b → r.answer = some answer) →
      (Function.update s.resolver b r isV6).answer = some answer := by
    intro b r hr
    by_cases hb : isV6 = b
    · rw [hb, Function.update_self]
      exact hr hb
    · rw [Function.update_of_ne hb]
      exact ha
  cases hm with
  | lookupDone b answer' hpc =>
    refine update b _ fun hb => ?_
    rw [hb, h b hpc] at ha
    cases ha
  | resolve b answer' hpc =>
    refine update b _ fun hb => ?_
    rw [hb, hpc] at ha
    exact ha
  | pulse b added answer' hpc =>
    refine update b _ fun hb => ?_
    rw [hb, hpc] at ha
    exact ha
  | selectFailure =>
    rw [shrinkWindow_resolver]
    exact ha
  | _ => exact ha

section Execution

variable {c : Config} {now : ℕ} (x : Exec (step c))

theorem reaches_state (hinit : x.state 0 = init now) (n : ℕ) : Reaches c (x.state n) :=
  ⟨now, x.take n, hinit ▸ x.runFrom_take n⟩

/-- At all times a lookup has the same answer, if it has one. -/
theorem answer_unique (hinit : x.state 0 = init now) {isV6 : Bool} {n m : ℕ}
    {answer answer' : Answer} (hn : ((x.state n).resolver isV6).answer = some answer)
    (hm : ((x.state m).resolver isV6).answer = some answer') : answer = answer' := by
  have stays : ∀ {n m : ℕ} {answer : Answer}, n ≤ m →
      ((x.state n).resolver isV6).answer = some answer →
      ((x.state m).resolver isV6).answer = some answer := by
    intro n m answer hnm hn
    refine (x.invariant (P := fun s => Reaches c s ∧ (s.resolver isV6).answer = some answer) ?_ hnm
      ⟨reaches_state x hinit n, hn⟩).2
    rintro s e s' ⟨hreach, ha⟩ hs
    exact ⟨hreach.step hs, answer_of_move (unanswered hreach) (move_of_step hs) ha⟩
  rcases le_total n m with hnm | hmn
  · exact Option.some_inj.mp ((stays hnm hn).symm.trans hm)
  · exact Option.some_inj.mp (hn.symm.trans (stays hmn hm))

/-- There are only so many candidates in an execution. -/
theorem exists_candidates_le (hinit : x.state 0 = init now) :
    ∃ bound, ∀ n, (x.state n).candidates c ≤ bound := by
  have family : ∀ isV6, ∃ bound, ∀ n, ((x.state n).resolver isV6).candidates c isV6 ≤ bound := by
    intro isV6
    by_cases hsome : ∃ n answer, ((x.state n).resolver isV6).answer = some answer
    · obtain ⟨n, answer, hn⟩ := hsome
      refine ⟨(candidates c isV6 answer).length, fun m => ?_⟩
      unfold Resolver.candidates
      cases hm : ((x.state m).resolver isV6).answer with
      | none => exact Nat.zero_le _
      | some answer' => rw [answer_unique x hinit hn hm]
    · refine ⟨0, fun m => ?_⟩
      unfold Resolver.candidates
      cases hm : ((x.state m).resolver isV6).answer with
      | none => exact Nat.le_refl _
      | some answer => exact absurd ⟨m, answer, hm⟩ hsome
  obtain ⟨bound₄, h₄⟩ := family false
  obtain ⟨bound₆, h₆⟩ := family true
  exact ⟨bound₄ + bound₆, fun n => Nat.add_le_add (h₄ n) (h₆ n)⟩

end Execution

theorem Event.isWork_of_isProgress {e : Event} (h : e.isProgress = true) : e.isWork = true := by
  cases e with
  | elapse d => cases h
  | _ => rfl

/-- **The race ends.**  Whatever the lookups and the dials answer and in whatever order:

* a run has at most 21 steps other than the passing of time, and 18 more for each candidate that the
  lookups have answered, so that the scheduler never keeps itself busy;
* an execution in which it never happens that a party could go on but none does so any more comes to
  the return of the race. -/
theorem race_terminates (c : Config) (now : ℕ) :
    (∀ es s, runFrom (step c) (init now) es = some s →
      es.countP Event.isWork ≤ 21 + 18 * s.candidates c) ∧
    ∀ x : Exec (step c), x.state 0 = init now →
      (∀ n, CanProgress c (x.state n) → ∃ m, n ≤ m ∧ (x.label m).isProgress = true) →
      ∃ n conn err, (x.state n).sched = .returned conn err := by
  have hwork : ∀ es s, runFrom (step c) (init now) es = some s →
      es.countP Event.isWork ≤ 21 + 18 * s.candidates c :=
    fun es s hrun => (Nat.le_add_left _ _).trans (price_add_work_le hrun)
  refine ⟨hwork, fun x hinit hfair => ?_⟩
  obtain ⟨bound, hbound⟩ := exists_candidates_le x hinit
  have hpaid : ∀ n, (x.take n).countP Event.isWork ≤ 21 + 18 * bound := by
    intro n
    have hrun := x.runFrom_take n
    rw [hinit] at hrun
    exact (hwork _ _ hrun).trans (Nat.add_le_add_left (Nat.mul_le_mul_left 18 (hbound n)) 21)
  refine x.exists_goal (G := fun s => ∃ conn err, s.sched = .returned conn err) hpaid
    fun n hnot => ?_
  have hreach := reaches_state x hinit n
  have hprogress : CanProgress c (x.state n) := by
    by_cases hs : (x.state n).sched = .select
    · exact canProgress_of_wakes hreach hs (wakes_of_select hreach hs)
    · exact canProgress_of_not_select hs fun conn err hsched => hnot ⟨conn, err, hsched⟩
  obtain ⟨m, hnm, hm⟩ := hfair n hprogress
  exact ⟨m, hnm, Event.isWork_of_isProgress hm⟩

/-- Both dials succeed, one of them is returned and the other one closed; then the timer that the
last dial has set fires, and nobody looks at it. -/
def bothConnect : List Event := lateLoser ++ [.elapse tcpFallbackDelay, .fire]

/-- Nothing is left to do when the lookups, the closer and the attempts are done and no timer is
set. -/
theorem not_canProgress {c : Config} {s : State} {conn : Option ℕ} {err : Option RaceError}
    (hsched : s.sched = .returned conn err) (hresolver : ∀ isV6, (s.resolver isV6).pc = .done)
    (hcloser : s.closer = .done) (hattempts : ∀ a ∈ s.attempts, a.pc = .finished)
    (htimer : s.timer = none) : ¬ CanProgress c s := by
  rintro ⟨d, e, he, hsome⟩
  obtain ⟨s', hrun⟩ := Option.isSome_iff_exists.mp hsome
  rw [runFrom_cons, show step c s (.elapse d) = some { s with now := s.now + d } from rfl,
    Option.bind_some, runFrom_cons, Option.bind_eq_some_iff] at hrun
  obtain ⟨t, ht, -⟩ := hrun
  have hfinished : ∀ {i : ℕ} {a : Attempt}, s.attempts[i]? = some a → a.pc = .finished :=
    fun ha => hattempts _ (List.mem_of_getElem? ha)
  cases move_of_step ht with
  | elapse | cancel => cases he
  | fire t htimer' => exact absurd (htimer.symm.trans htimer') nofun
  | lookupDone b answer hpc => exact absurd ((hresolver b).symm.trans hpc) nofun
  | resolve b answer hpc => exact absurd ((hresolver b).symm.trans (congrArg Resolver.pc hpc)) nofun
  | pulse b added answer hpc =>
    exact absurd ((hresolver b).symm.trans (congrArg Resolver.pc hpc)) nofun
  | closeFeed hcloser' => exact absurd (hcloser.symm.trans hcloser') nofun
  | closePulse hcloser' => exact absurd (hcloser.symm.trans hcloser') nofun
  | dialDone i a _ _ ha hpc => exact absurd ((hfinished ha).symm.trans hpc) nofun
  | settle i a _ _ _ ha hpc => exact absurd ((hfinished ha).symm.trans hpc) nofun
  | giveUp i a _ _ ha hpc => exact absurd ((hfinished ha).symm.trans hpc) nofun
  | selectConn i a _ _ _ hsched' => exact absurd (hsched.symm.trans hsched') nofun
  | selectFailure i a _ _ hsched' => exact absurd (hsched.symm.trans hsched') nofun
  | advancePop _ _ _ hsched' => exact absurd (hsched.symm.trans hsched') nofun
  | advanceBlank _ _ hsched' => exact absurd (hsched.symm.trans hsched') nofun
  | advanceEnd _ hsched' => exact absurd (hsched.symm.trans hsched') nofun
  | advanceBlock _ hsched' => exact absurd (hsched.symm.trans hsched') nofun
  | checkCtxDone _ _ hsched' => exact absurd (hsched.symm.trans hsched') nofun
  | checkCtx _ hsched' => exact absurd (hsched.symm.trans hsched') nofun
  | start _ hsched' => exact absurd (hsched.symm.trans hsched') nofun
  | stamp _ _ hsched' => exact absurd (hsched.symm.trans hsched') nofun
  | selectCtx _ hsched' => exact absurd (hsched.symm.trans hsched') nofun
  | discardWinner _ _ hsched' => exact absurd (hsched.symm.trans hsched') nofun
  | returnWinner _ hsched' => exact absurd (hsched.symm.trans hsched') nofun
  | computeDue hsched' => exact absurd (hsched.symm.trans hsched') nofun
  | selectWake hsched' => exact absurd (hsched.symm.trans hsched') nofun
  | selectTick hsched' => exact absurd (hsched.symm.trans hsched') nofun

theorem race_terminates_bothConnect :
    ∃ x : Exec (step twoFamilies), x.state 0 = init 0 ∧
      (∀ n, CanProgress twoFamilies (x.state n) → ∃ m, n ≤ m ∧ (x.label m).isProgress = true) ∧
      ∃ n conn err, (x.state n).sched = .returned conn err := by
  have hsome : (runFrom (step twoFamilies) (init 0) bothConnect).isSome = true := by decide
  have hrun := runFrom_stateAfter hsome
  have hquiet : ¬ CanProgress twoFamilies (stateAfter twoFamilies bothConnect) := by
    have hresolver : ∀ isV6, ((stateAfter twoFamilies bothConnect).resolver isV6).pc = .done := by
      decide
    have hattempts : ∀ a ∈ (stateAfter twoFamilies bothConnect).attempts, a.pc = .finished := by
      decide
    exact not_canProgress (show _ = SchedPc.returned (some 1) none by decide) hresolver (by decide)
      hattempts (by decide)
  have hidle : step twoFamilies (stateAfter twoFamilies bothConnect) (.elapse 0) =
      some (stateAfter twoFamilies bothConnect) := rfl
  have hfair : ∀ n, CanProgress twoFamilies ((Exec.ofRun hrun hidle).state n) →
      ∃ m, n ≤ m ∧ ((Exec.ofRun hrun hidle).label m).isProgress = true := by
    intro n hn
    by_cases hlt : n < 37
    · exact ⟨36, Nat.le_of_lt_succ hlt, rfl⟩
    · rw [Exec.ofRun_state_of_le hrun hidle (Nat.le_of_not_lt hlt)] at hn
      exact absurd hn hquiet
  exact ⟨_, rfl, hfair, (race_terminates twoFamilies 0).2 _ rfl hfair⟩

end Dial
end ForwardProxy
