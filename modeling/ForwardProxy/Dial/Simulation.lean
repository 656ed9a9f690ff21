import ForwardProxy.Dial.Exhaustion
import ForwardProxy.Dial.Spacing
import ForwardProxy.Dial.Static

/-!
# A simulation between the two dialers

The incremental dialer and the static one keep different books.  The incremental one has a window, a
time from which on the next dial is due, and compares it with the clock whenever it wakes up; the
static one has a timer, and sets it anew after each failure.  So the static scheduler of the
simulation waits with the tick: its timer fires when the incremental scheduler takes a candidate,
and what is kept is that it *can* fire by then (`Running.timer`).

At one point the static scheduler is ahead.  It returns with the last failure, while the incremental
one goes round once more, may have to wait for the feed to be closed, and can be overtaken there by
the end of the context.  In the simulation it therefore leaves the last failure with the attempt
(`Lagging`), until the result is clear.

The relation is `Sim`, and `Sim.matched` says that every step keeps it.
-/

namespace ForwardProxy
namespace Dial

open ForwardProxy.Core Acl

/-! ## More about the incremental dialer -/

/-- The end of the window lies at least the minimum behind the last start. -/
theorem lastStart_add_le {c : Config} {s : State} (h : Reaches c s)
    (hstamping : s.sched.isStamping = false) {ready : ℕ} (hready : s.nextReadyAt = some ready) :
    s.lastStart + tcpMinimumDelay ≤ ready := by
  have hw := windowed h
  cases hlast : sinceLast s.trace with
  | none =>
    rw [hw.first hlast] at hready
    exact absurd hready (by simp)
  | some last =>
    obtain ⟨ready', hready', hof⟩ := (hw.window last.1 last.2 hlast).2 hstamping
    rw [hready'] at hready
    exact Option.some.inj hready ▸ hof.lastStart_add_le

/-- A failure leaves a window that ends at least the minimum behind the last start. -/
theorem shrinkWindow_window {s : State} {ready : ℕ} (hready : s.nextReadyAt = some ready)
    (hle : s.lastStart + tcpMinimumDelay ≤ ready) (keepTick : Bool) :
    ∃ ready' timer tick, s.lastStart + tcpMinimumDelay ≤ ready' ∧ shrinkWindow s keepTick =
      { s with nextReadyAt := some ready', timer := timer, tick := tick } := by
  simp only [shrinkWindow, hready]
  split_ifs
  · exact ⟨_, _, _, le_rfl, rfl⟩
  · exact ⟨ready, s.timer, s.tick, hle, by rw [← hready]⟩

/-! ## The simulation -/

/-- The scheduler is in its loop and holds nothing. -/
def SchedPc.isIdle : SchedPc → Bool
  | .top => true
  | .advancing _ => true
  | .select => true
  | _ => false

/-- What the two races show to the outside. -/
structure Alike (s : State) (t : Static.State) : Prop where
  now : t.now = s.now
  ctxErr : t.ctxErr = s.ctxErr
  produced : t.produced = s.produced
  closes : t.closes = s.closes
  starts : t.starts = s.starts
  tick : t.tick = false

/-- Nothing was taken yet. -/
structure Fresh (ordered : List GoString) (s : State) (t : Static.State) : Prop where
  pc : t.pc = .entered
  attempts : s.attempts = []
  attempts' : t.attempts = []
  pending : t.pending = s.pending
  next : t.next = 0
  window : s.nextReadyAt = none
  ne : s.feed.isEmpty = false
  order : ordered = popOrder s.lastFamily s.feed

/-- Both schedulers wait for a result or for the next dial. -/
structure Running (ordered : List GoString) (s : State) (t : Static.State) : Prop where
  pc : t.pc = .select
  attempts : t.attempts = s.attempts
  pending : t.pending = s.pending
  /-- The last failure has not been received. -/
  busy : s.feed.isEmpty = true → 0 < s.pending
  next_le : t.next ≤ ordered.length
  order : ordered.drop t.next = popOrder s.lastFamily s.feed
  lastStart : t.lastStart = s.lastStart
  /-- By the end of the window the timer can fire. -/
  timer : ∃ ready, s.nextReadyAt = some ready ∧
    (s.feed.isEmpty = false → ∃ at', t.timer = some at' ∧ at' ≤ max s.now ready)

/-- The incremental scheduler has received the last failure, which attempt `i` offers with the error
`err`, and the static one has not. -/
structure Lagging (ordered : List GoString) (s : State) (t : Static.State) (i : ℕ) (a : Attempt)
    (err : RaceError) : Prop where
  pc : t.pc = .select
  offers : t.attempts[i]? = some a
  offer : a.pc = .offering none (some err)
  attempts : s.attempts = t.attempts.set i { a with pc := .finished }
  pending : s.pending = 0
  pending' : t.pending = 1
  empty : s.feed.isEmpty = true
  next : t.next = ordered.length
  lastErr : s.lastErr = some err
  started : 0 < s.started

/-- How far the races are while the incremental scheduler is idle. -/
inductive Idle (ordered : List GoString) (s : State) (t : Static.State) : Prop where
  | fresh (h : Fresh ordered s t)
  | running (h : Running ordered s t)
  | lagging (i : ℕ) (a : Attempt) (err : RaceError) (h : Lagging ordered s t i a err)

/-- A candidate is taken and heads what is left of the order. -/
structure Taken (ordered : List GoString) (s : State) (t : Static.State)
    (addr : GoString) : Prop where
  attempts : t.attempts = s.attempts
  order : ordered.drop t.next = addr :: popOrder (familyByte addr) s.feed

/-- How far the races are, by where the incremental scheduler stands. -/
def Stage (ordered : List GoString) (s : State) (t : Static.State) : SchedPc → Prop
  | .popped addr => Taken ordered s t addr ∧ t.pending = s.pending ∧ t.pc = .popped addr
  | .starting addr => Taken ordered s t addr ∧ t.pending = s.pending ∧ t.pc = .starting addr
  | .stamping addr => Taken ordered s t addr ∧ s.pending = t.pending + 1 ∧ t.pc = .stamping
  | .received conn => t.attempts = s.attempts ∧ t.pc = .received conn
  | .returned conn err => t.attempts = s.attempts ∧ t.pc = .returned conn err
  | _ => Idle ordered s t

theorem stage_of_isIdle {ordered : List GoString} {s : State} {t : Static.State} {pc : SchedPc}
    (h : pc.isIdle = true) : Stage ordered s t pc = Idle ordered s t := by
  cases pc with
  | top | advancing | select => rfl
  | _ => exact absurd h (by simp [SchedPc.isIdle])

/-- The simulation. -/
structure Sim (ordered : List GoString) (s : State) (t : Static.State) : Prop where
  alike : Alike s t
  lookups : ∀ isV6, (s.resolver isV6).isIn = true
  family : ∀ isV6, ∀ addr ∈ s.feed.queue isV6, familyByte addr = familyOf isV6
  stage : Stage ordered s t s.sched

/-! ### What the stage does not depend on -/

/-- What most moves leave alone. -/
structure SameRace (s s' : State) : Prop where
  attempts : s'.attempts = s.attempts
  pending : s'.pending = s.pending
  v4 : s'.feed.v4 = s.feed.v4
  v6 : s'.feed.v6 = s.feed.v6
  window : s'.nextReadyAt = s.nextReadyAt
  lastFamily : s'.lastFamily = s.lastFamily
  lastStart : s'.lastStart = s.lastStart
  lastErr : s'.lastErr = s.lastErr
  started : s'.started = s.started

theorem SameRace.isEmpty {s s' : State} (h : SameRace s s') : s'.feed.isEmpty = s.feed.isEmpty := by
  rw [Feed.isEmpty, Feed.isEmpty, h.v4, h.v6]

theorem SameRace.popOrder {s s' : State} (h : SameRace s s') (family : UInt8) :
    popOrder family s'.feed = popOrder family s.feed := by
  rw [Dial.popOrder, Dial.popOrder, h.v4, h.v6]

/-- The clock may move on in both races, and their contexts do not matter. -/
theorem Idle.of_same {ordered : List GoString} {s s' : State} {t : Static.State}
    (h : Idle ordered s t) (hsame : SameRace s s') (hnow : s.now ≤ s'.now) (now : ℕ)
    (ctxErr : Option NetError) : Idle ordered s' { t with now := now, ctxErr := ctxErr } := by
  cases h with
  | fresh h =>
    exact .fresh ⟨h.pc, hsame.attempts.trans h.attempts, h.attempts',
      h.pending.trans hsame.pending.symm, h.next, hsame.window.trans h.window,
      hsame.isEmpty.trans h.ne,
      by rw [hsame.lastFamily, hsame.popOrder, ← h.order]⟩
  | running h =>
    obtain ⟨ready, hready, hcan⟩ := h.timer
    refine .running ⟨h.pc, h.attempts.trans hsame.attempts.symm, h.pending.trans hsame.pending.symm,
      ?_, h.next_le, by rw [hsame.lastFamily, hsame.popOrder, ← h.order],
      h.lastStart.trans hsame.lastStart.symm, ready, hsame.window.trans hready, ?_⟩
    · rw [hsame.isEmpty, hsame.pending]
      exact h.busy
    · rw [hsame.isEmpty]
      intro hne
      obtain ⟨at', hat, hle⟩ := hcan hne
      exact ⟨at', hat, hle.trans (max_le_max_right ready hnow)⟩
  | lagging i a err h =>
    exact .lagging i a err ⟨h.pc, h.offers, h.offer, hsame.attempts.trans h.attempts,
      hsame.pending.trans h.pending, h.pending', hsame.isEmpty.trans h.empty, h.next,
      hsame.lastErr.trans h.lastErr, hsame.started ▸ h.started⟩

theorem Taken.of_same {ordered : List GoString} {s s' : State} {t : Static.State} {addr : GoString}
    (h : Taken ordered s t addr) (hsame : SameRace s s') (now : ℕ) (ctxErr : Option NetError) :
    Taken ordered s' { t with now := now, ctxErr := ctxErr } addr :=
  ⟨h.attempts.trans hsame.attempts.symm, by rw [hsame.popOrder, ← h.order]⟩

/-- The clock may move on in both races, and where an idle scheduler stands does not matter. -/
theorem Stage.of_same {ordered : List GoString} {s s' : State} {t : Static.State}
    (h : Stage ordered s t s.sched) (hsame : SameRace s s') (hnow : s.now ≤ s'.now)
    (hsched : s'.sched = s.sched ∨ s.sched.isIdle = true ∧ s'.sched.isIdle = true) (now : ℕ)
    (ctxErr : Option NetError) :
    Stage ordered s' { t with now := now, ctxErr := ctxErr } s'.sched := by
  by_cases hidle : s.sched.isIdle = true
  · have hidle' : s'.sched.isIdle = true := by
      rcases hsched with h | h
      · rw [h]
        exact hidle
      · exact h.2
    rw [stage_of_isIdle hidle] at h
    rw [stage_of_isIdle hidle']
    exact h.of_same hsame hnow now ctxErr
  · rw [hsched.resolve_right fun h => hidle h.1]
    cases hpc : s.sched with
    | top | advancing | select => exact absurd rfl (hpc ▸ hidle)
    | popped addr =>
      rw [hpc] at h
      exact ⟨h.1.of_same hsame now ctxErr, h.2.1.trans hsame.pending.symm, h.2.2⟩
    | starting addr =>
      rw [hpc] at h
      exact ⟨h.1.of_same hsame now ctxErr, h.2.1.trans hsame.pending.symm, h.2.2⟩
    | stamping addr =>
      rw [hpc] at h
      exact ⟨h.1.of_same hsame now ctxErr, hsame.pending.trans h.2.1, h.2.2⟩
    | received conn =>
      rw [hpc] at h
      exact ⟨h.1.trans hsame.attempts.symm, h.2⟩
    | returned conn err =>
      rw [hpc] at h
      exact ⟨h.1.trans hsame.attempts.symm, h.2⟩

/-- While an attempt runs, an idle scheduler is running. -/
theorem Idle.running_of_attempt {ordered : List GoString} {s : State} {t : Static.State}
    (h : Idle ordered s t) (hcount : s.attempts.countP Attempt.running ≤ s.pending) {i : ℕ}
    {a : Attempt} (ha : s.attempts[i]? = some a) (hrun : a.running = true) :
    Running ordered s t := by
  cases h with
  | fresh h => exact absurd ha (by simp [h.attempts])
  | running h => exact h
  | lagging j b err h =>
    have hzero := Nat.le_zero.mp (h.pending ▸ hcount)
    exact absurd hrun (List.countP_eq_zero.mp hzero a (List.mem_of_getElem? ha))

/-- While an attempt runs, both races have the same attempts, and may replace them by others. -/
theorem Stage.attempts {ordered : List GoString} {s : State} {t : Static.State} {pc : SchedPc}
    (h : Stage ordered s t pc) (hcount : s.attempts.countP Attempt.running ≤ s.pending) {i : ℕ}
    {a : Attempt} (ha : s.attempts[i]? = some a) (hrun : a.running = true) :
    t.attempts = s.attempts ∧ ∀ (l : List Attempt) (produced : ℕ) (closes : List ℕ),
      Stage ordered { s with attempts := l, produced := produced, closes := closes }
        { t with attempts := l, produced := produced, closes := closes } pc := by
  cases pc with
  | top | advancing | select =>
    have hr := Idle.running_of_attempt h hcount ha hrun
    exact ⟨hr.attempts, fun l produced closes => .running
      ⟨hr.pc, rfl, hr.pending, hr.busy, hr.next_le, hr.order, hr.lastStart, hr.timer⟩⟩
  | popped addr | starting addr | stamping addr =>
    exact ⟨h.1.attempts, fun l produced closes => ⟨⟨rfl, h.1.order⟩, h.2⟩⟩
  | received conn | returned conn err =>
    exact ⟨h.1, fun l produced closes => ⟨rfl, h.2⟩⟩

/-! ### Moves that the static race does not see -/

/-- Returning cancels both contexts. -/
theorem Alike.or_canceled {s : State} {t : Static.State} (h : Alike s t) :
    t.ctxErr.or (some .canceled) = s.ctxErr.or (some .canceled) := by
  rw [h.ctxErr]

section Step

variable {ordered : List GoString} {s s' : State} {t : Static.State}

/-- The clock and the context may move on in both races. -/
theorem Sim.of_same (h : Sim ordered s t) (hsame : SameRace s s')
    (hproduced : s'.produced = s.produced) (hcloses : s'.closes = s.closes)
    (htrace : s'.trace = s.trace) (hnow : s.now ≤ s'.now)
    (hsched : s'.sched = s.sched ∨ s.sched.isIdle = true ∧ s'.sched.isIdle = true)
    (hlookups : ∀ isV6, (s'.resolver isV6).isIn = true) :
    Sim ordered s' { t with now := s'.now, ctxErr := s'.ctxErr } := by
  have hqueue : ∀ isV6, s'.feed.queue isV6 = s.feed.queue isV6 := by
    intro isV6
    cases isV6 with
    | false => exact hsame.v4
    | true => exact hsame.v6
  refine ⟨⟨rfl, rfl, h.alike.produced.trans hproduced.symm, h.alike.closes.trans hcloses.symm, ?_,
    h.alike.tick⟩, hlookups, ?_, h.stage.of_same hsame hnow hsched _ _⟩
  · refine h.alike.starts.trans ?_
    rw [State.starts, State.starts, htrace]
  · intro isV6
    rw [hqueue isV6]
    exact h.family isV6

/-- The step `e` of the incremental race is matched by a run of the static race. -/
def Matched (ordered : List GoString) (t : Static.State) (e : Event) (s' : State) : Prop :=
  ∃ fs t', runFrom (Static.step ordered) t fs = some t' ∧
    fs.filterMap Static.Event.env = e.env.toList ∧ Sim ordered s' t'

theorem Matched.none {e : Event} (henv : e.env = Option.none) (h : Sim ordered s' t) :
    Matched ordered t e s' := ⟨[], t, rfl, by rw [henv]; rfl, h⟩

theorem Matched.one {e : Event} (f : Static.Event) (t' : Static.State)
    (hstep : Static.step ordered t f = some t') (henv : f.env = e.env) (h : Sim ordered s' t') :
    Matched ordered t e s' := by
  refine ⟨[f], t', by rw [runFrom_cons, hstep]; rfl, ?_, h⟩
  cases hf : f.env with
  | none => rw [List.filterMap_cons_none hf, ← henv, hf]; rfl
  | some o => rw [List.filterMap_cons_some hf, ← henv, hf]; rfl

theorem Matched.two {e : Event} (f₁ f₂ : Static.Event) (t₁ t₂ : Static.State)
    (h₁ : Static.step ordered t f₁ = some t₁) (h₂ : Static.step ordered t₁ f₂ = some t₂)
    (he₁ : f₁.env = Option.none) (he₂ : f₂.env = Option.none) (henv : e.env = Option.none)
    (h : Sim ordered s' t₂) : Matched ordered t e s' := by
  refine ⟨[f₁, f₂], t₂, ?_, ?_, h⟩
  · rw [runFrom_cons, h₁, Option.bind_some, runFrom_cons, h₂]
    rfl
  · rw [List.filterMap_cons_none he₁, List.filterMap_cons_none he₂, henv]
    rfl

/-! ### Moves of the attempts -/

/-- Both races change the same attempt, and what it has produced and closed. -/
theorem Sim.setAttempt (h : Sim ordered s t)
    (hcount : s.attempts.countP Attempt.running ≤ s.pending) {i : ℕ} {a : Attempt}
    (ha : s.attempts[i]? = some a) (hrun : a.running = true) (l : List Attempt) (produced : ℕ)
    (closes : List ℕ) :
    Sim ordered { s with attempts := l, produced := produced, closes := closes }
      { t with attempts := l, produced := produced, closes := closes } :=
  ⟨⟨h.alike.now, h.alike.ctxErr, rfl, rfl, h.alike.starts, h.alike.tick⟩, h.lookups, h.family,
    (h.stage.attempts hcount ha hrun).2 l produced closes⟩

theorem Sim.dialDone (h : Sim ordered s t)
    (hcount : s.attempts.countP Attempt.running ≤ s.pending) {i : ℕ} {a : Attempt} {conn : Bool}
    {err : Option NetError} (ha : s.attempts[i]? = some a) (hpc : a.pc = .dialing) :
    Matched ordered t (.dialDone i conn err) { s with
      produced := s.produced + conn.toNat
      attempts := s.attempts.set i { a with
        pc := .dialed (if conn then some s.produced else none) (err.map .net) } } := by
  have hrun : a.running = true := by rw [Attempt.running, hpc]; rfl
  have hat := (h.stage.attempts hcount ha hrun).1
  refine .one (.dialDone i conn err) _ ?_ rfl (h.setAttempt hcount ha hrun _ _ s.closes)
  simp only [Static.step, hat, ha, hpc, if_true, h.alike.produced, h.alike.closes]

theorem Sim.settle (h : Sim ordered s t)
    (hcount : s.attempts.countP Attempt.running ≤ s.pending) {i : ℕ} {a : Attempt}
    {conn : Option ℕ} {err : Option RaceError} {attemptErr : Option NetError}
    (ha : s.attempts[i]? = some a) (hpc : a.pc = .dialed conn err)
    (hok : attemptErrOk s.now s.ctxErr a attemptErr) :
    Matched ordered t (.settle i attemptErr)
      ((s.close (discarded conn err attemptErr)).setAttempt i { a with
        pc := .offering (offer conn err attemptErr).1 (offer conn err attemptErr).2 }) := by
  have hrun : a.running = true := by rw [Attempt.running, hpc]; rfl
  have hat := (h.stage.attempts hcount ha hrun).1
  have hok' : attemptErrOk t.now t.ctxErr a attemptErr := by
    rw [h.alike.now, h.alike.ctxErr]
    exact hok
  refine .one (.settle i attemptErr) _ ?_ rfl (h.setAttempt hcount ha hrun _ s.produced _)
  simp only [Static.step, hat, ha, hpc, hok', if_true, Static.State.setAttempt, Static.State.close,
    h.alike.closes]
  rw [← h.alike.produced]
  rfl

theorem Sim.giveUp (h : Sim ordered s t)
    (hcount : s.attempts.countP Attempt.running ≤ s.pending) {i : ℕ} {a : Attempt}
    {conn : Option ℕ} {err : Option RaceError} (ha : s.attempts[i]? = some a)
    (hpc : a.pc = .offering conn err) (hctx : s.ctxErr ≠ none) :
    Matched ordered t (.giveUp i) ((s.close conn).setAttempt i { a with pc := .finished }) := by
  have hrun : a.running = true := by rw [Attempt.running, hpc]; rfl
  have hat := (h.stage.attempts hcount ha hrun).1
  refine .one (.giveUp i) _ ?_ rfl (h.setAttempt hcount ha hrun _ s.produced _)
  simp only [Static.step, hat, ha, hpc, h.alike.ctxErr, if_pos hctx, Static.State.setAttempt,
    Static.State.close, h.alike.closes]
  rw [← h.alike.produced]
  rfl

/-! ### Moves of the scheduler -/

/-- Both functions return. -/
theorem Sim.ret (h : Sim ordered s t) (hattempts : t.attempts = s.attempts) (conn : Option ℕ)
    (err : Option RaceError) : Sim ordered (s.ret conn err) (t.ret conn err) := by
  exact ⟨⟨h.alike.now, h.alike.or_canceled, h.alike.produced, h.alike.closes, h.alike.starts,
    h.alike.tick⟩, h.lookups, h.family, hattempts, rfl⟩

/-- A candidate is taken; in the static race the order is opened, or the timer has fired. -/
theorem Sim.advancePop (h : Sim ordered s t) (hsched : s.sched = .advancing true)
    (hdue : ∀ ready, s.nextReadyAt = some ready → ready ≤ s.now) {isV6 : Bool} {addr : GoString}
    {rest : List GoString} (hq : s.feed.queue isV6 = addr :: rest)
    (horder : popOrder s.lastFamily s.feed =
      addr :: popOrder (familyOf isV6) (s.feed.setQueue isV6 rest)) :
    Matched ordered t .advance
      { s with feed := s.feed.setQueue isV6 rest, sched := .popped addr } := by
  have hne : s.feed.isEmpty = false := by
    rw [Bool.eq_false_iff]
    intro hempty
    rw [popOrder_eq_nil_iff.mpr hempty] at horder
    exact absurd horder (by simp)
  have hfam : familyByte addr = familyOf isV6 := h.family isV6 addr (hq ▸ List.mem_cons_self)
  rw [← hfam] at horder
  have hsim (timer : Option ℕ) (hattempts : t.attempts = s.attempts)
      (hpending : t.pending = s.pending)
      (hdrop : ordered.drop t.next = popOrder s.lastFamily s.feed) :
      Sim ordered { s with feed := s.feed.setQueue isV6 rest, sched := .popped addr }
        { t with timer := timer, tick := false, pc := .popped addr } := by
    refine ⟨⟨h.alike.now, h.alike.ctxErr, h.alike.produced, h.alike.closes, h.alike.starts, rfl⟩,
      h.lookups, ?_, ⟨hattempts, hdrop.trans horder⟩, hpending, rfl⟩
    intro b addr' hmem
    refine h.family b addr' ?_
    by_cases hb : b = isV6
    · subst hb
      rw [Feed.queue_setQueue] at hmem
      rw [hq]
      exact List.mem_cons_of_mem addr hmem
    · rwa [Feed.queue_setQueue_of_ne _ hb] at hmem
  have hstage := h.stage
  rw [hsched] at hstage
  cases hstage with
  | fresh hf =>
    have hord : ordered = addr :: popOrder (familyByte addr) (s.feed.setQueue isV6 rest) :=
      hf.order.trans horder
    have hmoved := hsim t.timer (hf.attempts'.trans hf.attempts.symm) hf.pending
      (by rw [hf.next, List.drop_zero]; exact hf.order)
    rw [← h.alike.tick] at hmoved
    refine .one .enter _ ?_ rfl hmoved
    rw [hord]
    simp only [Static.step, hf.pc, if_true]
  | running hr =>
    obtain ⟨ready, hready, hcan⟩ := hr.timer
    obtain ⟨at', hat, hle⟩ := hcan hne
    have hfires : at' ≤ t.now := by
      rw [h.alike.now]
      exact hle.trans (max_le le_rfl (hdue ready hready))
    have hget : ordered[t.next]? = some addr := by
      rw [← List.head?_drop, hr.order, horder]
      rfl
    refine .two .fire .selectTick { t with timer := none, tick := true } _ ?_ ?_ rfl
      rfl rfl (hsim none hr.attempts hr.pending hr.order)
    · simp only [Static.step, hat, if_pos hfires]
    · simp only [Static.step, hr.pc, hget, and_self, if_true]
  | lagging i a err hl => exact absurd hl.empty (by simp [hne])

theorem Sim.checkCtx (h : Sim ordered s t) {addr : GoString} (hsched : s.sched = .popped addr)
    (hctx : s.ctxErr = none) : Matched ordered t .checkCtx { s with sched := .starting addr } := by
  have hstage := h.stage
  rw [hsched] at hstage
  refine .one .checkCtx { t with pc := .starting addr } ?_ rfl
    ⟨⟨h.alike.now, h.alike.ctxErr, h.alike.produced, h.alike.closes, h.alike.starts, h.alike.tick⟩,
      h.lookups, h.family, ⟨hstage.1.attempts, hstage.1.order⟩, hstage.2.1, rfl⟩
  simp only [Static.step, hstage.2.2, h.alike.ctxErr, hctx]

theorem Sim.checkCtxDone (h : Sim ordered s t) {addr : GoString} {err : NetError}
    (hsched : s.sched = .popped addr) (hctx : s.ctxErr = some err) :
    Matched ordered t .checkCtx (s.ret none (some (.net err))) := by
  have hstage := h.stage
  rw [hsched] at hstage
  refine .one .checkCtx _ ?_ rfl (h.ret hstage.1.attempts none (some (.net err)))
  simp only [Static.step, hstage.2.2, h.alike.ctxErr, hctx]

theorem Sim.start (h : Sim ordered s t) {addr : GoString} (hsched : s.sched = .starting addr) :
    Matched ordered t .start { s with
      attempts := s.attempts ++ [{ addr := addr, startedAt := s.now, pc := .dialing }]
      trace := s.trace ++ [.start addr s.now]
      started := s.started + 1
      pending := s.pending + 1
      sched := .stamping addr } := by
  have hstage := h.stage
  rw [hsched] at hstage
  refine .one .start ({ t with
    attempts := t.attempts ++ [{ addr := addr, startedAt := t.now, pc := .dialing }]
    starts := t.starts ++ [(addr, t.now)]
    pc := .stamping }) ?_ rfl
    ⟨⟨h.alike.now, h.alike.ctxErr, h.alike.produced, h.alike.closes, ?_, h.alike.tick⟩, h.lookups,
      h.family, ⟨?_, hstage.1.order⟩, by rw [hstage.2.1], rfl⟩
  · simp only [Static.step, hstage.2.2]
  · rw [State.starts, List.filterMap_append, h.alike.starts, h.alike.now]
    rfl
  · rw [hstage.1.attempts, h.alike.now]

theorem Sim.stamp (h : Sim ordered s t) {addr : GoString} (hsched : s.sched = .stamping addr)
    (keepTick : Bool) :
    Matched ordered t (.stamp keepTick) ({ s with
      lastStart := s.now
      lastFamily := familyByte addr
      nextReadyAt := some (s.now + tcpFallbackDelay)
      sched := .top }.resetTimer (s.now + tcpFallbackDelay) keepTick) := by
  have hstage := h.stage
  rw [hsched] at hstage
  obtain ⟨htaken, hpending, hpc⟩ := hstage
  have hlt : t.next < ordered.length := by
    refine Nat.lt_of_not_le fun hle => ?_
    rw [← List.drop_eq_nil_iff, htaken.order] at hle
    exact absurd hle (List.cons_ne_nil _ _)
  refine .one .stamp ({ t with
    lastStart := t.now
    next := t.next + 1
    pending := t.pending + 1
    pc := .select }.resetTimer (t.now + tcpFallbackDelay)) ?_ rfl
    ⟨⟨h.alike.now, h.alike.ctxErr, h.alike.produced, h.alike.closes, h.alike.starts, rfl⟩,
      h.lookups, h.family, .running ⟨rfl, htaken.attempts, hpending.symm, ?_, ?_, ?_, h.alike.now,
        s.now + tcpFallbackDelay, rfl, ?_⟩⟩
  · simp only [Static.step, hpc]
  · intro _
    exact hpending ▸ Nat.succ_pos t.pending
  · exact hlt
  · show ordered.drop (t.next + 1) = popOrder (familyByte addr) s.feed
    rw [← List.drop_drop, htaken.order]
    rfl
  · intro _
    exact ⟨t.now + tcpFallbackDelay, rfl, by rw [h.alike.now]; exact le_max_right _ _⟩

/-- An idle scheduler sees the end of the context.  If the static race has not begun it opens the
order first, and if it still has the last failure before it the attempt keeps that. -/
theorem Sim.selectCtx (h : Sim ordered s t) {err : NetError} (hsched : s.sched = .select)
    (hctx : s.ctxErr = some err) : Matched ordered t .selectCtx (s.ret none (some (.net err))) := by
  have hctx' : t.ctxErr = some err := h.alike.ctxErr.trans hctx
  have hstage := h.stage
  rw [hsched] at hstage
  cases hstage with
  | fresh hf =>
    obtain ⟨isV6, addr, rest, -, -, horder⟩ := popOrder_of_pop hf.ne s.lastFamily
    have hord := hf.order.trans horder
    refine .two .enter .checkCtx { t with pc := .popped addr } _ ?_ ?_ rfl rfl rfl
      (h.ret (hf.attempts'.trans hf.attempts.symm) none (some (.net err)))
    · rw [hord]
      simp only [Static.step, hf.pc, if_true]
    · simp only [Static.step, hctx', Static.State.ret]
  | running hr =>
    refine .one .selectCtx _ ?_ rfl (h.ret hr.attempts none (some (.net err)))
    simp only [Static.step, hr.pc, hctx', if_true]
  | lagging i a lastErr hl =>
    refine .two .selectCtx (.giveUp i) (t.ret none (some (.net err)))
      { t.ret none (some (.net err)) with attempts := s.attempts } ?_ ?_ rfl rfl rfl
      ⟨⟨h.alike.now, h.alike.or_canceled, h.alike.produced, h.alike.closes, h.alike.starts,
        h.alike.tick⟩, h.lookups, h.family, rfl, rfl⟩
    · simp only [Static.step, hl.pc, hctx', if_true]
    · simp only [Static.step, Static.State.ret, hl.offers, hl.offer, hctx', Static.State.close,
        Static.State.setAttempt, hl.attempts]
      simp

theorem Sim.selectConn (h : Sim ordered s t)
    (hcount : s.attempts.countP Attempt.running ≤ s.pending) {i : ℕ} {a : Attempt} {conn : ℕ}
    {err : Option RaceError} (keepTick : Bool) (hsched : s.sched = .select)
    (ha : s.attempts[i]? = some a) (hpc : a.pc = .offering (some conn) err) :
    Matched ordered t (.selectResult i keepTick)
      ({ s with pending := s.pending - 1, sched := .received conn }.setAttempt i
        { a with pc := .finished }) := by
  have hrun : a.running = true := by rw [Attempt.running, hpc]; rfl
  have hstage := h.stage
  rw [hsched] at hstage
  have hr := Idle.running_of_attempt hstage hcount ha hrun
  refine .one (.selectResult i)
    ({ t with pending := t.pending - 1, pc := .received conn }.setAttempt i
      { a with pc := .finished }) ?_ rfl
    ⟨⟨h.alike.now, h.alike.ctxErr, h.alike.produced, h.alike.closes, h.alike.starts, h.alike.tick⟩,
      h.lookups, h.family, ?_, rfl⟩
  · simp only [Static.step, hr.pc, if_true, hr.attempts, ha, hpc]
  · exact congrArg (List.set · i { a with pc := .finished }) hr.attempts

theorem Sim.checkWinner (h : Sim ordered s t) {conn : ℕ} (hsched : s.sched = .received conn)
    (hctx : s.ctxErr = none) : Matched ordered t .checkWinner (s.ret (some conn) none) := by
  have hstage := h.stage
  rw [hsched] at hstage
  refine .one .checkWinner _ ?_ rfl (h.ret hstage.1 (some conn) none)
  simp only [Static.step, hstage.2, h.alike.ctxErr, hctx]

theorem Sim.discardWinner (h : Sim ordered s t) {conn : ℕ} {err : NetError}
    (hsched : s.sched = .received conn) (hctx : s.ctxErr = some err) :
    Matched ordered t .checkWinner ((s.close (some conn)).ret none (some (.net err))) := by
  have hstage := h.stage
  rw [hsched] at hstage
  have hclosed : Sim ordered (s.close (some conn)) (t.close (some conn)) := by
    refine ⟨⟨h.alike.now, h.alike.ctxErr, h.alike.produced, ?_, h.alike.starts, h.alike.tick⟩,
      h.lookups, h.family, ?_⟩
    · exact congrArg (· ++ [conn]) h.alike.closes
    · rw [State.close, hsched]
      exact hstage
  refine .one .checkWinner _ ?_ rfl (hclosed.ret hstage.1 none (some (.net err)))
  simp only [Static.step, hstage.2, h.alike.ctxErr, hctx]

/-- Everything has failed.  The static race receives the last failure only now. -/
theorem Sim.advanceEnd (h : Sim ordered s t) {due : Bool} (hsched : s.sched = .advancing due)
    (hempty : s.feed.isEmpty = true) (hpending : s.pending = 0) :
    Matched ordered t .advance (s.ret none (some (s.feed.finalError s.started s.lastErr))) := by
  have hstage := h.stage
  rw [hsched] at hstage
  cases hstage with
  | fresh hf => exact absurd hempty (by simp [hf.ne])
  | running hr => exact absurd (hr.busy hempty) (by simp [hpending])
  | lagging i a err hl =>
    have hfinal : s.feed.finalError s.started s.lastErr = err := by
      simp [Feed.finalError, hl.started, hl.lastErr]
    rw [hfinal]
    refine .one (.selectResult i)
      ({ t with pending := 0, lastErr := some err, attempts := s.attempts }.ret none
        (some err)) ?_ rfl
      ⟨⟨h.alike.now, h.alike.or_canceled, h.alike.produced, h.alike.closes, h.alike.starts,
        h.alike.tick⟩, h.lookups, h.family, rfl, rfl⟩
    · simp only [Static.step, hl.pc, hl.offers, hl.offer, if_true, Static.State.failed,
        Static.State.setAttempt, hl.pending', hl.next, hl.attempts, Nat.sub_self, and_self]

/-- The order is used up when the feed is empty. -/
theorem Running.next_eq_iff (hr : Running ordered s t) :
    t.next = ordered.length ↔ s.feed.isEmpty = true := by
  rw [← popOrder_eq_nil_iff, ← hr.order, List.drop_eq_nil_iff]
  exact ⟨fun h => h.ge, fun h => hr.next_le.antisymm h⟩

/-- The incremental race after a failed result, with a new window. -/
def afterFailure (s : State) (i : ℕ) (a : Attempt) (err : RaceError) (ready : ℕ) (timer : Option ℕ)
    (tick : Bool) : State :=
  { s with
    pending := s.pending - 1
    lastErr := some err
    trace := s.trace ++ [Obs.failure s.now]
    sched := .top
    attempts := s.attempts.set i { a with pc := .finished }
    nextReadyAt := some ready
    timer := timer
    tick := tick }

/-- A failed result starts nothing. -/
theorem starts_afterFailure {i : ℕ} {a : Attempt} {err : RaceError} {ready : ℕ} {timer : Option ℕ}
    {tick : Bool} : s.starts = (afterFailure s i a err ready timer tick).starts := by
  rw [State.starts, State.starts, afterFailure, List.filterMap_append]
  exact (List.append_nil _).symm

section Failure

variable {i : ℕ} {a : Attempt} {err : RaceError} {ready : ℕ} {timer : Option ℕ} {tick : Bool}
  (keepTick : Bool) (h : Sim ordered s t) (hr : Running ordered s t) (ha : s.attempts[i]? = some a)
  (hpc : a.pc = .offering none (some err))

include h hr ha hpc

/-- With an address left, the static race sets its timer. -/
theorem Sim.failure_more (hle : s.lastStart + tcpMinimumDelay ≤ ready)
    (hempty : s.feed.isEmpty = false) : Matched ordered t (.selectResult i keepTick)
    (afterFailure s i a err ready timer tick) := by
  have hne : t.next ≠ ordered.length := by simp [hr.next_eq_iff, hempty]
  refine .one (.selectResult i) ({ t with
    attempts := s.attempts.set i { a with pc := .finished }
    pending := t.pending - 1
    lastErr := some err }.resetTimer (max t.now (t.lastStart + tcpMinimumDelay))) ?_ rfl
    ⟨⟨h.alike.now, h.alike.ctxErr, h.alike.produced, h.alike.closes,
      h.alike.starts.trans starts_afterFailure, rfl⟩, h.lookups, h.family,
      .running ⟨hr.pc, rfl, congrArg (· - 1) hr.pending, ?_, hr.next_le, hr.order, hr.lastStart,
        ready, rfl, ?_⟩⟩
  · simp [Static.step, hr.pc, hr.attempts, ha, hpc, Static.State.failed, Static.State.setAttempt,
      hne, hr.next_le.lt_of_ne hne]
  · intro hcontra
    exact absurd hcontra (by simp [afterFailure, hempty])
  · intro _
    refine ⟨_, rfl, ?_⟩
    rw [h.alike.now, hr.lastStart]
    exact max_le_max_left s.now hle

/-- With no address left and other attempts running, it goes on. -/
theorem Sim.failure_wait (hempty : s.feed.isEmpty = true) (hmore : s.pending ≠ 1) :
    Matched ordered t (.selectResult i keepTick) (afterFailure s i a err ready timer tick) := by
  have hpos := hr.busy hempty
  refine .one (.selectResult i) { t with
    attempts := s.attempts.set i { a with pc := .finished }
    pending := t.pending - 1
    lastErr := some err } ?_ rfl
    ⟨⟨h.alike.now, h.alike.ctxErr, h.alike.produced, h.alike.closes,
      h.alike.starts.trans starts_afterFailure, h.alike.tick⟩, h.lookups, h.family,
      .running ⟨hr.pc, rfl, congrArg (· - 1) hr.pending, ?_, hr.next_le, hr.order, hr.lastStart,
        ready, rfl, ?_⟩⟩
  · have hpending : t.pending - 1 ≠ 0 := by
      rw [hr.pending]
      omega
    simp [Static.step, hr.pc, hr.attempts, ha, hpc, Static.State.failed, Static.State.setAttempt,
      hr.next_eq_iff.mpr hempty, hpending]
  · intro _
    show 0 < s.pending - 1
    omega
  · intro hcontra
    exact absurd hcontra (by simp [afterFailure, hempty])

/-- The last failure of all is left with its attempt. -/
theorem Sim.failure_last (hstarted : s.started = s.attempts.length) (hempty : s.feed.isEmpty = true)
    (hlast : s.pending = 1) :
    Matched ordered t (.selectResult i keepTick) (afterFailure s i a err ready timer tick) := by
  refine .none rfl ⟨⟨h.alike.now, h.alike.ctxErr, h.alike.produced, h.alike.closes,
    h.alike.starts.trans starts_afterFailure, h.alike.tick⟩, h.lookups, h.family,
    .lagging i a err ⟨hr.pc, hr.attempts ▸ ha, hpc, ?_, ?_, hr.pending.trans hlast, hempty,
      hr.next_eq_iff.mpr hempty, rfl, ?_⟩⟩
  · rw [hr.attempts]
    rfl
  · exact congrArg (· - 1) hlast
  · show 0 < s.started
    rw [hstarted]
    exact List.length_pos_of_mem (List.mem_of_getElem? ha)

end Failure

/-- A failed result is received.  The static race leaves the last failure of all with its attempt;
after any other it sets its timer, if there is an address left. -/
theorem Sim.selectFailure (h : Sim ordered s t)
    (hcount : s.attempts.countP Attempt.running ≤ s.pending)
    (hstarted : s.started = s.attempts.length)
    (hwindow : ∀ ready, s.nextReadyAt = some ready → s.lastStart + tcpMinimumDelay ≤ ready) {i : ℕ}
    {a : Attempt} {err : RaceError} (keepTick : Bool) (hsched : s.sched = .select)
    (ha : s.attempts[i]? = some a) (hpc : a.pc = .offering none (some err)) :
    Matched ordered t (.selectResult i keepTick)
      (shrinkWindow ({ s with
        pending := s.pending - 1
        lastErr := some err
        trace := s.trace ++ [Obs.failure s.now]
        sched := .top }.setAttempt i { a with pc := .finished }) keepTick) := by
  have hrun : a.running = true := by rw [Attempt.running, hpc]; rfl
  have hstage := h.stage
  rw [hsched] at hstage
  have hr := Idle.running_of_attempt hstage hcount ha hrun
  obtain ⟨ready, hready, -⟩ := hr.timer
  obtain ⟨ready', timer, tick, hle, heq⟩ := shrinkWindow_window (s := { s with
    pending := s.pending - 1
    lastErr := some err
    trace := s.trace ++ [Obs.failure s.now]
    sched := .top }.setAttempt i { a with pc := .finished }) hready (hwindow ready hready) keepTick
  rw [heq]
  show Matched ordered t (.selectResult i keepTick) (afterFailure s i a err ready' timer tick)
  cases hempty : s.feed.isEmpty with
  | false => exact h.failure_more keepTick hr ha hpc hle hempty
  | true =>
    by_cases hlast : s.pending = 1
    · exact h.failure_last keepTick hr ha hpc hstarted hempty hlast
    · exact h.failure_wait keepTick hr ha hpc hempty hlast

end Step

end Dial
end ForwardProxy
