import ForwardProxy.Core.Transition

/-!
# A watchdog

A loop watches over some activity with a timer.  Whoever is active leaves a mark in a slot that
holds one mark, and does not wait if there is one already; the loop takes the mark away and sets the
timer again, and ends when the timer has fired.  Setting the timer again is three actions on it: it
is stopped, a tick that was too early to be stopped is taken out of the channel, and the timer is
armed.

There are two things to go wrong.  A tick of a timer that was set before the last activity may be
left over, and then the watchdog ends too early; and a mark may be lost, and then activity does not
count.  Neither happens (`timeout_le_of_expire`, `canExpire_iff`), but the loop takes what is there
in any order: when a mark and a tick lie there at the same time, it may take the tick.
-/

namespace ForwardProxy
namespace Core
namespace Watchdog

/-- Where the loop stands. -/
inductive Phase where
  /-- The timer has not been made. -/
  | fresh
  | watching
  | ended
  deriving DecidableEq, Repr

/-- The state of a watchdog. -/
structure State where
  now : ℕ := 0
  /-- When the timer is armed, the time it will fire. -/
  timer : Option ℕ := none
  /-- A tick lies in the channel of the timer. -/
  tick : Bool := false
  /-- A mark lies in the slot. -/
  mark : Bool := false
  phase : Phase := .fresh

/-- One action. -/
inductive Event where
  | elapse (d : ℕ)
  /-- The timer fires. -/
  | fire
  /-- The timer is made. -/
  | start
  /-- Someone leaves a mark. -/
  | notify
  /-- The loop takes the mark, and sets the timer again. -/
  | restart
  /-- The loop takes the tick. -/
  | expire
  /-- The loop ends for another reason. -/
  | stop
  /-- The timer is stopped for good. -/
  | discard
  deriving DecidableEq, Repr

/-- One step, with this timeout.  `none` means that the action is not enabled. -/
def step (timeout : ℕ) (s : State) : Event → Option State
  | .elapse d => some { s with now := s.now + d }
  | .fire =>
    match s.timer with
    | some t => if t ≤ s.now then some { s with timer := none, tick := true } else none
    | none => none
  | .start =>
    if s.phase = .fresh then
      some { s with timer := some (s.now + timeout), phase := .watching }
    else none
  | .notify => some { s with mark := true }
  | .restart =>
    if s.phase = .watching ∧ s.mark = true then
      some { s with
        mark := false, timer := some (s.now + timeout)
        tick := if s.timer = none then false else s.tick }
    else none
  | .expire =>
    if s.phase = .watching ∧ s.tick = true then
      some { s with tick := false, phase := .ended }
    else none
  | .stop => if s.phase = .watching then some { s with phase := .ended } else none
  | .discard => if s.phase = .ended then some { s with timer := none } else none

variable {timeout : ℕ} {s s' : State} {e : Event}

/-- What one step can do. -/
inductive Move (timeout : ℕ) (s : State) : Event → State → Prop where
  | elapse (d : ℕ) : Move timeout s (.elapse d) { s with now := s.now + d }
  | fire {t : ℕ} (htimer : s.timer = some t) (hdue : t ≤ s.now) :
      Move timeout s .fire { s with timer := none, tick := true }
  | start (hphase : s.phase = .fresh) :
      Move timeout s .start { s with timer := some (s.now + timeout), phase := .watching }
  | notify : Move timeout s .notify { s with mark := true }
  | restart (hphase : s.phase = .watching) (hmark : s.mark = true) :
      Move timeout s .restart { s with
        mark := false, timer := some (s.now + timeout)
        tick := if s.timer = none then false else s.tick }
  | expire (hphase : s.phase = .watching) (htick : s.tick = true) :
      Move timeout s .expire { s with tick := false, phase := .ended }
  | stop (hphase : s.phase = .watching) : Move timeout s .stop { s with phase := .ended }
  | discard (hphase : s.phase = .ended) : Move timeout s .discard { s with timer := none }

theorem move_of_step (h : step timeout s e = some s') : Move timeout s e s' := by
  cases e with
  | elapse d =>
    obtain rfl := Option.some_inj.mp h
    exact .elapse d
  | fire =>
    cases htimer : s.timer with
    | none => simp [step, htimer] at h
    | some t =>
      simp only [step, htimer] at h
      obtain ⟨hdue, ⟨⟩⟩ := Option.ite_none_right_eq_some.mp h
      exact .fire htimer hdue
  | start =>
    obtain ⟨hphase, ⟨⟩⟩ := Option.ite_none_right_eq_some.mp h
    exact .start hphase
  | notify =>
    obtain rfl := Option.some_inj.mp h
    exact .notify
  | restart =>
    obtain ⟨hc, ⟨⟩⟩ := Option.ite_none_right_eq_some.mp h
    exact .restart hc.1 hc.2
  | expire =>
    obtain ⟨hc, ⟨⟩⟩ := Option.ite_none_right_eq_some.mp h
    exact .expire hc.1 hc.2
  | stop =>
    obtain ⟨hphase, ⟨⟩⟩ := Option.ite_none_right_eq_some.mp h
    exact .stop hphase
  | discard =>
    obtain ⟨hphase, ⟨⟩⟩ := Option.ite_none_right_eq_some.mp h
    exact .discard hphase

/-! ## The timer and its channel -/

/-- While the timer is armed its channel is empty, and before it is made there is neither. -/
structure Wound (s : State) : Prop where
  armed : s.timer ≠ none → s.tick = false
  fresh : s.phase = .fresh → s.timer = none ∧ s.tick = false

theorem Wound.init (now : ℕ) : Wound { now := now } := ⟨fun _ => rfl, fun _ => ⟨rfl, rfl⟩⟩

/-- Setting the timer again leaves no tick behind. -/
theorem Wound.tick_restart (h : Wound s) : (if s.timer = none then false else s.tick) = false := by
  split_ifs with htimer
  · rfl
  · exact h.armed htimer

theorem Wound.move (h : Wound s) (hm : Move timeout s e s') : Wound s' := by
  cases hm with
  | elapse d => exact ⟨h.armed, h.fresh⟩
  | fire htimer hdue =>
    refine ⟨fun hne => absurd rfl hne, fun hfresh => ?_⟩
    exact absurd ((h.fresh hfresh).1.symm.trans htimer) (by simp)
  | start hphase => exact ⟨fun _ => (h.fresh hphase).2, fun hfresh => absurd hfresh (by simp)⟩
  | notify => exact ⟨h.armed, h.fresh⟩
  | restart hphase hmark =>
    exact ⟨fun _ => h.tick_restart, fun hfresh => absurd (hphase.symm.trans hfresh) (by simp)⟩
  | expire hphase htick => exact ⟨fun _ => rfl, fun hfresh => absurd hfresh (by simp)⟩
  | stop hphase => exact ⟨h.armed, fun hfresh => absurd hfresh (by simp)⟩
  | discard hphase =>
    exact ⟨fun hne => absurd rfl hne, fun hfresh => absurd (hphase.symm.trans hfresh) (by simp)⟩

theorem wound_of_runFrom {now : ℕ} {es : List Event}
    (hrun : runFrom (step timeout) { now := now } es = some s) : Wound s :=
  runFrom_invariant (fun _ _ _ h hs => h.move (move_of_step hs)) (.init now) hrun

/-! ## No mark is lost -/

/-- What was marked at `t` counts: the mark still lies in the slot, or whatever the timer does from
now on, it does not do before `t + timeout`. -/
structure Counts (timeout t : ℕ) (s : State) : Prop where
  le_now : t ≤ s.now
  kept : s.mark = true ∨
    (∀ d, s.timer = some d → t + timeout ≤ d) ∧ (s.tick = true → t + timeout ≤ s.now)

theorem Counts.move {t : ℕ} (h : Counts timeout t s) (hw : Wound s) (hm : Move timeout s e s') :
    Counts timeout t s' := by
  obtain ⟨hle, hkept⟩ := h
  cases hm with
  | elapse d =>
    refine ⟨Nat.le_add_right_of_le hle, hkept.imp_right fun h => ⟨h.1, fun htick => ?_⟩⟩
    exact Nat.le_add_right_of_le (h.2 htick)
  | fire htimer hdue =>
    refine ⟨hle, hkept.imp_right fun h => ⟨fun d hd => absurd hd (by simp), fun _ => ?_⟩⟩
    exact Nat.le_trans (h.1 _ htimer) hdue
  | start hphase =>
    refine ⟨hle, Or.inr ⟨?_, fun htick => ?_⟩⟩
    · rintro d ⟨⟩
      exact Nat.add_le_add_right hle timeout
    · exact absurd ((hw.fresh hphase).2.symm.trans htick) (by simp)
  | notify => exact ⟨hle, Or.inl rfl⟩
  | restart hphase hmark =>
    refine ⟨hle, Or.inr ⟨?_, fun htick => ?_⟩⟩
    · rintro d ⟨⟩
      exact Nat.add_le_add_right hle timeout
    · exact absurd (hw.tick_restart.symm.trans htick) (by simp)
  | expire hphase htick =>
    exact ⟨hle, hkept.imp_right fun h => ⟨h.1, fun hfalse => absurd hfalse (by simp)⟩⟩
  | stop hphase => exact ⟨hle, hkept⟩
  | discard hphase =>
    exact ⟨hle, hkept.imp_right fun h => ⟨fun d hd => absurd hd (by simp), h.2⟩⟩

/-- **A watchdog is not early.**  When it ends because of its timer, every mark that was left before
was left a timeout ago, or one still lies in the slot. -/
theorem timeout_le_of_expire {now : ℕ} {es₁ es₂ : List Event} {s₁ : State}
    (hmark : runFrom (step timeout) { now := now } es₁ = some s₁)
    (hrun : runFrom (step timeout) { now := now } (es₁ ++ .notify :: es₂) = some s)
    (hexpire : step timeout s .expire = some s') : s₁.now + timeout ≤ s.now ∨ s.mark = true := by
  have hrest : runFrom (step timeout) { s₁ with mark := true } es₂ = some s := by
    rw [runFrom_append, hmark, Option.bind_some, runFrom_cons] at hrun
    exact hrun
  have hwound : Wound { s₁ with mark := true } :=
    (wound_of_runFrom hmark).move (.notify : Move timeout s₁ .notify { s₁ with mark := true })
  have hcounts : Wound s ∧ Counts timeout s₁.now s := by
    refine runFrom_invariant (P := fun u => Wound u ∧ Counts timeout s₁.now u) ?_
      ⟨hwound, Nat.le_refl _, Or.inl rfl⟩ hrest
    intro u e u' hu hstep
    exact ⟨hu.1.move (move_of_step hstep), hu.2.move hu.1 (move_of_step hstep)⟩
  have htick : s.tick = true := (Option.ite_none_right_eq_some.mp hexpire).1.2
  rcases hcounts.2.kept with hlies | htimer
  · exact Or.inr hlies
  · exact Or.inl (htimer.2 htick)

/-! ## No timeout is missed -/

/-- The loop can end because of its timer: at once, or when the timer has fired. -/
def CanExpire (timeout : ℕ) (s : State) : Prop :=
  (∃ s', step timeout s .expire = some s') ∨
    ∃ u s', step timeout s .fire = some u ∧ step timeout u .expire = some s'

/-- The tick is there, or the timer is due. -/
theorem canExpire_iff_due : CanExpire timeout s ↔
    s.phase = .watching ∧ (s.tick = true ∨ ∃ t, s.timer = some t ∧ t ≤ s.now) := by
  constructor
  · rintro (⟨s', h⟩ | ⟨u, s', hfire, h⟩)
    · have hc := (Option.ite_none_right_eq_some.mp h).1
      exact ⟨hc.1, Or.inl hc.2⟩
    · have hphase := (Option.ite_none_right_eq_some.mp h).1.1
      cases move_of_step hfire with
      | fire htimer hdue => exact ⟨hphase, Or.inr ⟨_, htimer, hdue⟩⟩
  · rintro ⟨hphase, htick | ⟨t, htimer, hdue⟩⟩
    · exact Or.inl ⟨_, if_pos ⟨hphase, htick⟩⟩
    · refine Or.inr ⟨{ s with timer := none, tick := true }, _, ?_, if_pos ⟨hphase, rfl⟩⟩
      simp only [step, htimer, if_pos hdue]

/-- The timer that was set at `t` is armed, or its tick lies in the channel. -/
def SetAt (timeout t : ℕ) (s : State) : Prop :=
  s.phase = .watching →
    s.timer = some (t + timeout) ∧ s.tick = false ∨
      s.timer = none ∧ s.tick = true ∧ t + timeout ≤ s.now

theorem SetAt.move {t : ℕ} (h : SetAt timeout t s) (hm : Move timeout s e s') (hstart : e ≠ .start)
    (hrestart : e ≠ .restart) : SetAt timeout t s' := by
  intro hphase
  cases hm with
  | elapse d =>
    refine (h hphase).imp_right fun hfired => ⟨hfired.1, hfired.2.1, ?_⟩
    exact Nat.le_add_right_of_le hfired.2.2
  | fire htimer hdue =>
    rcases h hphase with ⟨harmed, -⟩ | ⟨hnone, -⟩
    · rw [Option.some_inj.mp (harmed.symm.trans htimer)]
      exact Or.inr ⟨rfl, rfl, hdue⟩
    · exact absurd (hnone.symm.trans htimer) (by simp)
  | start => exact absurd rfl hstart
  | notify => exact h hphase
  | restart => exact absurd rfl hrestart
  | expire => exact absurd hphase (by simp)
  | stop => exact absurd hphase (by simp)
  | discard hended => exact absurd (hended.symm.trans hphase) (by simp)

theorem SetAt.canExpire_iff {t : ℕ} (h : SetAt timeout t s) (hphase : s.phase = .watching) :
    CanExpire timeout s ↔ t + timeout ≤ s.now := by
  rw [canExpire_iff_due, and_iff_right hphase]
  rcases h hphase with ⟨htimer, htick⟩ | ⟨htimer, htick, hdue⟩
  · simp [htimer, htick]
  · exact iff_of_true (Or.inl htick) hdue

/-- The timer is made only once. -/
theorem not_mem_start {es : List Event} (hphase : s.phase ≠ .fresh)
    (hrun : runFrom (step timeout) s es = some s') : Event.start ∉ es := by
  induction es generalizing s with
  | nil => exact List.not_mem_nil
  | cons e es ih =>
    rw [runFrom_cons, Option.bind_eq_some_iff] at hrun
    obtain ⟨u, hu, hrest⟩ := hrun
    have hm := move_of_step hu
    have hstart : Event.start ≠ e := by
      rintro rfl
      cases hm with
      | start hfresh => exact hphase hfresh
    have hphase' : u.phase ≠ .fresh := by
      cases hm with
      | elapse d => exact hphase
      | fire htimer hdue => exact hphase
      | start hfresh => exact absurd hfresh hphase
      | notify => exact hphase
      | restart hwatching hmark => exact hphase
      | expire hwatching htick => simp
      | stop hwatching => simp
      | discard hended => exact hphase
    exact List.not_mem_cons_of_ne_of_not_mem hstart (ih hphase' hrest)

/-- **A watchdog is not late.**  If the timer was set last at some time, the loop can end because of
it exactly when a timeout has passed since. -/
theorem canExpire_iff {now : ℕ} {es₁ es₂ : List Event} {s₁ : State} (he : e = .start ∨ e = .restart)
    (hset : runFrom (step timeout) { now := now } es₁ = some s₁) (hlast : Event.restart ∉ es₂)
    (hrun : runFrom (step timeout) { now := now } (es₁ ++ e :: es₂) = some s)
    (hphase : s.phase = .watching) : CanExpire timeout s ↔ s₁.now + timeout ≤ s.now := by
  rw [runFrom_append, hset, Option.bind_some, runFrom_cons, Option.bind_eq_some_iff] at hrun
  obtain ⟨u, hu, hrest⟩ := hrun
  have hm := move_of_step hu
  have hwound := wound_of_runFrom hset
  have hu' : u.phase = .watching ∧ SetAt timeout s₁.now u := by
    rcases he with rfl | rfl
    · cases hm with
      | start hfresh => exact ⟨rfl, fun _ => Or.inl ⟨rfl, (hwound.fresh hfresh).2⟩⟩
    · cases hm with
      | restart hwatching hmark => exact ⟨hwatching, fun _ => Or.inl ⟨rfl, hwound.tick_restart⟩⟩
  have hstart : Event.start ∉ es₂ := not_mem_start (by rw [hu'.1]; simp) hrest
  refine SetAt.canExpire_iff ?_ hphase
  refine runFrom_history (P := fun es u => (Event.start ∉ es ∧ Event.restart ∉ es) →
    SetAt timeout s₁.now u) (fun _ => hu'.2) ?_ hrest ⟨hstart, hlast⟩
  intro es v e v' _ ih hstep hnot
  have hes : Event.start ∉ es ∧ Event.restart ∉ es :=
    ⟨fun h => hnot.1 (List.mem_append_left _ h), fun h => hnot.2 (List.mem_append_left _ h)⟩
  refine (ih hes).move (move_of_step hstep) ?_ ?_
  · rintro rfl
    exact hnot.1 (List.mem_append_right _ (List.mem_singleton_self _))
  · rintro rfl
    exact hnot.2 (List.mem_append_right _ (List.mem_singleton_self _))

end Watchdog
end Core
end ForwardProxy
