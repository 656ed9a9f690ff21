import ForwardProxy.ConnectUdp.Lifecycle
import ForwardProxy.Core.Watchdog

/-!
# When an association is idle

`run` ends an association after `idleTimeout` without activity.  What it does with the timer and
with the channel `activity` is what a watchdog does (`Core.Watchdog`): of the state of an
association the watchdog is a part (`State.watchdog`), and every action of an association is an
action of the watchdog or does not touch it (`step_watchdog`).

## Main results

* `idle_expiry`: the timer ends an association no earlier than `idleTimeout` after the last
  activity, unless activity and the tick are there at the same time, and it can end it as soon as
  that.
-/

namespace ForwardProxy
namespace ConnectUdp
namespace Lifecycle

open ForwardProxy.Core Pump

/-! ## The watchdog in an association -/

/-- Where `run` stands, for the watchdog. -/
def RunPc.phase : RunPc → Watchdog.Phase
  | .entered => .fresh
  | .select => .watching
  | _ => .ended

/-- The watchdog of an association. -/
def State.watchdog (s : State) : Watchdog.State where
  now := s.now
  timer := s.timer
  tick := s.tick
  mark := s.activity
  phase := s.pc.phase

/-- What an action is for the watchdog. -/
def Event.watchdog : Event → Option Watchdog.Event
  | .elapse d => some (.elapse d)
  | .fire => some .fire
  | .newTimer => some .start
  | .notify _ => some .notify
  | .selectActivity => some .restart
  | .selectTimer => some .expire
  | .selectResult => some .stop
  | .selectParent => some .stop
  | .selectStream => some .stop
  | .ret => some .discard
  | _ => none

variable {a : Association} {idleTimeout : ℕ} {s s' : State} {e : Event}

theorem RunPc.phase_eq_fresh_iff {pc : RunPc} : pc.phase = .fresh ↔ pc = .entered := by
  cases pc <;> simp [RunPc.phase]

theorem RunPc.phase_eq_watching_iff {pc : RunPc} : pc.phase = .watching ↔ pc = .select := by
  cases pc <;> simp [RunPc.phase]

/-- An action of the watchdog alone. -/
theorem runFrom_watchdog {w : Watchdog.Event} {t : Watchdog.State}
    (h : Watchdog.step idleTimeout s.watchdog w = some t) :
    runFrom (Watchdog.step idleTimeout) s.watchdog [w] = some t := by
  rw [runFrom_cons, h]
  rfl

/-- An action that ends the loop for another reason than the timer. -/
theorem runFrom_watchdog_stop (hpc : s.pc = .select) (hpc' : s'.pc = .left)
    (h : s'.watchdog = { s.watchdog with phase := s'.pc.phase }) :
    runFrom (Watchdog.step idleTimeout) s.watchdog [.stop] = some s'.watchdog := by
  refine runFrom_watchdog ?_
  rw [h, hpc']
  exact if_pos (RunPc.phase_eq_watching_iff.mpr hpc)

/-- An action of a pump. -/
theorem runFrom_watchdog_setPump {s₀ : State} {d : Direction} {p : Process}
    (h : some (s₀.setPump d p) = some s') :
    runFrom (Watchdog.step idleTimeout) s₀.watchdog [] = some s'.watchdog := by
  rw [← Option.some_inj.mp h]
  rfl

/-- A guarded action that leaves the phase, the timer and the two slots as they are. -/
theorem runFrom_watchdog_of_ite {p : Prop} [Decidable p] {t : State}
    (h : (if p then some t else none) = some s') (ht : p → t.watchdog = s.watchdog) :
    runFrom (Watchdog.step idleTimeout) s.watchdog [] = some s'.watchdog := by
  obtain ⟨hp, heq⟩ := Option.ite_none_right_eq_some.mp h
  rw [← Option.some_inj.mp heq, ht hp]
  rfl

/-- **The watchdog does what it does alone.** -/
theorem step_watchdog (h : step a idleTimeout s e = some s') :
    runFrom (Watchdog.step idleTimeout) s.watchdog e.watchdog.toList = some s'.watchdog := by
  cases e with
  | elapse d =>
    obtain rfl := Option.some_inj.mp h
    rfl
  | fire =>
    refine runFrom_watchdog ?_
    cases htimer : s.timer with
    | none => simp [step, htimer] at h
    | some t =>
      simp only [step, htimer] at h
      obtain ⟨hdue, ⟨⟩⟩ := Option.ite_none_right_eq_some.mp h
      simp only [Watchdog.step, State.watchdog, htimer, if_pos hdue]
  | parentEnds cause => exact runFrom_watchdog_of_ite h fun _ => rfl
  | propagate => exact runFrom_watchdog_of_ite h fun _ => rfl
  | streamEnds cause => exact runFrom_watchdog_of_ite h fun _ => rfl
  | newTimer =>
    obtain ⟨hpc, ⟨⟩⟩ := Option.ite_none_right_eq_some.mp h
    refine runFrom_watchdog ?_
    exact if_pos (RunPc.phase_eq_fresh_iff.mpr hpc)
  | selectResult =>
    cases hresults : s.results with
    | nil => simp [step, hresults] at h
    | cons err results =>
      simp only [step, hresults] at h
      split_ifs at h with hpc
      obtain rfl := Option.some_inj.mp h
      exact runFrom_watchdog_stop hpc rfl rfl
  | selectActivity =>
    obtain ⟨hc, ⟨⟩⟩ := Option.ite_none_right_eq_some.mp h
    refine runFrom_watchdog ?_
    exact if_pos ⟨RunPc.phase_eq_watching_iff.mpr hc.1, hc.2⟩
  | selectTimer =>
    obtain ⟨hc, ⟨⟩⟩ := Option.ite_none_right_eq_some.mp h
    refine runFrom_watchdog ?_
    exact if_pos ⟨RunPc.phase_eq_watching_iff.mpr hc.1, hc.2⟩
  | selectParent =>
    obtain ⟨hc, h⟩ := Option.ite_none_right_eq_some.mp h
    obtain rfl := Option.some_inj.mp h
    exact runFrom_watchdog_stop hc.1 (if_neg hc.2) rfl
  | selectStream =>
    obtain ⟨hc, h⟩ := Option.ite_none_right_eq_some.mp h
    obtain rfl := Option.some_inj.mp h
    exact runFrom_watchdog_stop hc.1 (if_neg hc.2) rfl
  | ret =>
    obtain ⟨hpc, ⟨⟩⟩ := Option.ite_none_right_eq_some.mp h
    refine runFrom_watchdog ?_
    simp only [Watchdog.step, State.watchdog, hpc, RunPc.phase, if_true]
  | drain =>
    cases hresults : s.results with
    | nil => simp [step, hresults] at h
    | cons err results =>
      simp only [step, hresults] at h
      split_ifs at h with hc
      obtain rfl := Option.some_inj.mp h
      rfl
  | cancel =>
    exact runFrom_watchdog_of_ite h fun hpc => by simp only [State.watchdog, hpc, RunPc.phase]
  | cancelRead =>
    exact runFrom_watchdog_of_ite h fun hpc => by simp only [State.watchdog, hpc, RunPc.phase]
  | cancelWrite =>
    exact runFrom_watchdog_of_ite h fun hpc => by simp only [State.watchdog, hpc, RunPc.phase]
  | closeUDP =>
    exact runFrom_watchdog_of_ite h fun hpc => by simp only [State.watchdog, hpc, RunPc.phase]
  | endDrain =>
    exact runFrom_watchdog_of_ite h fun hc => by simp only [State.watchdog, hc.1, RunPc.phase]
  | closeStream =>
    exact runFrom_watchdog_of_ite h fun hpc => by simp only [State.watchdog, hpc, RunPc.phase]
  | input d answer =>
    simp only [step] at h
    split at h
    · exact runFrom_watchdog_setPump h
    · exact absurd h (by simp)
  | call d =>
    simp only [step] at h
    split at h
    · exact runFrom_watchdog_setPump h
    · exact absurd h (by simp)
  | wrote n err =>
    simp only [step] at h
    split at h
    · exact runFrom_watchdog_setPump h
    · exact absurd h (by simp)
  | sent err =>
    simp only [step] at h
    split at h
    · exact runFrom_watchdog_setPump h
    · exact absurd h (by simp)
  | notify d =>
    simp only [step] at h
    split at h
    · obtain rfl := Option.some_inj.mp h
      rfl
    · exact absurd h (by simp)
  | check =>
    simp only [step] at h
    split at h
    · exact runFrom_watchdog_setPump h
    · exact absurd h (by simp)
  | deliver d =>
    simp only [step] at h
    split at h
    · split_ifs at h
      obtain rfl := Option.some_inj.mp h
      rfl
    · exact absurd h (by simp)

/-- What a life shows of its watchdog. -/
theorem runFrom_watchdog_of_run {now : ℕ} {es : List Event}
    (h : runFrom (step a idleTimeout) (init now) es = some s) :
    runFrom (Watchdog.step idleTimeout) { now := now } (es.filterMap Event.watchdog) =
      some s.watchdog :=
  runFrom_view State.watchdog Event.watchdog (fun _ _ _ => step_watchdog) h

/-! ## The main result -/

/-- The loop can end because of its timer: at once, or when the timer has fired. -/
def CanExpire (a : Association) (idleTimeout : ℕ) (s : State) : Prop :=
  (∃ s', step a idleTimeout s .selectTimer = some s') ∨
    ∃ u s', step a idleTimeout s .fire = some u ∧ step a idleTimeout u .selectTimer = some s'

theorem step_fire_eq_some_iff {u : State} : step a idleTimeout s .fire = some u ↔
    ∃ t, s.timer = some t ∧ t ≤ s.now ∧ u = { s with timer := none, tick := true } := by
  cases htimer : s.timer with
  | none => simp [step, htimer]
  | some t => simp [step, htimer, eq_comm]

/-- The loop can end when the watchdog can. -/
theorem canExpire_iff_watchdog :
    CanExpire a idleTimeout s ↔ Watchdog.CanExpire idleTimeout s.watchdog := by
  rw [Watchdog.canExpire_iff_due]
  constructor
  · rintro (⟨s', h⟩ | ⟨u, s', hfire, h⟩)
    · have hc := (Option.ite_none_right_eq_some.mp h).1
      exact ⟨RunPc.phase_eq_watching_iff.mpr hc.1, Or.inl hc.2⟩
    · obtain ⟨t, htimer, hdue, rfl⟩ := step_fire_eq_some_iff.mp hfire
      have hpc := (Option.ite_none_right_eq_some.mp h).1.1
      exact ⟨RunPc.phase_eq_watching_iff.mpr hpc, Or.inr ⟨t, htimer, hdue⟩⟩
  · rintro ⟨hphase, htick | ⟨t, htimer, hdue⟩⟩
    · exact Or.inl ⟨_, if_pos ⟨RunPc.phase_eq_watching_iff.mp hphase, htick⟩⟩
    · refine Or.inr ⟨_, _, step_fire_eq_some_iff.mpr ⟨t, htimer, hdue, rfl⟩, if_pos ⟨?_, rfl⟩⟩
      exact RunPc.phase_eq_watching_iff.mp hphase

/-- A run of which one action is known, as a run of the watchdog. -/
theorem filterMap_watchdog_append {es₁ es₂ : List Event} {w : Watchdog.Event}
    (h : e.watchdog = some w) :
    (es₁ ++ e :: es₂).filterMap Event.watchdog =
      es₁.filterMap Event.watchdog ++ w :: es₂.filterMap Event.watchdog := by
  rw [List.filterMap_append, List.filterMap_cons_some h]

/-- **When the timer ends an association.**  In every interleaving of the life of an association:

* if the loop takes the tick of its timer, then for everything that was relayed and notified before,
  `idleTimeout` has passed, or its mark still lies in the channel `activity`;
* from the moment when the timer was set for the last time, the loop can end because of it as soon
  as `idleTimeout` has passed, and not before. -/
theorem idle_expiry (a : Association) (idleTimeout now : ℕ) {es : List Event} {s : State}
    (hrun : runFrom (step a idleTimeout) (init now) es = some s) :
    (∀ es₁ d es₂ s₁ s', es = es₁ ++ .notify d :: es₂ →
      runFrom (step a idleTimeout) (init now) es₁ = some s₁ →
      step a idleTimeout s .selectTimer = some s' →
      s₁.now + idleTimeout ≤ s.now ∨ s.activity = true) ∧
    ∀ es₁ e es₂ s₁, es = es₁ ++ e :: es₂ → e = .newTimer ∨ e = .selectActivity →
      Event.selectActivity ∉ es₂ → runFrom (step a idleTimeout) (init now) es₁ = some s₁ →
      s.pc = .select → (CanExpire a idleTimeout s ↔ s₁.now + idleTimeout ≤ s.now) := by
  have hwatch := runFrom_watchdog_of_run hrun
  constructor
  · rintro es₁ d es₂ s₁ s' rfl hnotified hexpire
    rw [filterMap_watchdog_append rfl] at hwatch
    have hdone := step_watchdog hexpire
    rw [Event.watchdog, Option.toList_some, runFrom_cons, Option.bind_eq_some_iff] at hdone
    obtain ⟨u, hu, -⟩ := hdone
    exact Watchdog.timeout_le_of_expire (runFrom_watchdog_of_run hnotified) hwatch hu
  · rintro es₁ e es₂ s₁ rfl he hlast hset hpc
    obtain ⟨w, hw, hset'⟩ : ∃ w, e.watchdog = some w ∧ (w = .start ∨ w = .restart) := by
      rcases he with rfl | rfl
      · exact ⟨.start, rfl, Or.inl rfl⟩
      · exact ⟨.restart, rfl, Or.inr rfl⟩
    have hlast' : Watchdog.Event.restart ∉ es₂.filterMap Event.watchdog := by
      intro hmem
      obtain ⟨e', he', hrestart⟩ := List.mem_filterMap.mp hmem
      have hactivity : e' = .selectActivity := by cases e' <;> simp [Event.watchdog] at hrestart ⊢
      exact hlast (hactivity ▸ he')
    rw [filterMap_watchdog_append hw] at hwatch
    rw [canExpire_iff_watchdog]
    exact Watchdog.canExpire_iff hset' (runFrom_watchdog_of_run hset) hlast' hwatch
      (RunPc.phase_eq_watching_iff.mpr hpc)

/-- A datagram is relayed while the timer fires. -/
def lateDatagram : List Event :=
  [.newTimer, .input .h3ToUDP (.ok [0, 65]), .call .h3ToUDP, .wrote 1 none, .elapse 10, .fire]

/-- The mark and the tick are both there, and the loop may take the tick. -/
theorem idle_expiry_lateDatagram :
    ∃ s s',
      runFrom (step firstAssociation 10) (init 0) (lateDatagram ++ [.notify .h3ToUDP]) = some s ∧
      step firstAssociation 10 s .selectTimer = some s' ∧
      s'.result = some .deadlineExceeded ∧ (20 ≤ s.now ∨ s.activity = true) ∧
      (CanExpire firstAssociation 10 s ↔ 10 ≤ s.now) := by
  have hbefore : ((runFrom (step firstAssociation 10) (init 0) lateDatagram).map (fun s => s.now)) =
      some 10 := by
    decide +kernel
  have hafter :
      ((runFrom (step firstAssociation 10) (init 0) (lateDatagram ++ [.notify .h3ToUDP])).map
      fun s => (s.pc, s.tick)) = some (.select, true) := by decide +kernel
  obtain ⟨s₁, hs₁, hnow⟩ := Option.map_eq_some_iff.mp hbefore
  obtain ⟨s, hs, hend⟩ := Option.map_eq_some_iff.mp hafter
  obtain ⟨hpc, htick⟩ := Prod.mk.inj hend
  have hexpire : step firstAssociation 10 s .selectTimer = some _ := if_pos ⟨hpc, htick⟩
  have hmain := idle_expiry firstAssociation 10 0 hs
  refine ⟨s, _, hs, hexpire, rfl, ?_, ?_⟩
  · have hlate := hmain.1 lateDatagram .h3ToUDP [] s₁ _ rfl hs₁ hexpire
    rwa [hnow] at hlate
  · exact hmain.2 [] .newTimer _ (init 0) rfl (Or.inl rfl) (by decide) rfl hpc

end Lifecycle
end ConnectUdp
end ForwardProxy
