import ForwardProxy.ConnectUdp.Metrics
import ForwardProxy.Core.Transition

/-!
# Concurrent calls of `recordConnectUDPAdmissionAccepted`

`acquireConnectUDP` records an admission after it has released its lock, so any number of these
calls run at once.  The labels of the machine are single operations: the two increments, `Load`,
`CompareAndSwap` with its outcome, and the write of the gauge.

The number ends as the maximum of what was passed.  The gauge ends as what was written last: the
write of an overtaken call can come behind the one of the call that overtook it, because the swap
and the write are two operations.

## Main result

* `peak_agrees_iff`: when all calls have finished, the number is the maximum, and the gauge agrees
  with it if and only if the call that wrote last is the one that swapped last.
-/

namespace ForwardProxy
namespace ConnectUdp
namespace PeakRace

open ForwardProxy.Core

/-! ## The machine -/

/-- The next operation of a call. -/
inductive Pc where
  | incActive
  | incAssociations
  | load
  /-- `CompareAndSwap`, with the peak that was loaded. -/
  | swap (peak : ℕ)
  /-- `activePeak.Set`. -/
  | set
  | done
  deriving DecidableEq, Repr

/-- A call of `recordConnectUDPAdmissionAccepted`: its argument, and how far it has come. -/
structure Call where
  active : ℕ
  pc : Pc
  deriving DecidableEq, Repr

/-- The metrics, and the calls that were ever made. -/
structure State where
  metrics : Metrics := {}
  calls : List Call := []

/-- A new call, or one operation of a call; a compare-and-swap with its outcome. -/
inductive Event where
  | call (active : ℕ)
  | incActive (i : ℕ)
  | incAssociations (i : ℕ)
  | load (i : ℕ)
  | swap (i : ℕ) (swapped : Bool)
  | set (i : ℕ)
  deriving DecidableEq, Repr

/-- A call moves on. -/
def State.setCall (s : State) (i : ℕ) (c : Call) (pc : Pc) : State :=
  { s with calls := s.calls.set i { c with pc := pc } }

/-- One operation of the call `c`, which has the number `i`. -/
def perform (s : State) (i : ℕ) (c : Call) : Event → Option State
  | .incActive _ =>
    if c.pc = .incActive then
      some { s.setCall i c .incAssociations with
             metrics := { s.metrics with active := s.metrics.active + 1 } }
    else none
  | .incAssociations _ =>
    if c.pc = .incAssociations then
      some { s.setCall i c .load with
             metrics := { s.metrics with associations := s.metrics.associations + 1 } }
    else none
  | .load _ =>
    if c.pc = .load then
      let peak := s.metrics.activePeakValue
      some (s.setCall i c (if c.active ≤ peak then .done else .swap peak))
    else none
  | .swap _ swapped =>
    match c.pc with
    | .swap peak =>
      if s.metrics.activePeakValue = peak ∧ swapped then
        some { s.setCall i c .set with metrics := { s.metrics with activePeakValue := c.active } }
      else if s.metrics.activePeakValue ≠ peak ∧ ¬ swapped then some (s.setCall i c .load)
      else none
    | _ => none
  | .set _ =>
    if c.pc = .set then
      some { s.setCall i c .done with metrics := { s.metrics with activePeak := c.active } }
    else none
  | .call _ => none

/-- The call an event is about. -/
def Event.index : Event → ℕ
  | .call _ => 0
  | .incActive i => i
  | .incAssociations i => i
  | .load i => i
  | .swap i _ => i
  | .set i => i

/-- The machine. -/
def step (s : State) : Event → Option State
  | .call active => some { s with calls := s.calls ++ [⟨active, .incActive⟩] }
  | e => (s.calls[e.index]?).bind fun c => perform s e.index c e

/-- The steps, one by one. -/
inductive Move (s : State) : Event → State → Prop
  | call (active : ℕ) : Move s (.call active) { s with calls := s.calls ++ [⟨active, .incActive⟩] }
  | incActive {i : ℕ} {c : Call} : s.calls[i]? = some c → c.pc = .incActive →
      Move s (.incActive i) { s.setCall i c .incAssociations with
        metrics := { s.metrics with active := s.metrics.active + 1 } }
  | incAssociations {i : ℕ} {c : Call} : s.calls[i]? = some c → c.pc = .incAssociations →
      Move s (.incAssociations i) { s.setCall i c .load with
        metrics := { s.metrics with associations := s.metrics.associations + 1 } }
  | passed {i : ℕ} {c : Call} : s.calls[i]? = some c → c.pc = .load →
      c.active ≤ s.metrics.activePeakValue → Move s (.load i) (s.setCall i c .done)
  | load {i : ℕ} {c : Call} : s.calls[i]? = some c → c.pc = .load →
      s.metrics.activePeakValue < c.active →
      Move s (.load i) (s.setCall i c (.swap s.metrics.activePeakValue))
  | swap {i : ℕ} {c : Call} : s.calls[i]? = some c → c.pc = .swap s.metrics.activePeakValue →
      Move s (.swap i true) { s.setCall i c .set with
        metrics := { s.metrics with activePeakValue := c.active } }
  | retry {i : ℕ} {c : Call} {peak : ℕ} : s.calls[i]? = some c → c.pc = .swap peak →
      Move s (.swap i false) (s.setCall i c .load)
  | set {i : ℕ} {c : Call} : s.calls[i]? = some c → c.pc = .set →
      Move s (.set i) { s.setCall i c .done with
        metrics := { s.metrics with activePeak := c.active } }

theorem move_of_step {s s' : State} {e : Event} (h : step s e = some s') : Move s e s' := by
  cases e with
  | call active =>
    rw [← Option.some.inj h]
    exact .call active
  | incActive i =>
    obtain ⟨c, hc, h⟩ := Option.bind_eq_some_iff.mp h
    obtain ⟨hpc, h⟩ := Option.ite_none_right_eq_some.mp h
    rw [← Option.some.inj h]
    exact .incActive hc hpc
  | incAssociations i =>
    obtain ⟨c, hc, h⟩ := Option.bind_eq_some_iff.mp h
    obtain ⟨hpc, h⟩ := Option.ite_none_right_eq_some.mp h
    rw [← Option.some.inj h]
    exact .incAssociations hc hpc
  | load i =>
    obtain ⟨c, hc, h⟩ := Option.bind_eq_some_iff.mp h
    obtain ⟨hpc, h⟩ := Option.ite_none_right_eq_some.mp h
    rw [← Option.some.inj h]
    by_cases hle : c.active ≤ s.metrics.activePeakValue
    · rw [if_pos hle]
      exact .passed hc hpc hle
    · rw [if_neg hle]
      exact .load hc hpc (not_le.mp hle)
  | swap i swapped =>
    obtain ⟨c, hc, h⟩ := Option.bind_eq_some_iff.mp h
    unfold perform at h
    dsimp only at h
    split at h
    · rename_i peak hpc
      split_ifs at h with hok hretry
      · obtain ⟨rfl, rfl⟩ := hok
        rw [← Option.some.inj h]
        exact .swap hc hpc
      · rw [Bool.not_eq_true] at hretry
        rw [← Option.some.inj h, hretry.2]
        exact .retry hc hpc
    · cases h
  | set i =>
    obtain ⟨c, hc, h⟩ := Option.bind_eq_some_iff.mp h
    obtain ⟨hpc, h⟩ := Option.ite_none_right_eq_some.mp h
    rw [← Option.some.inj h]
    exact .set hc hpc

/-! ## The last swap and the last write -/

/-- The call whose swap succeeds. -/
def Event.swapper : Event → Option ℕ
  | .swap i true => some i
  | _ => none

/-- The call that writes the gauge. -/
def Event.writer : Event → Option ℕ
  | .set i => some i
  | _ => none

/-- The call that was the last to swap. -/
def lastSwap (es : List Event) : Option ℕ := es.reverse.findSome? Event.swapper

/-- The call that was the last to write the gauge. -/
def lastWrite (es : List Event) : Option ℕ := es.reverse.findSome? Event.writer

/-- The arguments of the calls. -/
def passed (es : List Event) : List ℕ :=
  es.filterMap fun
    | .call active => some active
    | _ => none

theorem passed_concat (es : List Event) (e : Event) :
    passed (es ++ [e]) = passed es ++ passed [e] :=
  List.filterMap_append

theorem lastSwap_concat (es : List Event) (e : Event) :
    lastSwap (es ++ [e]) = e.swapper.or (lastSwap es) := by
  rw [lastSwap, List.reverse_append, List.reverse_singleton, List.singleton_append,
    List.findSome?_cons]
  cases e.swapper <;> rfl

theorem lastWrite_concat (es : List Event) (e : Event) :
    lastWrite (es ++ [e]) = e.writer.or (lastWrite es) := by
  rw [lastWrite, List.reverse_append, List.reverse_singleton, List.singleton_append,
    List.findSome?_cons]
  cases e.writer <;> rfl

/-! ## The invariant -/

/-- What holds of the call with number `i`. -/
def CallOk (value : ℕ) (last : Option ℕ) (i : ℕ) (c : Call) : Prop :=
  match c.pc with
  | .swap peak => peak < c.active
  | .set => 0 < c.active ∧ c.active ≤ value ∧ (c.active = value → last = some i)
  | .done => c.active ≤ value
  | _ => True

/-- When the number is raised the calls are overtaken. -/
theorem CallOk.raise {value value' : ℕ} {last last' : Option ℕ} {i : ℕ} {c : Call}
    (h : CallOk value last i c) (hlt : value < value') : CallOk value' last' i c := by
  unfold CallOk at h ⊢
  split at h
  · exact h
  · exact ⟨h.1, by omega, fun heq => by omega⟩
  · omega
  · trivial

/-- The invariant of a run. -/
structure Inv (es : List Event) (s : State) : Prop where
  arguments : s.calls.map Call.active = passed es
  calls : ∀ i c, s.calls[i]? = some c → CallOk s.metrics.activePeakValue (lastSwap es) i c
  /-- The number is the argument of the last call to swap. -/
  swapped : ∀ i, lastSwap es = some i → (passed es)[i]? = some s.metrics.activePeakValue
  unswapped : lastSwap es = none → s.metrics.activePeakValue = 0
  /-- The gauge is the argument of the last call to write it. -/
  written : ∀ i, lastWrite es = some i → (passed es)[i]? = some s.metrics.activePeak ∧
    0 < s.metrics.activePeak ∧ s.metrics.activePeak ≤ s.metrics.activePeakValue ∧
    (s.metrics.activePeak = s.metrics.activePeakValue → lastSwap es = some i)
  unwritten : lastWrite es = none → s.metrics.activePeak = 0
  /-- As long as nobody has written the gauge, the last call to swap is about to. -/
  pending : ∀ i, lastSwap es = some i → lastWrite es = none →
    ∃ c, s.calls[i]? = some c ∧ c.pc = .set

theorem inv_init : Inv [] {} where
  arguments := rfl
  calls := fun i c hc => absurd hc (by simp)
  swapped := fun i hi => absurd hi (by simp [lastSwap])
  unswapped := fun _ => rfl
  written := fun i hi => absurd hi (by simp [lastWrite])
  unwritten := fun _ => rfl
  pending := fun i hi => absurd hi (by simp [lastSwap])

section Moves

variable {es : List Event} {s : State} {i : ℕ} {c : Call}

theorem getElem?_setCall_self (hc : s.calls[i]? = some c) (pc : Pc) :
    (s.setCall i c pc).calls[i]? = some { c with pc := pc } :=
  List.getElem?_set_self (List.getElem?_eq_some_iff.mp hc).1

theorem getElem?_setCall_of_ne {j : ℕ} (hne : i ≠ j) (pc : Pc) :
    (s.setCall i c pc).calls[j]? = s.calls[j]? :=
  List.getElem?_set_ne hne

theorem Inv.arguments_setCall (h : Inv es s) (hc : s.calls[i]? = some c) (pc : Pc) :
    (s.setCall i c pc).calls.map Call.active = passed es := by
  obtain ⟨hi, hget⟩ := List.getElem?_eq_some_iff.mp hc
  have hsame : (s.calls.map Call.active).set i c.active = s.calls.map Call.active := by
    rw [← hget, ← List.getElem_map Call.active (h := by rwa [List.length_map]),
      List.set_getElem_self]
  rw [State.setCall, List.map_set, hsame, h.arguments]

theorem Inv.argument (h : Inv es s) (hc : s.calls[i]? = some c) :
    (passed es)[i]? = some c.active := by
  rw [← h.arguments, List.getElem?_map, hc]
  rfl

/-- The calls after one of them has moved on, if the number is not lower. -/
theorem Inv.calls_setCall (h : Inv es s) (hc : s.calls[i]? = some c) {pc : Pc} {value : ℕ}
    {last : Option ℕ} (hself : CallOk value last i { c with pc := pc })
    (hothers : ∀ j d, CallOk s.metrics.activePeakValue (lastSwap es) j d → CallOk value last j d) :
    ∀ j d, (s.setCall i c pc).calls[j]? = some d → CallOk value last j d := by
  intro j d hd
  by_cases hij : i = j
  · subst hij
    rw [getElem?_setCall_self hc] at hd
    exact Option.some.inj hd ▸ hself
  · rw [getElem?_setCall_of_ne hij] at hd
    exact hothers j d (h.calls j d hd)

/-- A new call. -/
theorem Inv.call (h : Inv es s) (active : ℕ) :
    Inv (es ++ [.call active]) { s with calls := s.calls ++ [⟨active, .incActive⟩] } := by
  have hpassed : passed (es ++ [.call active]) = passed es ++ [active] := passed_concat es _
  have hold : ∀ {j v : ℕ}, (passed es)[j]? = some v →
      (passed (es ++ [.call active]))[j]? = some v := by
    intro j v hv
    rw [hpassed, List.getElem?_append_left (List.getElem?_eq_some_iff.mp hv).1, hv]
  have hswap : lastSwap (es ++ [.call active]) = lastSwap es := lastSwap_concat es _
  have hwrite : lastWrite (es ++ [.call active]) = lastWrite es := lastWrite_concat es _
  refine ⟨?_, fun j d hd => ?_, fun j hj => hold (h.swapped j (hswap ▸ hj)),
    fun hj => h.unswapped (hswap ▸ hj), fun j hj => ?_, fun hj => h.unwritten (hwrite ▸ hj),
    fun j hj hnone => ?_⟩
  · rw [hpassed, List.map_append, h.arguments]
    rfl
  · rw [hswap]
    rcases Nat.lt_or_ge j s.calls.length with hlt | hge
    · rw [List.getElem?_append_left hlt] at hd
      exact h.calls j d hd
    · rw [List.getElem?_append_right hge] at hd
      have hd' := List.mem_of_getElem? hd
      rw [List.mem_singleton.mp hd']
      trivial
  · rw [hswap]
    obtain ⟨hv, hrest⟩ := h.written j (hwrite ▸ hj)
    exact ⟨hold hv, hrest⟩
  · obtain ⟨d, hd, hset⟩ := h.pending j (hswap ▸ hj) (hwrite ▸ hnone)
    exact ⟨d, by rw [List.getElem?_append_left (List.getElem?_eq_some_iff.mp hd).1, hd], hset⟩

/-- **The rule for a step of one call** that touches neither the number nor the gauge. -/
theorem Inv.of_local (h : Inv es s) (hc : s.calls[i]? = some c) (hpc : c.pc ≠ .set) {pc : Pc}
    {e : Event} {m : Metrics} (hvalue : m.activePeakValue = s.metrics.activePeakValue)
    (hgauge : m.activePeak = s.metrics.activePeak) (hswapper : e.swapper = none)
    (hwriter : e.writer = none) (hargument : passed [e] = [])
    (hok : CallOk s.metrics.activePeakValue (lastSwap es) i { c with pc := pc }) :
    Inv (es ++ [e]) { s.setCall i c pc with metrics := m } := by
  have hpassed : passed (es ++ [e]) = passed es := by
    rw [passed_concat, hargument, List.append_nil]
  have hswap : lastSwap (es ++ [e]) = lastSwap es := by rw [lastSwap_concat, hswapper]; rfl
  have hwrite : lastWrite (es ++ [e]) = lastWrite es := by rw [lastWrite_concat, hwriter]; rfl
  constructor
  · rw [hpassed]
    exact h.arguments_setCall hc pc
  · rw [hswap, hvalue]
    exact h.calls_setCall hc hok fun _ _ hd => hd
  · rw [hpassed, hswap, hvalue]
    exact h.swapped
  · rw [hswap, hvalue]
    exact h.unswapped
  · rw [hpassed, hswap, hwrite, hvalue, hgauge]
    exact h.written
  · rw [hwrite, hgauge]
    exact h.unwritten
  · rw [hswap, hwrite]
    intro j hj hnone
    obtain ⟨d, hd, hset⟩ := h.pending j hj hnone
    have hij : i ≠ j := by
      rintro rfl
      exact hpc (Option.some.inj (hc.symm.trans hd) ▸ hset)
    exact ⟨d, (getElem?_setCall_of_ne hij pc).trans hd, hset⟩

/-- A swap raises the number, and overtakes the calls that swapped before. -/
theorem Inv.swap (h : Inv es s) (hc : s.calls[i]? = some c)
    (hpc : c.pc = .swap s.metrics.activePeakValue) :
    Inv (es ++ [.swap i true]) { s.setCall i c .set with
      metrics := { s.metrics with activePeakValue := c.active } } := by
  have hlt : s.metrics.activePeakValue < c.active := by
    have hok := h.calls i c hc
    rwa [CallOk, hpc] at hok
  have hpassed : passed (es ++ [.swap i true]) = passed es :=
    (passed_concat es _).trans (List.append_nil _)
  have hswap : lastSwap (es ++ [.swap i true]) = some i := lastSwap_concat es _
  have hwrite : lastWrite (es ++ [.swap i true]) = lastWrite es := lastWrite_concat es _
  constructor
  · rw [hpassed]
    exact h.arguments_setCall hc .set
  · rw [hswap]
    refine h.calls_setCall hc ?_ fun _ _ hd => hd.raise hlt
    exact ⟨Nat.zero_lt_of_lt hlt, le_rfl, fun _ => rfl⟩
  · rw [hpassed, hswap]
    intro j hj
    rw [← Option.some.inj hj]
    exact h.argument hc
  · rw [hswap]
    exact fun hnone => absurd hnone (Option.some_ne_none i)
  · rw [hpassed, hwrite]
    intro j hj
    obtain ⟨hv, hpos, hle, -⟩ := h.written j hj
    have hlt' : s.metrics.activePeak < c.active := by omega
    exact ⟨hv, hpos, hlt'.le, fun heq => absurd heq hlt'.ne⟩
  · rw [hwrite]
    exact h.unwritten
  · rw [hswap]
    intro j hj _
    rw [← Option.some.inj hj]
    exact ⟨_, getElem?_setCall_self hc .set, rfl⟩

/-- A write of the gauge. -/
theorem Inv.set (h : Inv es s) (hc : s.calls[i]? = some c) (hpc : c.pc = .set) :
    Inv (es ++ [.set i]) { s.setCall i c .done with
      metrics := { s.metrics with activePeak := c.active } } := by
  have hok : 0 < c.active ∧ c.active ≤ s.metrics.activePeakValue ∧
      (c.active = s.metrics.activePeakValue → lastSwap es = some i) := by
    have hok := h.calls i c hc
    rwa [CallOk, hpc] at hok
  have hpassed : passed (es ++ [.set i]) = passed es :=
    (passed_concat es _).trans (List.append_nil _)
  have hswap : lastSwap (es ++ [.set i]) = lastSwap es := lastSwap_concat es _
  have hwrite : lastWrite (es ++ [.set i]) = some i := lastWrite_concat es _
  constructor
  · rw [hpassed]
    exact h.arguments_setCall hc .done
  · rw [hswap]
    exact h.calls_setCall hc hok.2.1 fun _ _ hd => hd
  · rw [hpassed, hswap]
    exact h.swapped
  · rw [hswap]
    exact h.unswapped
  · rw [hpassed, hswap, hwrite]
    intro j hj
    rw [← Option.some.inj hj]
    exact ⟨h.argument hc, hok⟩
  · rw [hwrite]
    exact fun hnone => absurd hnone (Option.some_ne_none i)
  · rw [hwrite]
    exact fun j _ hnone => absurd hnone (Option.some_ne_none i)

theorem inv_of_move {e : Event} {s' : State} (h : Inv es s) (hm : Move s e s') :
    Inv (es ++ [e]) s' := by
  cases hm with
  | call active => exact h.call active
  | incActive hc hpc =>
    exact h.of_local hc (by simp [hpc]) rfl rfl rfl rfl rfl trivial
  | incAssociations hc hpc =>
    exact h.of_local hc (by simp [hpc]) rfl rfl rfl rfl rfl trivial
  | passed hc hpc hle =>
    exact h.of_local hc (by simp [hpc]) rfl rfl rfl rfl rfl hle
  | load hc hpc hlt =>
    exact h.of_local hc (by simp [hpc]) rfl rfl rfl rfl rfl hlt
  | swap hc hpc => exact h.swap hc hpc
  | retry hc hpc =>
    exact h.of_local hc (by simp [hpc]) rfl rfl rfl rfl rfl trivial
  | set hc hpc => exact h.set hc hpc

end Moves

theorem inv_of_run {es : List Event} {s : State} (hrun : runFrom step {} es = some s) : Inv es s :=
  runFrom_history inv_init (fun _ _ _ _ _ hinv hstep => inv_of_move hinv (move_of_step hstep)) hrun

/-! ## When all calls have finished -/

section Finished

variable {es : List Event} {s : State}

/-- A call that has finished has raised the number, or has found it high enough. -/
theorem Inv.le_value (h : Inv es s) (hdone : ∀ c ∈ s.calls, c.pc = .done) :
    ∀ active ∈ passed es, active ≤ s.metrics.activePeakValue := by
  intro active hmem
  rw [← h.arguments] at hmem
  obtain ⟨c, hc, rfl⟩ := List.mem_map.mp hmem
  obtain ⟨i, hi⟩ := List.getElem?_of_mem hc
  have hok := h.calls i c hi
  rwa [CallOk, hdone c hc] at hok

/-- The number is one of the arguments. -/
theorem Inv.value_mem (h : Inv es s)
    (hle : ∀ active ∈ passed es, active ≤ s.metrics.activePeakValue) :
    passed es = [] ∧ s.metrics.activePeakValue = 0 ∨ s.metrics.activePeakValue ∈ passed es := by
  cases hswap : lastSwap es with
  | some i => exact Or.inr (List.mem_of_getElem? (h.swapped i hswap))
  | none =>
    have hzero := h.unswapped hswap
    cases hpassed : passed es with
    | nil => exact Or.inl ⟨rfl, hzero⟩
    | cons active rest =>
      have hmem : active ∈ passed es := hpassed ▸ List.mem_cons_self
      have hactive : s.metrics.activePeakValue = active := by
        have := hle active hmem
        omega
      rw [hactive]
      exact Or.inr List.mem_cons_self

/-- Nobody has written if nobody has swapped. -/
theorem Inv.lastWrite_eq_none (h : Inv es s) (hswap : lastSwap es = none) :
    lastWrite es = none := by
  cases hwrite : lastWrite es with
  | none => rfl
  | some i =>
    have hzero := h.unswapped hswap
    obtain ⟨-, hpos, hle, -⟩ := h.written i hwrite
    omega

/-- Somebody has written if somebody has swapped. -/
theorem Inv.exists_lastWrite (h : Inv es s) (hdone : ∀ c ∈ s.calls, c.pc = .done) {i : ℕ}
    (hswap : lastSwap es = some i) : ∃ j, lastWrite es = some j := by
  cases hwrite : lastWrite es with
  | some j => exact ⟨j, rfl⟩
  | none =>
    obtain ⟨c, hc, hset⟩ := h.pending i hswap hwrite
    rw [hdone c (List.mem_of_getElem? hc)] at hset
    cases hset

/-- The gauge and the number. -/
theorem Inv.gauge_iff (h : Inv es s) (hdone : ∀ c ∈ s.calls, c.pc = .done) :
    s.metrics.activePeak = s.metrics.activePeakValue ↔ lastWrite es = lastSwap es := by
  cases hswap : lastSwap es with
  | none =>
    have hnone := h.lastWrite_eq_none hswap
    exact iff_of_true (by rw [h.unwritten hnone, h.unswapped hswap]) hnone
  | some i =>
    obtain ⟨j, hj⟩ := h.exists_lastWrite hdone hswap
    obtain ⟨hgauge, -, -, hlast⟩ := h.written j hj
    constructor
    · intro heq
      rw [hj, ← hlast heq, hswap]
    · intro heq
      rw [hj] at heq
      rw [Option.some.inj heq] at hgauge
      exact Option.some.inj (hgauge.symm.trans (h.swapped i hswap))

end Finished

/-- **The peak under concurrent calls.**  When all calls have finished, the number is the greatest
argument, and the gauge agrees with it if and only if the call that wrote the gauge last is the one
that swapped last. -/
theorem peak_agrees_iff {es : List Event} {s : State} (hrun : runFrom step {} es = some s)
    (hdone : ∀ c ∈ s.calls, c.pc = .done) :
    ((∀ active ∈ passed es, active ≤ s.metrics.activePeakValue) ∧
        (passed es = [] ∧ s.metrics.activePeakValue = 0 ∨
          s.metrics.activePeakValue ∈ passed es)) ∧
      (s.metrics.activePeak = s.metrics.activePeakValue ↔ lastWrite es = lastSwap es) := by
  have h := inv_of_run hrun
  have hle := h.le_value hdone
  exact ⟨⟨hle, h.value_mem hle⟩, h.gauge_iff hdone⟩

/-- Two calls, the second after the first. -/
def inOrder : List Event :=
  [.call 1, .incActive 0, .incAssociations 0, .load 0, .swap 0 true, .set 0, .call 2, .incActive 1,
    .incAssociations 1, .load 1, .swap 1 true, .set 1]

theorem peak_agrees_inOrder : ∃ s, runFrom step {} inOrder = some s ∧
    (∀ c ∈ s.calls, c.pc = .done) ∧ s.metrics.activePeak = s.metrics.activePeakValue := by
  have hrun : ∃ s, runFrom step {} inOrder = some s ∧ ∀ c ∈ s.calls, c.pc = .done :=
    ⟨_, rfl, by decide⟩
  obtain ⟨s, hrun, hdone⟩ := hrun
  exact ⟨s, hrun, hdone, (peak_agrees_iff hrun hdone).2.mpr (by decide)⟩

/-- The call with one swaps first, but writes the gauge after the call with two. -/
def overtaken : List Event :=
  [.call 1, .call 2, .incActive 0, .incAssociations 0, .incActive 1, .incAssociations 1, .load 0,
    .swap 0 true, .load 1, .swap 1 true, .set 1, .set 0]

/-- The number is two, and the gauge shows one. -/
theorem peak_overtaken : ¬ ∀ (es : List Event) (s : State), runFrom step {} es = some s →
    (∀ c ∈ s.calls, c.pc = .done) → s.metrics.activePeak = s.metrics.activePeakValue := by
  intro h
  have heq := h overtaken _ rfl (by decide)
  revert heq
  decide

end PeakRace
end ConnectUdp
end ForwardProxy
