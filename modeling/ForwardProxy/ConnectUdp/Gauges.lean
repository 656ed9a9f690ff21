import ForwardProxy.ConnectUdp.Accounting
import ForwardProxy.ConnectUdp.Metrics
import Mathlib.Order.Bounds.Basic

/-!
# The gauges of a process with several handlers

The metrics are those of the process, while the counters are those of a handler: several sites have
a handler each, and a reload makes new ones while the old ones drain.  Here a process calls
`acquireConnectUDP` and `release` of any of its handlers, one call after the other.

The gauge of active associations counts over all handlers.  The peak is fed with the count of the
one handler that admits, so it is the highest count a single handler ever had (`Inv.reached`), and
that is the highest value of the other gauge only if one handler had all associations at such a
moment.

## Main result

* `gauges_agree_iff`: the active gauge is the number of outstanding associations and the difference
  of the counters, in every history; the peak is its maximum if and only if at some moment at which
  it was highest all outstanding associations were of one handler.
-/

namespace ForwardProxy
namespace ConnectUdp
namespace Gauges

open ForwardProxy.Core CountMap

/-- An association of the process. -/
structure Held where
  /-- The handler that admitted it. -/
  handler : ℕ
  client : GoString
  /-- Its `sync.Once` is done. -/
  released : Bool := false
  deriving DecidableEq, Repr

/-- A process. -/
structure Process where
  /-- By handler. -/
  counters : ℕ → Counters := fun _ => {}
  /-- All associations ever admitted, in order. -/
  associations : List Held := []
  metrics : Metrics := {}

/-- The limit a refusal is recorded under. -/
def refusedBy (h : Handler) (c : Counters) : GoString :=
  if maxActive h ≤ c.active then ascii "global" else ascii "source"

/-- `acquireConnectUDP` of handler `i`. -/
def acquireConnectUDP (handlers : ℕ → Handler) (s : Process) (i : ℕ)
    (client : GoString) : Process :=
  match (s.counters i).acquireConnectUDP (handlers i) client with
  | (_, none) =>
    { s with
      metrics := s.metrics.recordConnectUDPAdmission (refusedBy (handlers i) (s.counters i)) }
  | (counters, some _) =>
    { counters := Function.update s.counters i counters
      associations := s.associations ++ [{ handler := i, client }]
      metrics := s.metrics.recordConnectUDPAdmissionAccepted counters.active.toNat }

/-- The reason a release is recorded under. -/
def releaseReason : List GoString → GoString
  | [] => ascii "request_end"
  | reason :: _ => if reason = [] then ascii "request_end" else reason

/-- The first call of the `release` of association `k`. -/
def release (s : Process) (k : ℕ) (a : Held) (reason : List GoString) (duration : ℤ) : Process :=
  { counters := Function.update s.counters a.handler ((s.counters a.handler).release a.client)
    associations := s.associations.set k { a with released := true }
    metrics := s.metrics.recordConnectUDPAdmissionReleased (releaseReason reason) duration }

/-- The calls. -/
inductive Event where
  | acquire (handler : ℕ) (client : GoString)
  | release (association : ℕ) (reason : List GoString) (duration : ℤ)

/-- One call; a `release` has to have been returned before it can be called. -/
def step (handlers : ℕ → Handler) (s : Process) : Event → Option Process
  | .acquire i client => some (acquireConnectUDP handlers s i client)
  | .release k reason duration =>
    (s.associations[k]?).map fun a => if a.released then s else release s k a reason duration

/-- What a call can do. -/
inductive Move (handlers : ℕ → Handler) (s : Process) : Event → Process → Prop
  | refused {i : ℕ} {client : GoString} (limit : GoString) : Move handlers s (.acquire i client)
      { s with metrics := s.metrics.recordConnectUDPAdmission limit }
  | admitted {i : ℕ} {client : GoString} {counters : Counters}
      (hactive : counters.active = (s.counters i).active + 1) : Move handlers s (.acquire i client)
      { counters := Function.update s.counters i counters
        associations := s.associations ++ [{ handler := i, client }]
        metrics := s.metrics.recordConnectUDPAdmissionAccepted counters.active.toNat }
  | again {k : ℕ} {reason : List GoString} {duration : ℤ} :
      Move handlers s (.release k reason duration) s
  | released {k : ℕ} {a : Held} {reason : List GoString} {duration : ℤ}
      (ha : s.associations[k]? = some a) (hheld : a.released = false) :
      Move handlers s (.release k reason duration) (release s k a reason duration)

theorem move_of_step {handlers : ℕ → Handler} {s s' : Process} {e : Event}
    (h : step handlers s e = some s') : Move handlers s e s' := by
  cases e with
  | acquire i client =>
    rw [← Option.some.inj h, acquireConnectUDP]
    rcases acquireConnectUDP_cases (handlers i) (s.counters i) client with ⟨heq, -⟩ | ⟨heq, -⟩
    · rw [heq]
      exact .refused _
    · rw [heq]
      exact .admitted rfl
  | release k reason duration =>
    obtain ⟨a, ha, rfl⟩ := Option.map_eq_some_iff.mp h
    cases hheld : a.released with
    | true => exact .again
    | false => exact .released ha hheld

/-! ## The counts -/

/-- The number of outstanding associations. -/
def outstanding (as : List Held) : ℕ := as.countP fun a => !a.released

/-- The number of outstanding associations of a handler. -/
def share (as : List Held) (i : ℕ) : ℕ := as.countP fun a => !a.released && a.handler = i

theorem share_le_outstanding (as : List Held) (i : ℕ) : share as i ≤ outstanding as :=
  List.countP_mono_left fun _ _ ha => (Bool.and_eq_true_iff.mp ha).1

/-- A handler that has as many as there are has them all. -/
theorem share_eq_outstanding_iff (as : List Held) (i : ℕ) :
    share as i = outstanding as ↔ ∀ a ∈ as, a.released = false → a.handler = i := by
  induction as with
  | nil => simp [share, outstanding]
  | cons a as ih =>
    have hle := share_le_outstanding as i
    rw [List.forall_mem_cons, ← ih]
    unfold share outstanding at hle ⊢
    rw [List.countP_cons, List.countP_cons]
    cases a.released with
    | true => simp
    | false =>
      by_cases hi : a.handler = i
      · simp [hi]
      · simp only [hi, decide_false, Bool.and_false, Bool.not_false, if_true, if_false,
          Bool.false_eq_true, forall_const, false_and, iff_false]
        omega

theorem outstanding_append (as : List Held) (i : ℕ) (client : GoString) :
    outstanding (as ++ [{ handler := i, client }]) = outstanding as + 1 := by
  rw [outstanding, List.countP_append, List.countP_singleton]
  rfl

theorem share_append (as : List Held) (i j : ℕ) (client : GoString) :
    share (as ++ [{ handler := i, client }]) j = share as j + if i = j then 1 else 0 := by
  rw [share, List.countP_append, List.countP_singleton, share]
  by_cases hij : i = j
  · simp [hij]
  · simp [hij]

section Release

variable {as : List Held} {k : ℕ} {a : Held} (ha : as[k]? = some a) (hheld : a.released = false)
include ha hheld

theorem outstanding_set :
    outstanding as = outstanding (as.set k { a with released := true }) + 1 := by
  have h := countP_set_of_not ha { a with released := true } (p := fun a : Held => !a.released) rfl
  rw [hheld] at h
  exact h

theorem share_set (j : ℕ) :
    share as j = share (as.set k { a with released := true }) j +
      if a.handler = j then 1 else 0 := by
  have h := countP_set_of_not ha { a with released := true }
    (p := fun a : Held => !a.released && a.handler = j) rfl
  simp only [hheld, Bool.not_false, Bool.true_and, decide_eq_true_eq] at h
  exact h

end Release

/-! ## The invariant -/

/-- The invariant of a history. -/
structure Inv (handlers : ℕ → Handler) (es : List Event) (s : Process) : Prop where
  counters : ∀ i, (s.counters i).active = share s.associations i
  active : s.metrics.active = outstanding s.associations
  associations : s.metrics.associations = s.associations.length
  closures : ∃ reasons : List GoString, s.metrics.closures.Counts reasons ∧
    reasons.length + outstanding s.associations = s.associations.length
  peakValue : s.metrics.activePeakValue = s.metrics.activePeak
  /-- The peak is not below the count of any handler. -/
  le_peak : ∀ i, share s.associations i ≤ s.metrics.activePeak
  /-- The peak was the count of a handler. -/
  reached : ∃ t i, Visits (step handlers) {} es t ∧ s.metrics.activePeak = share t.associations i

theorem inv_init (handlers : ℕ → Handler) : Inv handlers [] {} where
  counters := fun _ => rfl
  active := rfl
  associations := rfl
  closures := ⟨[], counts_empty, rfl⟩
  peakValue := rfl
  le_peak := fun _ => le_rfl
  reached := ⟨{}, 0, visits_init _ _, rfl⟩

theorem Inv.refused {handlers : ℕ → Handler} {es : List Event} {s : Process}
    (h : Inv handlers es s) (e : Event) (limit : GoString) :
    Inv handlers (es ++ [e]) { s with metrics := s.metrics.recordConnectUDPAdmission limit } where
  counters := h.counters
  active := h.active
  associations := h.associations
  closures := h.closures
  peakValue := h.peakValue
  le_peak := h.le_peak
  reached := by
    obtain ⟨t, i, ht, heq⟩ := h.reached
    exact ⟨t, i, ht.concat e, heq⟩

theorem Inv.again {handlers : ℕ → Handler} {es : List Event} {s : Process}
    (h : Inv handlers es s) (e : Event) : Inv handlers (es ++ [e]) s := by
  obtain ⟨t, i, ht, heq⟩ := h.reached
  exact { h with reached := ⟨t, i, ht.concat e, heq⟩ }

theorem Inv.admitted {handlers : ℕ → Handler} {es : List Event} {s s' : Process} {e : Event}
    {i : ℕ} {client : GoString} {counters : Counters} (h : Inv handlers es s)
    (hactive : counters.active = (s.counters i).active + 1)
    (hs' : s' = { counters := Function.update s.counters i counters
                  associations := s.associations ++ [{ handler := i, client }]
                  metrics := s.metrics.recordConnectUDPAdmissionAccepted counters.active.toNat })
    (hrun : runFrom (step handlers) {} (es ++ [e]) = some s') :
    Inv handlers (es ++ [e]) s' := by
  have hshare : counters.active = share s'.associations i := by
    rw [hactive, h.counters, hs', share_append, if_pos rfl]
    push_cast
    rfl
  have hmetrics := Metrics.recordConnectUDPAdmissionAccepted_of_eq h.peakValue counters.active.toNat
  have hpeak : s'.metrics.activePeak = max s.metrics.activePeak (share s'.associations i) := by
    rw [← Int.toNat_natCast (share s'.associations i), ← hshare, hs', hmetrics]
  refine ⟨fun j => ?_, ?_, ?_, ?_, ?_, fun j => ?_, ?_⟩
  · by_cases hij : i = j
    · subst hij
      have hself : s'.counters i = counters := hs' ▸ Function.update_self ..
      rw [hself, hshare]
    · have hother : s'.counters j = s.counters j := hs' ▸ Function.update_of_ne (Ne.symm hij) ..
      rw [hother, h.counters, hs', share_append, if_neg hij, add_zero]
  · rw [hs', hmetrics, outstanding_append, h.active]
    push_cast
    rfl
  · rw [hs', hmetrics, List.length_append, h.associations]
    rfl
  · obtain ⟨reasons, hcounts, hlength⟩ := h.closures
    refine ⟨reasons, ?_, ?_⟩
    · rwa [hs', hmetrics]
    · rw [hs', outstanding_append, List.length_append, ← hlength, ← add_assoc]
      rfl
  · rw [hs', hmetrics]
  · rw [hpeak]
    by_cases hij : i = j
    · exact hij ▸ le_max_right ..
    · rw [hs', share_append, if_neg hij, add_zero]
      exact (h.le_peak j).trans (le_max_left ..)
  · obtain ⟨t, j, ht, heq⟩ := h.reached
    rcases max_choice s.metrics.activePeak (share s'.associations i) with hmax | hmax
    · exact ⟨t, j, ht.concat e, by rw [hpeak, hmax, heq]⟩
    · exact ⟨s', i, visits_last hrun, by rw [hpeak, hmax]⟩

theorem Inv.released {handlers : ℕ → Handler} {es : List Event} {s : Process}
    (h : Inv handlers es s) (e : Event) {k : ℕ} {a : Held} (ha : s.associations[k]? = some a)
    (hheld : a.released = false) (reason : List GoString) (duration : ℤ) :
    Inv handlers (es ++ [e]) (release s k a reason duration) := by
  have hout := outstanding_set ha hheld
  have hshare := share_set ha hheld
  refine ⟨fun j => ?_, ?_, ?_, ?_, h.peakValue, fun j => ?_, ?_⟩
  · have hj := h.counters j
    by_cases hij : a.handler = j
    · subst hij
      have hself : (release s k a reason duration).counters a.handler =
          (s.counters a.handler).release a.client := Function.update_self ..
      rw [hshare, if_pos rfl] at hj
      rw [hself, Counters.release, hj]
      push_cast
      exact add_sub_cancel_right ..
    · have hother : (release s k a reason duration).counters j = s.counters j :=
        Function.update_of_ne (Ne.symm hij) ..
      rw [hshare, if_neg hij] at hj
      rw [hother, hj]
      rfl
  · have hactive := h.active
    rw [hout] at hactive
    rw [release, Metrics.recordConnectUDPAdmissionReleased, hactive]
    push_cast
    omega
  · rw [release, List.length_set]
    exact h.associations
  · obtain ⟨reasons, hcounts, hlength⟩ := h.closures
    refine ⟨reasons ++ [releaseReason reason],
      hcounts.increment (occurrences_append_singleton _ _), ?_⟩
    change (reasons ++ [releaseReason reason]).length +
      outstanding (s.associations.set k { a with released := true }) =
        (s.associations.set k { a with released := true }).length
    rw [List.length_append, List.length_singleton, List.length_set, ← hlength, hout, add_right_comm,
      add_assoc]
  · have hj := h.le_peak j
    rw [hshare j] at hj
    exact (Nat.le_add_right ..).trans hj
  · obtain ⟨t, i, ht, heq⟩ := h.reached
    exact ⟨t, i, ht.concat e, heq⟩

/-- A call never lowers the number of the peak. -/
theorem activePeakValue_mono {handlers : ℕ → Handler} {s s' : Process} {e : Event}
    (h : step handlers s e = some s') : s.metrics.activePeakValue ≤ s'.metrics.activePeakValue := by
  cases move_of_step h with
  | admitted hactive =>
    rw [Metrics.activePeakValue_accepted]
    exact le_max_left ..
  | _ => exact le_rfl

theorem inv_of_run {handlers : ℕ → Handler} {es : List Event} {s : Process}
    (hrun : runFrom (step handlers) {} es = some s) : Inv handlers es s := by
  refine runFrom_history (inv_init handlers) (fun es s e s' hrun h hstep => ?_) hrun
  have hrun' : runFrom (step handlers) {} (es ++ [e]) = some s' := by
    rw [runFrom_append, hrun, Option.bind_some, runFrom_cons, hstep]
    rfl
  cases move_of_step hstep with
  | refused limit => exact h.refused _ limit
  | admitted hactive => exact h.admitted hactive rfl hrun'
  | again => exact h.again _
  | released ha hheld => exact h.released _ ha hheld _ _

/-! ## The gauges -/

/-- The values the active gauge has had. -/
def shown (handlers : ℕ → Handler) (es : List Event) : Set ℤ :=
  { value | ∃ t, Visits (step handlers) {} es t ∧ t.metrics.active = value }

section History

variable {handlers : ℕ → Handler} {es : List Event} {s t : Process}

theorem active_of_visits (ht : Visits (step handlers) {} es t) :
    t.metrics.active = outstanding t.associations := by
  obtain ⟨es₁, -, -, hrun₁⟩ := ht
  exact (inv_of_run hrun₁).active

/-- The peak is not below the count that any handler has had. -/
theorem share_le_activePeak (hrun : runFrom (step handlers) {} es = some s)
    (ht : Visits (step handlers) {} es t) (i : ℕ) :
    share t.associations i ≤ s.metrics.activePeak := by
  obtain ⟨es₁, -, -, hrun₁⟩ := id ht
  have h₁ := inv_of_run hrun₁
  calc share t.associations i ≤ t.metrics.activePeak := h₁.le_peak i
    _ = t.metrics.activePeakValue := h₁.peakValue.symm
    _ ≤ s.metrics.activePeakValue := ht.le_last (fun _ _ _ => activePeakValue_mono) hrun
    _ = s.metrics.activePeak := (inv_of_run hrun).peakValue

/-- The counters of a process. -/
theorem Inv.associations_sub (h : Inv handlers es s) :
    s.metrics.associations - s.metrics.closures.total = s.metrics.active := by
  obtain ⟨reasons, hcounts, hlength⟩ := h.closures
  rw [hcounts.total, h.associations, h.active, ← hlength]
  push_cast
  exact add_sub_cancel_left ..

end History

/-- **The gauges in a history.** -/
theorem gauges_agree_iff {handlers : ℕ → Handler} {es : List Event} {s : Process}
    (hrun : runFrom (step handlers) {} es = some s) :
    s.metrics.active = outstanding s.associations ∧
      s.metrics.associations - s.metrics.closures.total = s.metrics.active ∧
      (IsGreatest (shown handlers es) (s.metrics.activePeak : ℤ) ↔
        ∃ t, Visits (step handlers) {} es t ∧ t.metrics.active ∈ upperBounds (shown handlers es) ∧
          ∃ i, ∀ a ∈ t.associations, a.released = false → a.handler = i) := by
  have h := inv_of_run hrun
  obtain ⟨u, j, hu, hpeak⟩ := h.reached
  refine ⟨h.active, h.associations_sub, ?_, ?_⟩
  · rintro ⟨-, hub⟩
    have hule := hub ⟨u, hu, rfl⟩
    rw [active_of_visits hu, Nat.cast_le, hpeak] at hule
    have heq := le_antisymm (share_le_outstanding _ _) hule
    refine ⟨u, hu, ?_, j, (share_eq_outstanding_iff _ _).mp heq⟩
    rwa [active_of_visits hu, ← heq, ← hpeak]
  · rintro ⟨t, ht, hub, i, hall⟩
    have hshare := (share_eq_outstanding_iff _ _).mpr hall
    have hge : t.metrics.active ≤ s.metrics.activePeak := by
      rw [active_of_visits ht, ← hshare, Nat.cast_le]
      exact share_le_activePeak hrun ht i
    have hpeakle : (s.metrics.activePeak : ℤ) ≤ t.metrics.active := by
      calc (s.metrics.activePeak : ℤ) ≤ outstanding u.associations := by
            rw [hpeak, Nat.cast_le]
            exact share_le_outstanding _ _
        _ = u.metrics.active := (active_of_visits hu).symm
        _ ≤ t.metrics.active := hub ⟨u, hu, rfl⟩
    rw [le_antisymm hpeakle hge]
    exact ⟨⟨t, ht, rfl⟩, hub⟩

/-- Sites with the defaults. -/
def sites : ℕ → Handler := fun _ => { aclRules := [] }

/-- Two associations of one site, and one of them is released. -/
theorem gauges_agree_oneSite : ∃ s, runFrom (step sites) {}
      [.acquire 0 [], .acquire 0 [], .release 0 [] 1] = some s ∧
    s.metrics.active = 1 ∧ s.metrics.associations - s.metrics.closures.total = 1 ∧
    s.metrics.activePeak = 2 := by
  have hrun : ∃ s, runFrom (step sites) {} [.acquire 0 [], .acquire 0 [], .release 0 [] 1] =
      some s ∧ outstanding s.associations = 1 ∧ s.metrics.activePeak = 2 :=
      ⟨_, rfl, by decide, by decide⟩
  obtain ⟨s, hrun, hone, hpeak⟩ := hrun
  obtain ⟨hactive, hclosures, -⟩ := gauges_agree_iff hrun
  rw [hone] at hactive
  exact ⟨s, hrun, hactive, hclosures.trans hactive, hpeak⟩

/-- One association of each of two sites: two are active, and the peak is one. -/
theorem gauges_twoSites : ¬ ∀ (handlers : ℕ → Handler) (es : List Event) (s : Process),
    runFrom (step handlers) {} es = some s →
      IsGreatest (shown handlers es) (s.metrics.activePeak : ℤ) := by
  intro h
  have hub := (h sites [.acquire 0 [], .acquire 1 []] _ rfl).2 ⟨_, visits_last rfl, rfl⟩
  revert hub
  decide

end Gauges
end ConnectUdp
end ForwardProxy
