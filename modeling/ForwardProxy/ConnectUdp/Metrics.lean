import ForwardProxy.Core.CountMap
import ForwardProxy.Core.GoString

/-!
# The metrics of CONNECT-UDP (`native_udp_metrics.go`)

The metrics belong to the process, not to a handler.  The peak is kept twice: as an atomic number,
which a loop of compare-and-swap raises, and as a gauge, which the call that has raised the number
writes afterwards.  `recordConnectUDPAdmissionAccepted` is given here as one function, for callers
that run one after the other; `ConnectUdp.PeakRace` has it operation by operation.

A gauge is a floating point number in the source; here it is the number that is converted.
-/

namespace ForwardProxy
namespace ConnectUdp

open ForwardProxy.Core

/-- `connectUDPMetrics`, after `initConnectUDPMetrics`. -/
structure Metrics where
  /-- The gauge of active associations. -/
  active : ℤ := 0
  /-- The gauge of the peak. -/
  activePeak : ℕ := 0
  activePeakValue : ℕ := 0
  associations : ℕ := 0
  /-- By limit. -/
  admissionRejections : CountMap GoString := ∅
  /-- By reason. -/
  closures : CountMap GoString := ∅
  /-- What the histogram has observed. -/
  duration : List ℤ := []

namespace Metrics

/-- `recordConnectUDPAdmission`. -/
def recordConnectUDPAdmission (m : Metrics) (limit : GoString) : Metrics :=
  { m with admissionRejections := m.admissionRejections.increment limit }

/-- `recordConnectUDPAdmissionAccepted`, without another caller in between: the first
compare-and-swap succeeds. -/
def recordConnectUDPAdmissionAccepted (m : Metrics) (active : ℕ) : Metrics :=
  let m := { m with active := m.active + 1, associations := m.associations + 1 }
  if active ≤ m.activePeakValue then m
  else { m with activePeakValue := active, activePeak := active }

/-- `recordConnectUDPAdmissionReleased`. -/
def recordConnectUDPAdmissionReleased (m : Metrics) (reason : GoString) (duration : ℤ) : Metrics :=
  { m with active := m.active - 1, closures := m.closures.increment reason,
           duration := m.duration ++ [duration] }

theorem activePeakValue_accepted (m : Metrics) (active : ℕ) :
    (m.recordConnectUDPAdmissionAccepted active).activePeakValue =
      max m.activePeakValue active := by
  unfold recordConnectUDPAdmissionAccepted
  dsimp only
  split
  case isTrue hle => exact (max_eq_left hle).symm
  case isFalse hlt => exact (max_eq_right (not_le.mp hlt).le).symm

/-- As long as the gauge agrees with the number, both become the maximum. -/
theorem recordConnectUDPAdmissionAccepted_of_eq {m : Metrics}
    (h : m.activePeakValue = m.activePeak) (active : ℕ) :
    m.recordConnectUDPAdmissionAccepted active =
      { m with active := m.active + 1, associations := m.associations + 1,
               activePeak := max m.activePeak active,
               activePeakValue := max m.activePeak active } := by
  unfold recordConnectUDPAdmissionAccepted
  dsimp only
  split
  case isTrue hle => rw [← h, max_eq_left hle]
  case isFalse hlt => rw [← h, max_eq_right (not_le.mp hlt).le]

end Metrics

end ConnectUdp
end ForwardProxy
