import ForwardProxy.ConnectUdp.Pump
import ForwardProxy.Core.Doubling

/-!
# What an association logs (`native_udp_association.go`)

A peer can send malformed datagrams at line rate, and `countEvent` is called for each of them.  It
writes to the log only when the counter reaches a power of two, so a flood of `n` datagrams costs
about `log₂ n` lines; and whoever reads the log knows from the last of them how many there were, up
to a factor of two.

Both loops go on after one kind of event only: `malformed_context` from the stream to the socket,
`oversize` the other way.  All other events end the loop, and are logged as the first of their kind.

## Main results

* `events_logged`: the log of a pump, in full.
-/

namespace ForwardProxy
namespace ConnectUdp
namespace Pump

open ForwardProxy.Core

/-- What an entry says, apart from the size of the datagram. -/
def LogEntry.report (e : LogEntry) : UInt64 × GoString × ℕ :=
  (e.associationID, e.reason, e.count.toNat)

/-- The reports of a counter that has reached `n`. -/
def reports (a : Association) (reason : GoString) (n : ℕ) : List (UInt64 × GoString × ℕ) :=
  if a.logger then (powersUpTo n).map fun count => (a.id, reason, count) else []

/-- The pump has counted `n` events of one kind, and none of another. -/
structure Counted (a : Association) (counter : Counter) (reason : GoString) (n : ℕ) (st : State) :
    Prop where
  count : st.counters counter = UInt64.ofNat n
  rest : ∀ c ≠ counter, st.counters c = 0
  log : st.log.map LogEntry.report = reports a reason n

/-- The pump has returned: after `n` events of one kind there is at most one of another. -/
structure Ended (a : Association) (counter : Counter) (reason : GoString) (n : ℕ) (st : State) :
    Prop where
  count : st.counters counter = UInt64.ofNat n
  log : ∃ last, st.log.map LogEntry.report = reports a reason n ++ last ∧
    (last = [] ∨ ∃ why ≠ reason, last = reports a why 1)

variable {a : Association} {counter : Counter} {reason : GoString} {n : ℕ} {st : State}

theorem reports_zero (a : Association) (reason : GoString) : reports a reason 0 = [] := by
  rw [reports, powersUpTo_zero, List.map_nil, ite_self]

theorem reports_succ :
    reports a reason (n + 1) = reports a reason n ++
      if (n + 1) &&& n = 0 ∧ a.logger then [(a.id, reason, n + 1)] else [] := by
  unfold reports
  cases a.logger with
  | false => simp
  | true =>
    rw [powersUpTo_succ, if_pos rfl, if_pos rfl, List.map_append]
    by_cases hpow : (n + 1) &&& n = 0
    · rw [if_pos hpow, if_pos ⟨hpow, rfl⟩]
      rfl
    · rw [if_neg hpow, if_neg fun h => hpow h.1]
      rfl

/-- The test of `countEvent` on the counter is the test on the number, as long as nothing wraps. -/
theorem and_pred_ofNat (hn : n + 1 < 2 ^ 64) :
    UInt64.ofNat (n + 1) &&& (UInt64.ofNat (n + 1) - 1) = 0 ↔ (n + 1) &&& n = 0 := by
  have hpred : UInt64.ofNat (n + 1) - 1 = UInt64.ofNat n := by
    rw [UInt64.ofNat_add]
    exact UInt64.add_sub_cancel _ _
  rw [hpred, ← UInt64.toNat_inj, UInt64.toNat_and, UInt64.toNat_ofNat_of_lt' hn,
    UInt64.toNat_ofNat_of_lt' (Nat.lt_of_succ_lt hn)]
  rfl

theorem counters_countEvent_of_ne (a : Association) (st : State) {c d : Counter} (why : GoString)
    (bytes : ℕ) (h : d ≠ c) : (st.countEvent a c why bytes).counters d = st.counters d := by
  simp only [State.countEvent, Function.update_of_ne h]

/-- One more event, of whatever kind. -/
theorem report_countEvent (a : Association) (why : GoString) (bytes : ℕ) {c : Counter}
    (hn : n + 1 < 2 ^ 64) (hcount : st.counters c = UInt64.ofNat n) :
    (st.countEvent a c why bytes).counters c = UInt64.ofNat (n + 1) ∧
      (st.countEvent a c why bytes).log.map LogEntry.report = st.log.map LogEntry.report ++
        if (n + 1) &&& n = 0 ∧ a.logger then [(a.id, why, n + 1)] else [] := by
  have hnext : st.counters c + 1 = UInt64.ofNat (n + 1) := by
    rw [hcount, UInt64.ofNat_add]
    rfl
  refine ⟨?_, ?_⟩
  · simp only [State.countEvent, Function.update_self, hnext]
  · simp only [State.countEvent, hnext, and_pred_ofNat hn]
    split_ifs with hlog
    · rw [List.map_append, List.map_singleton, LogEntry.report, UInt64.toNat_ofNat_of_lt' hn]
    · rw [List.append_nil]

/-- An event of the kind after which the loop goes on. -/
theorem Counted.countEvent (h : Counted a counter reason n st) (bytes : ℕ) (hn : n + 1 < 2 ^ 64) :
    Counted a counter reason (n + 1) (st.countEvent a counter reason bytes) := by
  obtain ⟨hcount, hreport⟩ := report_countEvent a reason bytes hn h.count
  refine ⟨hcount, fun c hc => ?_, ?_⟩
  · rw [counters_countEvent_of_ne a st reason bytes hc, h.rest c hc]
  · rw [hreport, h.log, reports_succ]

/-- An event that ends the loop. -/
theorem Counted.last (h : Counted a counter reason n st) {c : Counter} {why : GoString} (bytes : ℕ)
    (hc : c ≠ counter) (hwhy : why ≠ reason) :
    Ended a counter reason n (st.countEvent a c why bytes) := by
  obtain ⟨-, hreport⟩ := report_countEvent (n := 0) a why bytes (by decide) (h.rest c hc)
  refine ⟨?_, reports a why 1, ?_, .inr ⟨why, hwhy, rfl⟩⟩
  · rw [counters_countEvent_of_ne a st why bytes (Ne.symm hc), h.count]
  · rw [hreport, h.log, reports_succ, reports_zero, List.nil_append]

theorem Counted.ended (h : Counted a counter reason n st) : Ended a counter reason n st :=
  ⟨h.count, [], by rw [h.log, List.append_nil], .inl rfl⟩

/-- A datagram that is handed on is not an event. -/
theorem Counted.handOn (h : Counted a counter reason n st) (sent : List (List UInt8))
    (notified : ℕ) : Counted a counter reason n { st with sent := sent, notified := notified } :=
  ⟨h.count, h.rest, h.log⟩

/-- Before the first event. -/
theorem counted_init (a : Association) (counter : Counter) (reason : GoString) :
    Counted a counter reason 0 {} :=
  ⟨rfl, fun _ _ => rfl, (reports_zero a reason).symm⟩

/-! ## The two loops -/

variable {rs : List (Except IOErr (List UInt8))}

/-- From the stream to the socket. -/
theorem ended_pumpH3ToUDP (udp : ℕ → List UInt8 → ℕ × Option IOErr)
    (h : Counted a .malformedContext (ascii "malformed_context") n st)
    (hn : n + rs.length < 2 ^ 64) : ∃ m ≤ n + rs.length,
      Ended a .malformedContext (ascii "malformed_context") m (pumpH3ToUDP a udp st rs).1 := by
  -- by induction on the answers of the stream; only a malformed datagram is counted and passed over
  induction rs generalizing n st with
  | nil => exact ⟨n, le_rfl, h.ended⟩
  | cons r rs ih =>
    rw [List.length_cons] at hn ⊢
    cases r with
    | error err => exact ⟨n, Nat.le_add_right _ _, h.last 0 (by decide) (by decide)⟩
    | ok datagram =>
      cases hd : relayable a datagram with
      | none =>
        rw [pumpH3ToUDP_skip hd]
        obtain ⟨m, hm, hended⟩ := ih (h.countEvent datagram.length (by omega)) (by omega)
        exact ⟨m, by omega, hended⟩
      | some payload =>
        have hsent := h.handOn (st.sent ++ [payload])
        simp only [pumpH3ToUDP, receive_of_some hd]
        generalize udp st.sent.length payload = answer
        obtain ⟨written, err⟩ := answer
        cases err with
        | some err =>
          exact ⟨n, Nat.le_add_right _ _, (hsent st.notified).last _ (by decide) (by decide)⟩
        | none =>
          by_cases hshort : written ≠ payload.length
          · simp only [afterWrite, if_pos hshort]
            exact ⟨n, Nat.le_add_right _ _, (hsent st.notified).last _ (by decide) (by decide)⟩
          · simp only [afterWrite, if_neg hshort]
            obtain ⟨m, hm, hended⟩ := ih (hsent (st.notified + 1)) (by omega)
            exact ⟨m, by omega, hended⟩

/-- From the socket to the stream. -/
theorem ended_pumpUDPToH3 (h3 : ℕ → List UInt8 → Option SendError) (ctx : ℕ → Option IOErr)
    (buffer : Buffer) (h : Counted a .oversize (ascii "oversize") n st)
    (hn : n + rs.length < 2 ^ 64) :
    ∃ m ≤ n + rs.length,
      Ended a .oversize (ascii "oversize") m (pumpUDPToH3 a h3 ctx st buffer rs).1 := by
  induction rs generalizing n st buffer with
  | nil => exact ⟨n, le_rfl, h.ended⟩
  | cons r rs ih =>
    rw [List.length_cons] at hn ⊢
    cases r with
    | error err => exact ⟨n, Nat.le_add_right _ _, h.last 0 (by decide) (by decide)⟩
    | ok packet =>
      simp only [pumpUDPToH3, read]
      generalize encodeConnectUDPDatagram _ _ = datagram
      have hsent := h.handOn (st.sent ++ [datagram])
      cases hsend : h3 st.sent.length datagram with
      | none =>
        cases hctx : ctx st.sent.length with
        | some err =>
          simp only [afterSend]
          exact ⟨n, Nat.le_add_right _ _, (hsent (st.notified + 1)).ended⟩
        | none =>
          simp only [afterSend]
          obtain ⟨m, hm, hended⟩ := ih _ (hsent (st.notified + 1)) (by omega)
          exact ⟨m, by omega, hended⟩
      | some err =>
        cases err with
        | other err =>
          exact ⟨n, Nat.le_add_right _ _, (hsent st.notified).last _ (by decide) (by decide)⟩
        | tooLarge =>
          obtain ⟨m, hm, hended⟩ :=
            ih _ ((hsent st.notified).countEvent datagram.length (by omega)) (by omega)
          exact ⟨m, by omega, hended⟩

/-! ## The log -/

/-- What can be said of the log of a pump that was given so many answers. -/
structure Logged (a : Association) (counter : Counter) (reason : GoString) (received : ℕ)
    (st : State) : Prop where
  /-- The log is the reports of the counter, and at most one entry about the end. -/
  ended : ∃ n ≤ received, Ended a counter reason n st
  /-- It is short, whatever the peer sends. -/
  length : st.log.length ≤ received.size + 1
  /-- Some entry tells the number of events, up to a factor of two. -/
  accurate : a.logger = true → st.counters counter ≠ 0 → ∃ e ∈ st.log,
    e.associationID = a.id ∧ e.reason = reason ∧
      e.count.toNat ≤ (st.counters counter).toNat ∧ (st.counters counter).toNat < 2 * e.count.toNat

theorem length_reports_le : (reports a reason n).length ≤ n.size := by
  unfold reports
  split_ifs with hlogger
  · rw [List.length_map, length_powersUpTo]
  · exact Nat.zero_le _

theorem Ended.logged {received : ℕ} (h : Ended a counter reason n st) (hn : n ≤ received)
    (hreceived : received < 2 ^ 64) : Logged a counter reason received st := by
  obtain ⟨last, hlog, hlast⟩ := h.log
  have hcount : (st.counters counter).toNat = n := by
    rw [h.count, UInt64.toNat_ofNat_of_lt' (hn.trans_lt hreceived)]
  refine ⟨⟨n, hn, h⟩, ?_, fun hlogger hne => ?_⟩
  · have hshort : last.length ≤ 1 := by
      rcases hlast with rfl | ⟨why, -, rfl⟩
      · exact Nat.zero_le _
      · exact length_reports_le
    calc st.log.length = (reports a reason n ++ last).length := by rw [← hlog, List.length_map]
      _ ≤ n.size + 1 := by
        rw [List.length_append]
        exact Nat.add_le_add length_reports_le hshort
      _ ≤ received.size + 1 := Nat.succ_le_succ (Nat.size_le_size hn)
  · have hpos : n ≠ 0 := fun h0 => hne (UInt64.toNat_inj.mp (hcount.trans h0))
    obtain ⟨k, hk, hle, hlt⟩ := exists_mem_powersUpTo hpos
    have hreport : (a.id, reason, k) ∈ st.log.map LogEntry.report := by
      rw [hlog, reports, if_pos hlogger]
      exact List.mem_append_left _ (List.mem_map_of_mem hk)
    obtain ⟨e, he, hreport⟩ := List.mem_map.mp hreport
    obtain ⟨hid, hreason, rfl⟩ : e.associationID = a.id ∧ e.reason = reason ∧
        e.count.toNat = k := by
      simpa [LogEntry.report] using hreport
    exact ⟨e, he, hid, hreason, hcount ▸ hle, hcount ▸ hlt⟩

/-- **The log of an association.**  Whatever a pump is given, up to `2 ^ 64` datagrams or packets,
its log is this: the events after which the loop goes on are reported when their number is a power
of two, each power once and in order, and after them stands at most one entry, of another kind,
about the event that ended the loop.  So a pump that was given `n` datagrams writes at most
`Nat.size n + 1` entries, and one of them tells the number of the events up to a factor of two. -/
theorem events_logged (a : Association) (rs : List (Except IOErr (List UInt8)))
    (hrs : rs.length < 2 ^ 64) :
    (∀ udp, Logged a .malformedContext (ascii "malformed_context") rs.length
      (pumpH3ToUDP a udp {} rs).1) ∧
    ∀ h3 ctx, Logged a .oversize (ascii "oversize") rs.length
      (pumpUDPToH3 a h3 ctx {} newBuffer rs).1 := by
  refine ⟨fun udp => ?_, fun h3 ctx => ?_⟩
  · obtain ⟨n, hn, hended⟩ := ended_pumpH3ToUDP udp
      (counted_init a .malformedContext (ascii "malformed_context")) ((Nat.zero_add _).trans_lt hrs)
    exact hended.logged (hn.trans_eq (Nat.zero_add _)) hrs
  · obtain ⟨n, hn, hended⟩ := ended_pumpUDPToH3 h3 ctx newBuffer
      (counted_init a .oversize (ascii "oversize")) ((Nat.zero_add _).trans_lt hrs)
    exact hended.logged (hn.trans_eq (Nat.zero_add _)) hrs

/-- An association with a logger. -/
def loggedAssociation : Association := { firstAssociation with id := 7, logger := true }

/-- Five malformed datagrams and then an error of the stream: the first, second and fourth are
logged, and the error. -/
theorem events_logged_fiveMalformed :
    ((pumpH3ToUDP loggedAssociation secondFails {}
        (List.replicate 5 (.ok [64, 0, 66]) ++ [.error .eof])).1.log.map LogEntry.report =
      [(7, ascii "malformed_context", 1), (7, ascii "malformed_context", 2),
        (7, ascii "malformed_context", 4), (7, ascii "h3_read_error", 1)]) ∧
    Logged loggedAssociation .malformedContext (ascii "malformed_context") 6
      (pumpH3ToUDP loggedAssociation secondFails {}
        (List.replicate 5 (.ok [64, 0, 66]) ++ [.error .eof])).1 :=
  ⟨by decide, (events_logged _ (List.replicate 5 (.ok [64, 0, 66]) ++ [.error .eof])
    (by decide)).1 _⟩

end Pump
end ConnectUdp
end ForwardProxy
