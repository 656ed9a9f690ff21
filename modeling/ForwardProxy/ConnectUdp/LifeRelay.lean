import ForwardProxy.ConnectUdp.Teardown

/-!
# What an association relays in its life

The two pumps, `run`, the timer and the contexts interleave.  Each pump keeps no queue, so what it
has handed on and what it is about to hand on (`Process.handed`) is, at every moment, what it was
given to hand on.  One step adds to that what it receives (`handed_step`), and a whole life adds it
up.

## Main results

* `life_relays`: in every interleaving, what a pump has handed on is what it has received, in order
  and each once, but for one datagram that it holds; when `run` has returned it holds none.
-/

namespace ForwardProxy
namespace ConnectUdp
namespace Lifecycle

open ForwardProxy.Core Pump

/-- What a pump makes of what it receives; `none` is nothing. -/
def Direction.relayed (a : Association) : Direction → List UInt8 → Option (List UInt8)
  | .h3ToUDP, datagram => relayable a datagram
  | .udpToH3, packet => some (datagramOf a packet)

/-- What a pump receives in an action. -/
def Event.receipt (d : Direction) : Event → Option (List UInt8)
  | .input d' (.ok data) => if d' = d then some data else none
  | _ => none

/-- What a pump is about to hand on. -/
def PumpPc.pending : PumpPc → List (List UInt8)
  | .calling data => [data]
  | _ => []

/-- What a pump has handed on, and is about to. -/
def Process.handed (p : Process) : List (List UInt8) := p.st.sent ++ p.pc.pending

theorem Process.handed_of_pending {p : Process} (h : p.pc.pending = []) : p.handed = p.st.sent := by
  rw [Process.handed, h, List.append_nil]

/-! ## One action of a pump -/

section Pumps

variable {a : Association} {d : Direction} {p : Process}

/-- A pump that waits takes what it receives, and fills its buffer anew. -/
theorem handed_input (hpc : p.pc = .waiting) (hlen : p.buffer.len = connectUDPMaxUDPPayload)
    (answer : Except IOErr (List UInt8)) :
    (p.input a d answer).handed =
        p.handed ++ (((Event.input d answer).receipt d).bind (d.relayed a)).toList ∧
      (p.input a d answer).buffer.len = connectUDPMaxUDPPayload := by
  have hpending : p.handed = p.st.sent := Process.handed_of_pending (by rw [hpc]; rfl)
  rw [hpending]
  cases answer with
  | error err => cases d <;> exact ⟨rfl, hlen⟩
  | ok data =>
    rw [Event.receipt, if_pos rfl, Option.bind_some]
    cases d with
    | h3ToUDP =>
      rw [Direction.relayed, Process.input]
      cases hdata : relayable a data with
      | none =>
        rw [receive_of_none hdata]
        exact ⟨rfl, hlen⟩
      | some payload =>
        rw [receive_of_some hdata]
        exact ⟨rfl, hlen⟩
    | udpToH3 =>
      obtain ⟨buffer, hread, hbuffer⟩ := read_ok a p.st data hlen
      rw [Direction.relayed, Process.input, hread]
      exact ⟨rfl, hbuffer⟩

theorem handed_call {data : List UInt8} (hpc : p.pc = .calling data) :
    (p.call data).handed = p.handed := by
  rw [Process.handed, Process.handed, hpc]
  exact List.append_nil _

theorem handed_wrote {payload : List UInt8} (hpc : p.pc = .called payload)
    (answer : ℕ × Option IOErr) : (p.wrote a payload answer).handed = p.handed ∧
      (p.wrote a payload answer).buffer = p.buffer := by
  have hpending : p.handed = p.st.sent := Process.handed_of_pending (by rw [hpc]; rfl)
  rw [hpending]
  obtain ⟨n, _ | err⟩ := answer
  · rw [Process.wrote, afterWrite]
    split_ifs
    · exact ⟨List.append_nil _, rfl⟩
    · exact ⟨List.append_nil _, rfl⟩
  · exact ⟨List.append_nil _, rfl⟩

theorem handed_sent {datagram : List UInt8} (hpc : p.pc = .called datagram)
    (answer : Option SendError) : (p.sent a datagram answer).handed = p.handed ∧
      (p.sent a datagram answer).buffer = p.buffer := by
  have hpending : p.handed = p.st.sent := Process.handed_of_pending (by rw [hpc]; rfl)
  rw [hpending]
  rcases answer with _ | _ | err
  · exact ⟨List.append_nil _, rfl⟩
  · exact ⟨List.append_nil _, rfl⟩
  · exact ⟨List.append_nil _, rfl⟩

theorem handed_notified (hpc : p.pc = .notifying) : (p.notified d).handed = p.handed ∧
    (p.notified d).buffer = p.buffer := by
  have hpending : p.handed = p.st.sent := Process.handed_of_pending (by rw [hpc]; rfl)
  rw [hpending]
  cases d <;> exact ⟨List.append_nil _, rfl⟩

theorem handed_check (hpc : p.pc = .checking) (ctx : Option Err) : (p.check ctx).handed = p.handed ∧
    (p.check ctx).buffer = p.buffer := by
  have hpending : p.handed = p.st.sent := Process.handed_of_pending (by rw [hpc]; rfl)
  rw [hpending]
  cases ctx <;> exact ⟨List.append_nil _, rfl⟩

end Pumps

/-! ## One step -/

variable {a : Association} {idleTimeout : ℕ} {s s' : State} {e : Event}

/-- The buffers have the length that they were made with. -/
def State.Buffered (s : State) : Prop := ∀ d, (s.pump d).buffer.len = connectUDPMaxUDPPayload

/-- What an action does to the pumps: that of one pump receives something, or hands on what it
has. -/
def Handed (a : Association) (e : Event) (s s' : State) : Prop :=
  ∀ d, (s'.pump d).handed = (s.pump d).handed ++ ((e.receipt d).bind (d.relayed a)).toList ∧
    (s'.pump d).buffer.len = (s.pump d).buffer.len

/-- An action that does not touch the pumps. -/
theorem handed_of_pump_eq (hpump : s'.pump = s.pump) (hreceipt : ∀ d, e.receipt d = none) :
    Handed a e s s' := by
  intro d
  rw [hpump, hreceipt]
  exact ⟨(List.append_nil _).symm, rfl⟩

/-- An action of one pump. -/
theorem handed_setPump {s₀ : State} {d : Direction} {p : Process} (hpump : s₀.pump = s.pump)
    (hother : ∀ d', d' ≠ d → e.receipt d' = none)
    (hself : p.handed = (s.pump d).handed ++ ((e.receipt d).bind (d.relayed a)).toList)
    (hbuffer : p.buffer.len = (s.pump d).buffer.len) : Handed a e s (s₀.setPump d p) := by
  intro d'
  by_cases hd : d' = d
  · subst hd
    rw [State.setPump_pump_self]
    exact ⟨hself, hbuffer⟩
  · have hframe : (s₀.setPump d p).pump d' = s.pump d' := by
      rw [State.setPump, ← hpump]
      exact Function.update_of_ne hd ..
    rw [hframe, hother d' hd]
    exact ⟨(List.append_nil _).symm, rfl⟩

/-- Only the actions of the pumps touch them. -/
theorem Move.pump_eq (hm : Move s e s') (he : e.pump = none) : s'.pump = s.pump := by
  cases hm with
  | advance hpump _ => exact absurd (he.symm.trans hpump) (by simp)
  | deliver _ _ => exact absurd he (by simp [Event.pump])
  | _ => rfl

theorem Event.receipt_eq_none {d : Direction} (h : e.pump ≠ some d) : e.receipt d = none := by
  cases e with
  | input d' answer =>
    cases answer with
    | error err => rfl
    | ok data => exact if_neg fun hd => h (congrArg some hd)
  | _ => rfl

theorem eq_input_of_receipt {d : Direction} {data : List UInt8} (h : e.receipt d = some data) :
    e = .input d (.ok data) := by
  cases e with
  | input d' answer =>
    cases answer with
    | error err => exact absurd h (by simp [Event.receipt])
    | ok data' =>
      obtain ⟨rfl, hdata⟩ := Option.ite_none_right_eq_some.mp h
      rw [Option.some_inj.mp hdata]
  | _ => exact absurd h (by simp [Event.receipt])

/-- **One step hands on what was received, or receives.** -/
theorem handed_step (hlen : s.Buffered) (h : step a idleTimeout s e = some s') :
    Handed a e s s' := by
  have hquiet : ∀ {d : Direction}, e.receipt d = none → ∀ l : List (List UInt8),
      l = l ++ ((e.receipt d).bind (d.relayed a)).toList := by
    intro d hnone l
    rw [hnone]
    exact (List.append_nil l).symm
  have hother : ∀ {d : Direction}, e.pump = some d → ∀ d', d' ≠ d → e.receipt d' = none :=
    fun hd d' hne =>
      Event.receipt_eq_none (by rw [hd]; exact fun heq => hne (Option.some_inj.mp heq).symm)
  cases e with
  | input d answer =>
    simp only [step] at h
    split at h
    · rename_i hpc
      obtain rfl := Option.some_inj.mp h
      obtain ⟨hself, hbuffer⟩ := handed_input (a := a) (d := d) hpc (hlen d) answer
      exact handed_setPump rfl (hother rfl) hself (hbuffer.trans (hlen d).symm)
    · exact absurd h (by simp)
  | call d =>
    simp only [step] at h
    split at h
    · rename_i data hpc
      obtain rfl := Option.some_inj.mp h
      exact handed_setPump rfl (hother rfl) ((handed_call hpc).trans (hquiet rfl _)) rfl
    · exact absurd h (by simp)
  | wrote n err =>
    simp only [step] at h
    split at h
    · rename_i payload hpc
      obtain rfl := Option.some_inj.mp h
      obtain ⟨hself, hbuffer⟩ := handed_wrote (a := a) hpc (n, err)
      exact handed_setPump rfl (hother rfl) (hself.trans (hquiet rfl _)) (by rw [hbuffer])
    · exact absurd h (by simp)
  | sent err =>
    simp only [step] at h
    split at h
    · rename_i datagram hpc
      obtain rfl := Option.some_inj.mp h
      obtain ⟨hself, hbuffer⟩ := handed_sent (a := a) hpc err
      exact handed_setPump rfl (hother rfl) (hself.trans (hquiet rfl _)) (by rw [hbuffer])
    · exact absurd h (by simp)
  | notify d =>
    simp only [step] at h
    split at h
    · rename_i hpc
      obtain rfl := Option.some_inj.mp h
      obtain ⟨hself, hbuffer⟩ := handed_notified (d := d) hpc
      exact handed_setPump rfl (hother rfl) (hself.trans (hquiet rfl _)) (by rw [hbuffer])
    · exact absurd h (by simp)
  | check =>
    simp only [step] at h
    split at h
    · rename_i hpc
      obtain rfl := Option.some_inj.mp h
      obtain ⟨hself, hbuffer⟩ := handed_check hpc s.ctx
      exact handed_setPump rfl (hother rfl) (hself.trans (hquiet rfl _)) (by rw [hbuffer])
    · exact absurd h (by simp)
  | deliver d =>
    simp only [step] at h
    split at h
    · rename_i err hpc
      split_ifs at h
      obtain rfl := Option.some_inj.mp h
      have hpending : (s.pump d).handed = (s.pump d).st.sent :=
        Process.handed_of_pending (by rw [hpc]; rfl)
      refine handed_setPump rfl (hother rfl) (Eq.trans ?_ (hquiet rfl _)) rfl
      rw [hpending]
      exact List.append_nil _
    · exact absurd h (by simp)
  | _ => exact handed_of_pump_eq ((move_of_step h).pump_eq rfl) fun d => rfl

/-! ## A whole life -/

/-- What a pump has received. -/
def receipts (d : Direction) (es : List Event) : List (List UInt8) := es.filterMap (Event.receipt d)

theorem handed_of_run {now : ℕ} {es : List Event}
    (hrun : runFrom (step a idleTimeout) (init now) es = some s) :
    s.Buffered ∧ ∀ d, (s.pump d).handed = (receipts d es).filterMap (d.relayed a) := by
  refine runFrom_history (P := fun es s => s.Buffered ∧
    ∀ d, (s.pump d).handed = (receipts d es).filterMap (d.relayed a))
    ⟨fun _ => rfl, fun _ => rfl⟩ ?_ hrun
  rintro es s e s' - ⟨hlen, hhanded⟩ hs
  have hstep := handed_step hlen hs
  refine ⟨fun d => (hstep d).2.trans (hlen d), fun d => ?_⟩
  rw [(hstep d).1, hhanded d, receipts, receipts, List.filterMap_append, List.filterMap_append]
  congr 1
  cases hreceipt : e.receipt d with
  | none => simp [hreceipt]
  | some data => cases hdata : d.relayed a data <;> simp [hreceipt, hdata]

/-- **What an association relays in its life.**  However the pumps, `run`, the timer and the
contexts interleave, and whatever the stream and the socket answer, for each direction: what the
pump has handed on is what it has made of its receipts, in order and each once, but for a datagram
that it is just about to hand on; and when `run` has returned, nothing is missing. -/
theorem life_relays (a : Association) (idleTimeout now : ℕ) {es : List Event} {s : State}
    (hrun : runFrom (step a idleTimeout) (init now) es = some s) (d : Direction) :
    (receipts d es).filterMap (d.relayed a) = (s.pump d).st.sent ++ (s.pump d).pc.pending ∧
    ∀ result, s.pc = .returned result →
      (s.pump d).st.sent = (receipts d es).filterMap (d.relayed a) := by
  have hhanded := (handed_of_run hrun).2 d
  refine ⟨hhanded.symm, fun result hpc => ?_⟩
  have hgone := (inv_of_run hrun).gone hpc d
  rw [← hhanded, Process.handed_of_pending (by rw [hgone]; rfl)]

/-- One datagram goes out before the request is cancelled. -/
theorem life_relays_cancelledLife :
    ∃ s, runFrom (step firstAssociation 30) (init 0) cancelledLife = some s ∧
      receipts .h3ToUDP cancelledLife = [[0, 65]] ∧ (s.pump .h3ToUDP).st.sent = [[65]] ∧
      (s.pump .udpToH3).st.sent = [] := by
  have hpc : (runFrom (step firstAssociation 30) (init 0) cancelledLife).map State.pc =
      some (.returned (some .canceled)) := by decide +kernel
  obtain ⟨s, hrun, hret⟩ := Option.map_eq_some_iff.mp hpc
  have hsent := fun d => (life_relays firstAssociation 30 0 hrun d).2 _ hret
  exact ⟨s, hrun, by decide, (hsent .h3ToUDP).trans (by decide), (hsent .udpToH3).trans (by decide)⟩

end Lifecycle
end ConnectUdp
end ForwardProxy
