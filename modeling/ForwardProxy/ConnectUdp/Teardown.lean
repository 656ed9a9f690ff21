import ForwardProxy.ConnectUdp.Lifecycle

/-!
# The end of an association

`run` counts the results that it has received.  A result is on its way for every pump that has not
delivered one, so the results received, the results in the channel and the pumps that still run
are always two (`Inv.balance`).  The rest follows from where `run` stands:

* `run` leaves its last loop with two results.  Then both pumps are gone, and nobody is left to
  write or to send.
* A pump that is about to deliver finds room in the channel.
* `run` waits for a pump only after everything that a pump can wait in has been told to return.

`run_teardown` puts this together for every interleaving.  That `run` comes to its end is said in
two parts: as long as it has not, somebody can go on (`exists_step`), and whoever goes on uses up a
rank that only what is still received from outside can raise (`Move.rank`).

`runs_of_returned` connects the interleavings to the program `ConnectUdp.run`, in which waiting for
the pumps is one operation.
-/

namespace ForwardProxy
namespace ConnectUdp
namespace Lifecycle

open ForwardProxy.Core Pump

/-! ## What a step can do -/

namespace Event

/-- Time, the timer and the contexts. -/
def isOutside : Event → Bool
  | .elapse _ | .fire | .parentEnds _ | .propagate | .streamEnds _ => true
  | _ => false

/-- An action of `run` or of a pump. -/
def isWork (e : Event) : Bool := !e.isOutside

/-- Something is received from the stream or from the socket. -/
def isReceipt : Event → Bool
  | .input _ (.ok _) => true
  | _ => false

/-- The pump whose action it is. -/
def pump : Event → Option Direction
  | .input d _ | .call d | .notify d | .deliver d => some d
  | .wrote _ _ => some .h3ToUDP
  | .sent _ | .check => some .udpToH3
  | _ => none

theorem isWork_of_pump {e : Event} {d : Direction} (h : e.pump = some d) : e.isWork = true := by
  cases e <;> first | rfl | exact absurd h (by simp [pump])

end Event

/-- How many actions are left for a pump that receives nothing more. -/
def PumpPc.rank : PumpPc → ℕ
  | .calling _ => 6
  | .called _ => 5
  | .notifying => 4
  | .checking => 3
  | .waiting => 2
  | .returned _ => 1
  | .gone => 0

/-- A pump goes on, and is not gone: it uses up some of its rank, unless it has received
something. -/
structure Advances (d : Direction) (receipt : Bool) (p p' : Process) : Prop where
  live : p.pc ≠ .gone
  live_next : p'.pc ≠ .gone
  checking : p'.pc = .checking → d = .udpToH3
  rank : p'.pc.rank + 1 ≤ p.pc.rank + if receipt then 5 else 0

/-- What one step can do. -/
inductive Move (s : State) : Event → State → Prop where
  | outside {e : Event} {now : ℕ} {timer : Option ℕ} {tick : Bool}
      {parent ctx streamCtx : Option Err} (he : e.isOutside = true)
      (hctx : s.ctx ≠ none → ctx ≠ none) :
      Move s e { s with
        now := now, timer := timer, tick := tick, parent := parent, ctx := ctx
        streamCtx := streamCtx }
  | newTimer {timer : Option ℕ} (hpc : s.pc = .entered) :
      Move s .newTimer { s with timer := timer, pc := .select }
  | selectResult {err : Err} {results : List (Option Err)} (hpc : s.pc = .select)
      (hresults : s.results.length = results.length + 1) :
      Move s .selectResult { s with
        results := results, completed := s.completed + 1, result := some err, pc := .left }
  | selectActivity {timer : Option ℕ} {tick : Bool} (hpc : s.pc = .select) :
      Move s .selectActivity { s with activity := false, timer := timer, tick := tick }
  | selectEnd {e : Event} {tick : Bool} {err : Err}
      (he : e = .selectTimer ∨ e = .selectParent ∨ e = .selectStream) (hpc : s.pc = .select) :
      Move s e { s with tick := tick, result := some err, pc := .left }
  | cancel {ctx : Option Err} (hctx : ctx ≠ none) (hpc : s.pc = .left) :
      Move s .cancel { s with ctx := ctx, pc := .cancelled }
  | cancelRead (hpc : s.pc = .cancelled) :
      Move s .cancelRead { s with readCancelled := true, pc := .readCancelled }
  | cancelWrite (hpc : s.pc = .readCancelled) :
      Move s .cancelWrite { s with writeCancelled := true, pc := .writeCancelled }
  | closeUDP (hpc : s.pc = .writeCancelled) :
      Move s .closeUDP { s with udpClosed := true, pc := .draining }
  | drain {results : List (Option Err)} (hpc : s.pc = .draining) (hlt : s.completed < 2)
      (hresults : s.results.length = results.length + 1) :
      Move s .drain { s with results := results, completed := s.completed + 1 }
  | endDrain (hpc : s.pc = .draining) (hge : ¬ s.completed < 2) :
      Move s .endDrain { s with pc := .drained }
  | closeStream (hpc : s.pc = .drained) :
      Move s .closeStream { s with streamClosed := true, pc := .streamClosed }
  | ret (hpc : s.pc = .streamClosed) : Move s .ret
      { s with timer := none, pc := .returned s.result }
  | advance {e : Event} {d : Direction} {p : Process} {activity : Bool} (he : e.pump = some d)
      (hadvance : Advances d e.isReceipt (s.pump d) p) :
      Move s e ({ s with activity := activity }.setPump d p)
  | deliver {d : Direction} {p : Process} {err : Err} (hpc : (s.pump d).pc = .returned err)
      (hgone : p.pc = .gone) :
      Move s (.deliver d) ({ s with results := s.results ++ [some err] }.setPump d p)

section Pumps

variable {a : Association} {d : Direction} {p p' : Process}

theorem Advances.of_eq {receipt : Bool} {pc pc' : PumpPc} (h : p.pc = pc) (h' : p'.pc = pc')
    (hlive : pc ≠ .gone := by simp) (hlive' : pc' ≠ .gone := by simp)
    (hcheck : pc' = .checking → d = .udpToH3 := by simp)
    (hrank : pc'.rank + 1 ≤ pc.rank + if receipt then 5 else 0 := by simp [PumpPc.rank]) :
    Advances d receipt p p' := by
  subst h h'
  exact ⟨hlive, hlive', hcheck, hrank⟩

/-- What a pump does with what it was given. -/
theorem pc_input (d : Direction) (answer : Except IOErr (List UInt8)) :
    (∃ err, (p.input a d answer).pc = .returned (.io err)) ∨
      ∃ data, answer = .ok data ∧
        ((p.input a d answer).pc = .waiting ∨ ∃ out, (p.input a d answer).pc = .calling out) := by
  cases answer with
  | error err => exact Or.inl (by cases d <;> exact ⟨err, rfl⟩)
  | ok data =>
    refine Or.inr ⟨data, rfl, ?_⟩
    cases d with
    | h3ToUDP =>
      cases hdata : relayable a data with
      | none => exact Or.inl (by rw [Process.input, receive_of_none hdata])
      | some payload => exact Or.inr ⟨payload, by rw [Process.input, receive_of_some hdata]⟩
    | udpToH3 => exact Or.inr ⟨_, rfl⟩

theorem advances_input (h : p.pc = .waiting) (answer : Except IOErr (List UInt8)) :
    Advances d (Event.input d answer).isReceipt p (p.input a d answer) := by
  rcases pc_input d answer with ⟨err, hin⟩ | ⟨data, rfl, hin | ⟨out, hin⟩⟩
  · exact .of_eq h hin
  · rw [Event.isReceipt]
    exact .of_eq h hin
  · rw [Event.isReceipt]
    exact .of_eq h hin

theorem advances_call {data : List UInt8} (h : p.pc = .calling data) :
    Advances d false p (p.call data) := by
  have hnext : (p.call data).pc = .called data := rfl
  exact .of_eq h hnext

theorem pc_wrote (payload : List UInt8) (answer : ℕ × Option IOErr) :
    (∃ err, (p.wrote a payload answer).pc = .returned (.io err)) ∨
      (p.wrote a payload answer).pc = .notifying := by
  rw [Process.wrote]
  cases afterWrite a p.st payload answer with
  | done r => exact Or.inl ⟨r.2, rfl⟩
  | next st => exact Or.inr rfl

theorem advances_wrote {payload : List UInt8} (h : p.pc = .called payload)
    (answer : ℕ × Option IOErr) : Advances d false p (p.wrote a payload answer) := by
  rcases pc_wrote payload answer with ⟨err, hout⟩ | hout
  · exact .of_eq h hout
  · exact .of_eq h hout

theorem pc_sent (datagram : List UInt8) (answer : Option SendError) :
    (∃ err, (p.sent a datagram answer).pc = .returned (.io err)) ∨
      (p.sent a datagram answer).pc = .notifying ∨ (p.sent a datagram answer).pc = .waiting := by
  cases answer with
  | none => exact Or.inr (Or.inl rfl)
  | some err =>
    cases err with
    | tooLarge => exact Or.inr (Or.inr rfl)
    | other err => exact Or.inl ⟨err, rfl⟩

theorem advances_sent {datagram : List UInt8} (h : p.pc = .called datagram)
    (answer : Option SendError) : Advances d false p (p.sent a datagram answer) := by
  rcases pc_sent datagram answer with ⟨err, hout⟩ | hout | hout
  · exact .of_eq h hout
  · exact .of_eq h hout
  · exact .of_eq h hout

theorem advances_notified (h : p.pc = .notifying) : Advances d false p (p.notified d) := by
  cases d with
  | h3ToUDP =>
    have hnext : (p.notified .h3ToUDP).pc = .waiting := rfl
    exact .of_eq h hnext
  | udpToH3 =>
    have hnext : (p.notified .udpToH3).pc = .checking := rfl
    exact .of_eq h hnext

theorem advances_check (h : p.pc = .checking) (ctx : Option Err) :
    Advances d false p (p.check ctx) := by
  cases ctx with
  | none =>
    have hnext : (p.check none).pc = .waiting := rfl
    exact .of_eq h hnext
  | some cause =>
    have hnext : (p.check (some cause)).pc = .returned cause := rfl
    exact .of_eq h hnext

end Pumps

/-- **Every step is a move.** -/
theorem move_of_step {a : Association} {idleTimeout : ℕ} {s s' : State} {e : Event}
    (h : step a idleTimeout s e = some s') : Move s e s' := by
  cases e with
  | elapse d =>
    obtain rfl := Option.some_inj.mp h
    exact .outside rfl id
  | fire =>
    cases htimer : s.timer with
    | none => simp [step, htimer] at h
    | some t =>
      simp only [step, htimer] at h
      split_ifs at h
      obtain rfl := Option.some_inj.mp h
      exact .outside rfl id
  | parentEnds cause =>
    obtain ⟨-, ⟨⟩⟩ := Option.ite_none_right_eq_some.mp h
    exact .outside rfl id
  | propagate =>
    obtain ⟨hc, ⟨⟩⟩ := Option.ite_none_right_eq_some.mp h
    exact .outside rfl fun hctx => absurd hc.2 hctx
  | streamEnds cause =>
    obtain ⟨-, ⟨⟩⟩ := Option.ite_none_right_eq_some.mp h
    exact .outside rfl id
  | newTimer =>
    obtain ⟨hpc, ⟨⟩⟩ := Option.ite_none_right_eq_some.mp h
    exact .newTimer hpc
  | selectResult =>
    cases hresults : s.results with
    | nil => simp [step, hresults] at h
    | cons err results =>
      simp only [step, hresults] at h
      split_ifs at h with hpc
      obtain rfl := Option.some_inj.mp h
      exact .selectResult hpc (by rw [hresults, List.length_cons])
  | selectActivity =>
    obtain ⟨hc, ⟨⟩⟩ := Option.ite_none_right_eq_some.mp h
    exact .selectActivity hc.1
  | selectTimer =>
    obtain ⟨hc, ⟨⟩⟩ := Option.ite_none_right_eq_some.mp h
    exact .selectEnd (Or.inl rfl) hc.1
  | selectParent =>
    obtain ⟨hc, h⟩ := Option.ite_none_right_eq_some.mp h
    obtain ⟨cause, hcause⟩ := Option.ne_none_iff_exists'.mp hc.2
    rw [hcause] at h
    obtain rfl := Option.some_inj.mp h
    exact .selectEnd (Or.inr (Or.inl rfl)) hc.1
  | selectStream =>
    obtain ⟨hc, h⟩ := Option.ite_none_right_eq_some.mp h
    obtain ⟨cause, hcause⟩ := Option.ne_none_iff_exists'.mp hc.2
    rw [hcause] at h
    obtain rfl := Option.some_inj.mp h
    exact .selectEnd (Or.inr (Or.inr rfl)) hc.1
  | cancel =>
    obtain ⟨hpc, ⟨⟩⟩ := Option.ite_none_right_eq_some.mp h
    exact .cancel (by cases s.ctx <;> simp) hpc
  | cancelRead =>
    obtain ⟨hpc, ⟨⟩⟩ := Option.ite_none_right_eq_some.mp h
    exact .cancelRead hpc
  | cancelWrite =>
    obtain ⟨hpc, ⟨⟩⟩ := Option.ite_none_right_eq_some.mp h
    exact .cancelWrite hpc
  | closeUDP =>
    obtain ⟨hpc, ⟨⟩⟩ := Option.ite_none_right_eq_some.mp h
    exact .closeUDP hpc
  | drain =>
    cases hresults : s.results with
    | nil => simp [step, hresults] at h
    | cons err results =>
      simp only [step, hresults] at h
      split_ifs at h with hc
      obtain rfl := Option.some_inj.mp h
      exact .drain hc.1 hc.2 (by rw [hresults, List.length_cons])
  | endDrain =>
    obtain ⟨hc, ⟨⟩⟩ := Option.ite_none_right_eq_some.mp h
    exact .endDrain hc.1 hc.2
  | closeStream =>
    obtain ⟨hpc, ⟨⟩⟩ := Option.ite_none_right_eq_some.mp h
    exact .closeStream hpc
  | ret =>
    obtain ⟨hpc, ⟨⟩⟩ := Option.ite_none_right_eq_some.mp h
    exact .ret hpc
  | input d answer =>
    simp only [step] at h
    split at h
    · rename_i hpc
      obtain rfl := Option.some_inj.mp h
      exact .advance rfl (advances_input hpc answer)
    · exact absurd h (by simp)
  | call d =>
    simp only [step] at h
    split at h
    · rename_i data hpc
      obtain rfl := Option.some_inj.mp h
      exact .advance rfl (advances_call hpc)
    · exact absurd h (by simp)
  | wrote n err =>
    simp only [step] at h
    split at h
    · rename_i payload hpc
      obtain rfl := Option.some_inj.mp h
      exact .advance rfl (advances_wrote hpc (n, err))
    · exact absurd h (by simp)
  | sent err =>
    simp only [step] at h
    split at h
    · rename_i datagram hpc
      obtain rfl := Option.some_inj.mp h
      exact .advance rfl (advances_sent hpc err)
    · exact absurd h (by simp)
  | notify d =>
    simp only [step] at h
    split at h
    · rename_i hpc
      obtain rfl := Option.some_inj.mp h
      exact .advance rfl (advances_notified hpc)
    · exact absurd h (by simp)
  | check =>
    simp only [step] at h
    split at h
    · rename_i hpc
      obtain rfl := Option.some_inj.mp h
      exact .advance rfl (advances_check hpc s.ctx)
    · exact absurd h (by simp)
  | deliver d =>
    simp only [step] at h
    split at h
    · rename_i err hpc
      split_ifs at h with hroom
      obtain rfl := Option.some_inj.mp h
      exact .deliver hpc rfl
    · exact absurd h (by simp)

/-! ## The two pumps -/

@[simp] theorem State.setPump_pump_self (s : State) (d : Direction) (p : Process) :
    (s.setPump d p).pump d = p := by
  rw [State.setPump]
  exact Function.update_self ..

/-- A quantity of the pumps, for both together. -/
def State.total (f : Process → ℕ) (s : State) : ℕ := f (s.pump .h3ToUDP) + f (s.pump .udpToH3)

theorem State.total_setPump (f : Process → ℕ) (s : State) (d : Direction) (p : Process) :
    (s.setPump d p).total f + f (s.pump d) = s.total f + f p := by
  cases d with
  | h3ToUDP => simp [State.total, State.setPump]; omega
  | udpToH3 => simp [State.total, State.setPump]; omega

/-- One for a pump that is not gone. -/
def Process.live (p : Process) : ℕ := if p.pc = .gone then 0 else 1

theorem Process.live_of_ne {p : Process} (h : p.pc ≠ .gone) : p.live = 1 := if_neg h

theorem Process.live_of_eq {p : Process} (h : p.pc = .gone) : p.live = 0 := if_pos h

/-- If a pump is not gone, it is one of the two. -/
theorem State.exists_live {s : State} (h : 0 < s.total Process.live) :
    ∃ d, (s.pump d).pc ≠ .gone := by
  by_contra hgone
  push Not at hgone
  rw [State.total, Process.live_of_eq (hgone .h3ToUDP), Process.live_of_eq (hgone .udpToH3)] at h
  exact absurd h (lt_irrefl 0)

theorem State.gone_of_total {s : State} (h : s.total Process.live = 0) (d : Direction) :
    (s.pump d).pc = .gone := by
  by_contra hlive
  have hone := Process.live_of_ne hlive
  cases d with
  | h3ToUDP => rw [State.total, hone] at h; omega
  | udpToH3 => rw [State.total, hone] at h; omega

/-! ## The parts of `run` -/

/-- The parts of `run`, in their order. -/
def RunPc.stage : RunPc → ℕ
  | .entered => 0
  | .select => 1
  | .left => 2
  | .cancelled => 3
  | .readCancelled => 4
  | .writeCancelled => 5
  | .draining => 6
  | .drained => 7
  | .streamClosed => 8
  | .returned _ => 9

/-- What has been done when `run` has come there. -/
def State.Done (s : State) : RunPc → Prop
  | .left => s.result ≠ none
  | .cancelled => s.ctx ≠ none
  | .readCancelled => s.readCancelled = true
  | .writeCancelled => s.writeCancelled = true
  | .draining => s.udpClosed = true
  | .drained => 2 ≤ s.completed
  | .streamClosed => s.streamClosed = true
  | _ => True

theorem State.Done.of_stage_eq {s : State} {pc pc' : RunPc} (h : s.Done pc)
    (heq : pc.stage = pc'.stage) : s.Done pc' := by
  cases pc <;> cases pc' <;> simp_all [RunPc.stage, State.Done]

section Steps

variable {s s' : State} {e : Event}

/-- What was done stays done. -/
theorem Move.done (hm : Move s e s') {pc : RunPc} (h : s.Done pc) : s'.Done pc := by
  cases hm with
  | outside he hctx =>
    cases pc with
    | cancelled => exact hctx h
    | _ => exact h
  | selectResult hpc hresults =>
    cases pc with
    | left => exact Option.some_ne_none _
    | drained => exact Nat.le_succ_of_le h
    | _ => exact h
  | selectEnd he hpc =>
    cases pc with
    | left => exact Option.some_ne_none _
    | _ => exact h
  | cancel hctx hpc =>
    cases pc with
    | cancelled => exact hctx
    | _ => exact h
  | cancelRead hpc =>
    cases pc with
    | readCancelled => exact rfl
    | _ => exact h
  | cancelWrite hpc =>
    cases pc with
    | writeCancelled => exact rfl
    | _ => exact h
  | closeUDP hpc =>
    cases pc with
    | draining => exact rfl
    | _ => exact h
  | drain hpc hlt hresults =>
    cases pc with
    | drained => exact Nat.le_succ_of_le h
    | _ => exact h
  | closeStream hpc =>
    cases pc with
    | streamClosed => exact rfl
    | _ => exact h
  | newTimer | selectActivity | endDrain | ret | advance | deliver => cases pc <;> exact h

/-- `run` stays where it is, or goes on to the next part after it has done what belongs to it. -/
theorem Move.stage (hm : Move s e s') :
    s'.pc = s.pc ∨ s'.pc.stage = s.pc.stage + 1 ∧ s'.Done s'.pc := by
  cases hm with
  | outside | selectActivity | drain | advance | deliver => exact Or.inl rfl
  | newTimer hpc => exact Or.inr ⟨by rw [hpc]; rfl, trivial⟩
  | selectResult hpc hresults => exact Or.inr ⟨by rw [hpc]; rfl, Option.some_ne_none _⟩
  | selectEnd he hpc => exact Or.inr ⟨by rw [hpc]; rfl, Option.some_ne_none _⟩
  | cancel hctx hpc => exact Or.inr ⟨by rw [hpc]; rfl, hctx⟩
  | cancelRead hpc => exact Or.inr ⟨by rw [hpc]; rfl, rfl⟩
  | cancelWrite hpc => exact Or.inr ⟨by rw [hpc]; rfl, rfl⟩
  | closeUDP hpc => exact Or.inr ⟨by rw [hpc]; rfl, rfl⟩
  | endDrain hpc hge => exact Or.inr ⟨by rw [hpc]; rfl, Nat.not_lt.mp hge⟩
  | closeStream hpc => exact Or.inr ⟨by rw [hpc]; rfl, rfl⟩
  | ret hpc => exact Or.inr ⟨by rw [hpc]; rfl, trivial⟩

theorem Move.stage_le (hm : Move s e s') : s.pc.stage ≤ s'.pc.stage := by
  rcases hm.stage with heq | ⟨heq, -⟩
  · rw [heq]
  · rw [heq]
    exact Nat.le_succ _

end Steps

/-! ## The invariant -/

/-- What holds in every state. -/
structure Inv (s : State) : Prop where
  /-- Received results, results on their way, and pumps that run. -/
  balance : s.completed + s.results.length + s.total Process.live = 2
  /-- Whatever belongs to a part of `run` that has been reached is done. -/
  done : ∀ pc : RunPc, pc.stage ≤ s.pc.stage → s.Done pc
  returned : ∀ result, s.pc = .returned result → result = s.result
  checking : (s.pump .h3ToUDP).pc ≠ .checking

theorem inv_init (now : ℕ) : Inv (init now) where
  balance := rfl
  done pc hpc := by
    cases pc with
    | entered => trivial
    | _ => exact absurd hpc (by simp [init, RunPc.stage])
  returned result hpc := absurd hpc (by simp [init])
  checking := by simp [init]

section Preservation

variable {s s' : State} {e : Event}

theorem Move.balance (hm : Move s e s')
    (h : s.completed + s.results.length + s.total Process.live = 2) :
    s'.completed + s'.results.length + s'.total Process.live = 2 := by
  cases hm with
  | @selectResult err results hpc hresults =>
    change s.completed + 1 + results.length + s.total Process.live = 2
    omega
  | @drain results hpc hlt hresults =>
    change s.completed + 1 + results.length + s.total Process.live = 2
    omega
  | @advance _ d p activity he hadvance =>
    have htotal := State.total_setPump Process.live { s with activity := activity } d p
    have hlive := Process.live_of_ne hadvance.live
    have hlive' := Process.live_of_ne hadvance.live_next
    change s.completed + s.results.length + _ = 2
    change _ + (s.pump d).live = s.total Process.live + _ at htotal
    omega
  | @deliver d p err hpc hgone =>
    have htotal := State.total_setPump Process.live
      { s with results := s.results ++ [some err] } d p
    have hlive : (s.pump d).live = 1 := Process.live_of_ne (by simp [hpc])
    have hlive' := Process.live_of_eq hgone
    change s.completed + (s.results ++ [some err]).length + _ = 2
    change _ + (s.pump d).live = s.total Process.live + _ at htotal
    rw [List.length_append, List.length_singleton]
    omega
  | _ => exact h

theorem Move.inv (hm : Move s e s') (h : Inv s) : Inv s' where
  balance := hm.balance h.balance
  done pc hpc := by
    by_cases hold : pc.stage ≤ s.pc.stage
    · exact hm.done (h.done pc hold)
    · rcases hm.stage with heq | ⟨heq, hdone⟩
      · exact absurd (heq ▸ hpc) hold
      · exact hdone.of_stage_eq (by omega)
  returned result hpc := by
    cases hm with
    | outside | selectActivity | drain | advance | deliver => exact h.returned result hpc
    | ret => exact (RunPc.returned.inj hpc).symm
    | _ => exact absurd hpc (by simp)
  checking := by
    cases hm with
    | @advance _ d p activity he hadvance =>
      cases d with
      | h3ToUDP =>
        intro hpc
        rw [State.setPump_pump_self] at hpc
        exact absurd (hadvance.checking hpc) (by simp)
      | udpToH3 => exact h.checking
    | @deliver d p err hpc hgone =>
      cases d with
      | h3ToUDP =>
        rw [State.setPump_pump_self, hgone]
        exact PumpPc.noConfusion
      | udpToH3 => exact h.checking
    | _ => exact h.checking

end Preservation

theorem inv_of_run {a : Association} {idleTimeout now : ℕ} {es : List Event} {s : State}
    (hrun : runFrom (step a idleTimeout) (init now) es = some s) : Inv s :=
  runFrom_invariant (fun _ _ _ h hs => (move_of_step hs).inv h) (inv_init now) hrun

/-! ## The way to the end -/

/-- How many actions are left once the loop is left, if nothing more is received. -/
def State.rank (s : State) : ℕ :=
  9 - s.pc.stage + (2 - s.completed) + s.total fun p => p.pc.rank

theorem State.rank_le {s : State} (h : 2 ≤ s.pc.stage) : s.rank ≤ 21 := by
  have hle : ∀ p : Process, p.pc.rank ≤ 6 := by
    intro p
    cases p.pc <;> simp [PumpPc.rank]
  have h3 := hle (s.pump .h3ToUDP)
  have hudp := hle (s.pump .udpToH3)
  rw [State.rank, State.total]
  omega

/-- Every action uses up some of the rank, unless something is received. -/
theorem Move.rank {s s' : State} {e : Event} (hm : Move s e s') (h : 2 ≤ s.pc.stage) :
    s'.rank + (if e.isWork then 1 else 0) ≤ s.rank + if e.isReceipt then 5 else 0 := by
  -- in its last part `run` goes on to the next one, or receives a result
  have next (n : ℕ) (hn : s.pc.stage + 1 = n) (hle : n ≤ 9) :
      9 - n + (2 - s.completed) + s.total (fun p => p.pc.rank) + 1 ≤ s.rank := by
    rw [State.rank]
    omega
  cases hm with
  | outside he hctx =>
    rw [Event.isWork, he, Bool.not_true, if_neg (by decide)]
    exact Nat.le_add_right _ _
  | newTimer hpc => exact absurd h (by rw [hpc]; decide)
  | selectResult hpc hresults => exact absurd h (by rw [hpc]; decide)
  | selectActivity hpc => exact absurd h (by rw [hpc]; decide)
  | selectEnd he hpc => exact absurd h (by rw [hpc]; decide)
  | cancel hctx hpc => exact next 3 (by rw [hpc]; rfl) (by decide)
  | cancelRead hpc => exact next 4 (by rw [hpc]; rfl) (by decide)
  | cancelWrite hpc => exact next 5 (by rw [hpc]; rfl) (by decide)
  | closeUDP hpc => exact next 6 (by rw [hpc]; rfl) (by decide)
  | endDrain hpc hge => exact next 7 (by rw [hpc]; rfl) (by decide)
  | closeStream hpc => exact next 8 (by rw [hpc]; rfl) (by decide)
  | ret hpc => exact next 9 (by rw [hpc]; rfl) (by decide)
  | drain hpc hlt hresults =>
    change 9 - s.pc.stage + (2 - (s.completed + 1)) + s.total (fun p => p.pc.rank) + 1 ≤ s.rank
    rw [State.rank]
    omega
  | @advance _ d p activity he hadvance =>
    have htotal := State.total_setPump (fun p => p.pc.rank) { s with activity := activity } d p
    have hrank := hadvance.rank
    rw [Event.isWork_of_pump he, if_pos rfl]
    change 9 - s.pc.stage + (2 - s.completed) + _ + 1 ≤ s.rank + _
    change _ + (s.pump d).pc.rank = s.total (fun p => p.pc.rank) + p.pc.rank at htotal
    rw [State.rank]
    omega
  | @deliver d p err hpc hgone =>
    have htotal := State.total_setPump (fun p => p.pc.rank)
      { s with results := s.results ++ [some err] } d p
    change 9 - s.pc.stage + (2 - s.completed) + _ + 1 ≤ s.rank
    change _ + (s.pump d).pc.rank = s.total (fun p => p.pc.rank) + p.pc.rank at htotal
    rw [hpc, hgone] at htotal
    change _ + 1 = s.total (fun p => p.pc.rank) + 0 at htotal
    rw [State.rank]
    omega

/-- Everything that a pump can wait in has been told to return: `ReceiveDatagram` by its context and
by `CancelRead`, `SendDatagram` by `CancelWrite`, `udp.Read` and `udp.Write` by `udp.Close`. -/
structure State.Released (s : State) : Prop where
  ctx : s.ctx ≠ none
  read : s.readCancelled = true
  write : s.writeCancelled = true
  socket : s.udpClosed = true

theorem Inv.released {s : State} (h : Inv s) (hpc : 6 ≤ s.pc.stage) : s.Released where
  ctx := h.done .cancelled (le_trans (by decide) hpc)
  read := h.done .readCancelled (le_trans (by decide) hpc)
  write := h.done .writeCancelled (le_trans (by decide) hpc)
  socket := h.done .draining hpc

/-- An action that does not depend on the good will of others: nothing is received, and a pump goes
on only after what it may wait in was told to return. -/
def Owed (s : State) (e : Event) : Prop :=
  e.isWork = true ∧ e.isReceipt = false ∧ (e.pump ≠ none → s.Released)

/-- There is room for the result of a pump that is not gone. -/
theorem Inv.room {s : State} (h : Inv s) {d : Direction} (hlive : (s.pump d).pc ≠ .gone) :
    s.results.length < resultsCap := by
  have hbalance := h.balance
  have hone := Process.live_of_ne hlive
  have htotal : 0 < s.total Process.live := by
    cases d with
    | h3ToUDP => rw [State.total]; omega
    | udpToH3 => rw [State.total]; omega
  rw [resultsCap]
  omega

/-- A pump that is not gone can go on, if what it may wait in returns. -/
theorem exists_step_of_live (a : Association) (idleTimeout : ℕ) {s : State} (h : Inv s)
    {d : Direction} (hlive : (s.pump d).pc ≠ .gone) :
    ∃ e : Event, e.isWork = true ∧ e.isReceipt = false ∧ e.pump = some d ∧
      (step a idleTimeout s e).isSome = true := by
  cases hpc : (s.pump d).pc with
  | waiting => exact ⟨.input d (.error .eof), rfl, rfl, rfl, by simp [step, hpc]⟩
  | calling data => exact ⟨.call d, rfl, rfl, rfl, by simp [step, hpc]⟩
  | called data =>
    cases d with
    | h3ToUDP => exact ⟨.wrote 0 (some .eof), rfl, rfl, rfl, by simp [step, hpc]⟩
    | udpToH3 => exact ⟨.sent (some (.other .eof)), rfl, rfl, rfl, by simp [step, hpc]⟩
  | notifying => exact ⟨.notify d, rfl, rfl, rfl, by simp [step, hpc]⟩
  | checking =>
    cases d with
    | h3ToUDP => exact absurd hpc h.checking
    | udpToH3 => exact ⟨.check, rfl, rfl, rfl, by simp [step, hpc]⟩
  | returned err =>
    exact ⟨.deliver d, rfl, rfl, rfl, by simp [step, hpc, h.room hlive]⟩
  | gone => exact absurd hpc hlive

/-- **Somebody can go on.**  After its loop, `run` has something to do until it returns, or it waits
for a pump and the pump can go on. -/
theorem exists_step (a : Association) (idleTimeout : ℕ) {s : State} (h : Inv s)
    (hstage : 2 ≤ s.pc.stage) (hnot : ∀ result, s.pc ≠ .returned result) :
    ∃ e, Owed s e ∧ (step a idleTimeout s e).isSome = true := by
  cases hpc : s.pc with
  | entered => exact absurd hstage (by rw [hpc]; decide)
  | select => exact absurd hstage (by rw [hpc]; decide)
  | left => exact ⟨.cancel, ⟨rfl, rfl, nofun⟩, by simp [step, hpc]⟩
  | cancelled => exact ⟨.cancelRead, ⟨rfl, rfl, nofun⟩, by simp [step, hpc]⟩
  | readCancelled => exact ⟨.cancelWrite, ⟨rfl, rfl, nofun⟩, by simp [step, hpc]⟩
  | writeCancelled => exact ⟨.closeUDP, ⟨rfl, rfl, nofun⟩, by simp [step, hpc]⟩
  | draining =>
    by_cases hlt : s.completed < 2
    · cases hresults : s.results with
      | nil =>
        -- nothing is on its way, so a pump still runs
        have hbalance := h.balance
        rw [hresults, List.length_nil] at hbalance
        obtain ⟨d, hlive⟩ := State.exists_live (s := s) (by omega)
        obtain ⟨e, hwork, hreceipt, -, hs⟩ := exists_step_of_live a idleTimeout h hlive
        exact ⟨e, ⟨hwork, hreceipt, fun _ => h.released (by rw [hpc]; decide)⟩, hs⟩
      | cons err results =>
        exact ⟨.drain, ⟨rfl, rfl, nofun⟩, by simp [step, hresults, hpc, hlt]⟩
    · exact ⟨.endDrain, ⟨rfl, rfl, nofun⟩, by simp [step, hpc, hlt]⟩
  | drained => exact ⟨.closeStream, ⟨rfl, rfl, nofun⟩, by simp [step, hpc]⟩
  | streamClosed => exact ⟨.ret, ⟨rfl, rfl, nofun⟩, by simp [step, hpc]⟩
  | returned result => exact absurd hpc (hnot result)

/-! ## The return -/

section Return

variable {a : Association} {idleTimeout now : ℕ} {es : List Event} {s s' : State} {e : Event}

/-- `run` returns in one step, and stays there. -/
theorem count_ret (hrun : runFrom (step a idleTimeout) (init now) es = some s) :
    es.count .ret = if s.pc.stage = 9 then 1 else 0 := by
  refine runFrom_history (P := fun es s => es.count .ret = if s.pc.stage = 9 then 1 else 0)
    rfl ?_ hrun
  intro es s e s' _ ih hstep
  -- a step that is not the return
  have other (hne : e ≠ .ret) (hsame : s'.pc.stage = 9 ↔ s.pc.stage = 9) :
      (es ++ [e]).count .ret = if s'.pc.stage = 9 then 1 else 0 := by
    rw [List.count_append, ih, List.count_singleton, beq_eq_false_iff_ne.mpr hne]
    simp only [hsame, Bool.false_eq_true, if_false, add_zero]
  cases move_of_step hstep with
  | outside he hctx =>
    refine other ?_ Iff.rfl
    rintro rfl
    exact absurd he (by decide)
  | advance he hadvance =>
    refine other ?_ Iff.rfl
    rintro rfl
    exact absurd he nofun
  | selectActivity | drain | deliver => exact other (by simp) Iff.rfl
  | ret hpc => simp [ih, hpc, RunPc.stage]
  | selectEnd he hpc =>
    refine other ?_ (by simp [hpc, RunPc.stage])
    rintro rfl
    simp at he
  | newTimer hpc | selectResult hpc | cancel _ hpc | cancelRead hpc | cancelWrite hpc | closeUDP hpc
  | endDrain hpc | closeStream hpc => exact other (by simp) (by simp [hpc, RunPc.stage])

/-- When `run` has returned, nobody is left. -/
theorem Inv.gone {result : Option Err} (h : Inv s) (hpc : s.pc = .returned result) (d : Direction) :
    (s.pump d).pc = .gone := by
  have hbalance := h.balance
  have hcompleted : 2 ≤ s.completed := h.done .drained (by rw [hpc]; exact (by decide : 7 ≤ 9))
  exact State.gone_of_total (by omega) d

theorem Move.pump_eq_none (hm : Move s e s') (hgone : ∀ d, (s.pump d).pc = .gone) :
    e.pump = none := by
  cases hm with
  | outside he hctx => cases e <;> first | rfl | simp [Event.isOutside] at he
  | selectEnd he hpc => rcases he with rfl | rfl | rfl <;> rfl
  | @advance _ d p activity he hadvance => exact absurd (hgone d) hadvance.live
  | @deliver d p err hpc => exact absurd ((hgone d).symm.trans hpc) PumpPc.noConfusion
  | _ => rfl

/-- After the return there is no action of a pump. -/
theorem pump_eq_none_of_returned {result : Option Err} (h : Inv s) (hpc : s.pc = .returned result)
    (hrun : runFrom (step a idleTimeout) s es = some s') : ∀ e ∈ es, e.pump = none := by
  have key : (Inv s' ∧ s'.pc = .returned result) ∧ ∀ e ∈ es, e.pump = none := by
    refine runFrom_history (P := fun es s' => (Inv s' ∧ s'.pc = .returned result) ∧
      ∀ e ∈ es, e.pump = none) ⟨⟨h, hpc⟩, nofun⟩ ?_ hrun
    rintro es t e t' _ ⟨⟨ht, hret⟩, hes⟩ hstep
    have hm := move_of_step hstep
    have hnone := hm.pump_eq_none (ht.gone hret)
    refine ⟨⟨hm.inv ht, ?_⟩, List.forall_mem_append.mpr ⟨hes, by simpa using hnone⟩⟩
    rcases hm.stage with heq | ⟨heq, -⟩
    · rw [heq, hret]
    · -- there is no part behind the last one
      rw [hret] at heq
      exact absurd heq (by cases t'.pc <;> simp [RunPc.stage])
  exact key.2

/-- `run` comes to its end once it has left its loop. -/
theorem exists_return (a : Association) (idleTimeout : ℕ) (h : Inv s) (hstage : 2 ≤ s.pc.stage) :
    ∃ es s', Guarded (step a idleTimeout) Owed s es ∧
      runFrom (step a idleTimeout) s es = some s' ∧ ∃ result, s'.pc = .returned result := by
  have hstep : ∀ s, Inv s ∧ 2 ≤ s.pc.stage → (¬ ∃ result, s.pc = .returned result) →
      ∃ e s', Owed s e ∧ step a idleTimeout s e = some s' ∧ (Inv s' ∧ 2 ≤ s'.pc.stage) ∧
        s'.rank < s.rank := by
    rintro s ⟨hs, hstage⟩ hnot
    obtain ⟨e, howed, hsome⟩ := exists_step a idleTimeout hs hstage (not_exists.mp hnot)
    obtain ⟨s', hs'⟩ := Option.isSome_iff_exists.mp hsome
    have hm := move_of_step hs'
    have hrank := hm.rank hstage
    rw [howed.1, howed.2.1, if_pos rfl, if_neg (by decide)] at hrank
    exact ⟨e, s', howed, hs', ⟨hm.inv hs, hstage.trans hm.stage_le⟩, hrank⟩
  obtain ⟨es, s', hes, hrun, -, hret⟩ := exists_guarded_of_rank State.rank hstep ⟨h, hstage⟩
  exact ⟨es, s', hes, hrun, hret⟩

end Return

/-- **The end of an association.**  In every state of every interleaving:

* `run` has returned at most once, and if it has, then with a reason, after both pumps have
  returned, the socket has been closed and the stream has been cancelled in both directions and
  closed; from then on there is no `udp.Write` and no `SendDatagram`;
* a pump that is about to deliver its result can do so;
* if the loop of `run` has been left, then `run` can come to its end without receiving anything from
  outside, where a pump that goes on does so after whatever it may wait in was told to return; and
  however the three go on, there are at most 21 actions, and 5 for each thing still received. -/
theorem run_teardown (a : Association) (idleTimeout now : ℕ) {es : List Event} {s : State}
    (hrun : runFrom (step a idleTimeout) (init now) es = some s) :
    es.count .ret ≤ 1 ∧
    (∀ result, s.pc = .returned result →
      result ≠ none ∧ (∀ d, (s.pump d).pc = .gone) ∧ s.udpClosed = true ∧
        s.readCancelled = true ∧ s.writeCancelled = true ∧ s.streamClosed = true ∧
        ∀ es' s', runFrom (step a idleTimeout) s es' = some s' → ∀ d, Event.call d ∉ es') ∧
    (∀ d err, (s.pump d).pc = .returned err →
      (step a idleTimeout s (.deliver d)).isSome = true) ∧
    (RunPc.left.stage ≤ s.pc.stage →
      (∃ es' s', Guarded (step a idleTimeout) Owed s es' ∧
        runFrom (step a idleTimeout) s es' = some s' ∧ ∃ result, s'.pc = .returned result) ∧
      ∀ es' s', runFrom (step a idleTimeout) s es' = some s' →
        es'.countP Event.isWork ≤ 21 + 5 * es'.countP Event.isReceipt) := by
  have h := inv_of_run hrun
  refine ⟨?_, fun result hpc => ?_, fun d err hpc => ?_,
    fun hstage => ⟨exists_return a idleTimeout h hstage, fun es' s' hrun' => ?_⟩⟩
  · rw [count_ret hrun]
    split_ifs <;> decide
  · have hdone (pc : RunPc) (hle : pc.stage ≤ 9) : s.Done pc := h.done pc (by rw [hpc]; exact hle)
    refine ⟨?_, h.gone hpc, hdone .draining (by decide), hdone .readCancelled (by decide),
      hdone .writeCancelled (by decide), hdone .streamClosed (by decide),
        fun es' s' hrun' d hmem => ?_⟩
    · rw [h.returned result hpc]
      exact hdone .left (by decide)
    · exact absurd (pump_eq_none_of_returned h hpc hrun' _ hmem) (Option.some_ne_none d)
  · simp [step, hpc, h.room (d := d) (by simp [hpc])]
  · have hstep : ∀ s e s', 2 ≤ s.pc.stage → step a idleTimeout s e = some s' →
        2 ≤ s'.pc.stage ∧ s'.rank + (if e.isWork then 1 else 0) ≤
          s.rank + if e.isReceipt then 5 else 0 :=
      fun s e s' hs hs' => ⟨hs.trans (move_of_step hs').stage_le, (move_of_step hs').rank hs⟩
    have hle := runFrom_countP_le State.rank Event.isWork Event.isReceipt hstep hstage hrun'
    have hrank := State.rank_le hstage
    omega

/-- A datagram is relayed, the request is cancelled, and both pumps fail. -/
def cancelledLife : List Event :=
  [.newTimer, .input .h3ToUDP (.ok [0, 65]), .call .h3ToUDP, .wrote 1 none, .notify .h3ToUDP,
    .selectActivity, .parentEnds .canceled, .selectParent, .cancel, .cancelRead, .cancelWrite,
    .closeUDP, .input .udpToH3 (.error .eof), .deliver .udpToH3, .drain,
    .input .h3ToUDP (.error .eof), .deliver .h3ToUDP, .drain, .endDrain, .closeStream, .ret]

theorem run_teardown_cancelledLife :
    ∃ s, runFrom (step firstAssociation 30) (init 0) cancelledLife = some s ∧
      s.pc = .returned (some .canceled) ∧ (∀ d, (s.pump d).pc = .gone) ∧ s.udpClosed = true := by
  have hpc : (runFrom (step firstAssociation 30) (init 0) cancelledLife).map State.pc =
      some (.returned (some .canceled)) := by decide +kernel
  obtain ⟨s, hrun, hret⟩ := Option.map_eq_some_iff.mp hpc
  obtain ⟨-, hgone, hclosed, -⟩ := (run_teardown firstAssociation 30 0 hrun).2.1 _ hret
  exact ⟨s, hrun, hret, hgone, hclosed⟩

/-! ## The program of `run` -/

/-- What `errors.Is` sees in an error; `kind` is what it sees in one of the socket or the stream. -/
def Err.kind (kind : IOErr → NetError) : Err → NetError
  | .io err => kind err
  | .closed => .other 0 false
  | .deadlineExceeded => .deadlineExceeded
  | .canceled => .canceled

/-- The operation of `run` that an action completes. -/
def Event.op (udp : ℕ) : Event → Option Op
  | .selectResult | .selectTimer | .selectParent | .selectStream => some (.awaitResult udp)
  | .cancelWrite => some .cancelStream
  | .closeUDP => some (.closeUDP udp)
  | .endDrain => some .awaitPumps
  | .closeStream => some .closeStream
  | _ => none

/-- The operations of `run` up to a part of it. -/
def RunPc.ops (udp : ℕ) : RunPc → List Op
  | .entered | .select => []
  | .left | .cancelled | .readCancelled => [.awaitResult udp]
  | .writeCancelled => [.awaitResult udp, .cancelStream]
  | .draining => [.awaitResult udp, .cancelStream, .closeUDP udp]
  | .drained => [.awaitResult udp, .cancelStream, .closeUDP udp, .awaitPumps]
  | .streamClosed | .returned _ =>
    [.awaitResult udp, .cancelStream, .closeUDP udp, .awaitPumps, .closeStream]

section Program

variable {a : Association} {idleTimeout now udp : ℕ} {es : List Event} {s : State}

theorem op_eq_none_of_outside {e : Event} (h : e.isOutside = true) : e.op udp = none := by
  cases e <;> first | rfl | simp [Event.isOutside] at h

theorem op_eq_none_of_pump {e : Event} {d : Direction} (h : e.pump = some d) : e.op udp = none := by
  cases e <;> first | rfl | simp [Event.pump] at h

/-- The operations that an interleaving completes are those of `run`, in its order. -/
theorem filterMap_op (hrun : runFrom (step a idleTimeout) (init now) es = some s) :
    es.filterMap (Event.op udp) = s.pc.ops udp := by
  refine runFrom_history (P := fun es s => es.filterMap (Event.op udp) = s.pc.ops udp) rfl ?_ hrun
  intro es s e s' _ ih hstep
  rw [List.filterMap_append, ih]
  cases move_of_step hstep with
  | outside he hctx => simp [op_eq_none_of_outside he]
  | advance he hadvance => simp [op_eq_none_of_pump he, State.setPump]
  | selectEnd he hpc => rcases he with rfl | rfl | rfl <;> simp [hpc, RunPc.ops, Event.op]
  | deliver => simp [Event.op, State.setPump]
  | selectActivity | drain => simp [Event.op]
  | newTimer hpc | selectResult hpc | cancel _ hpc | cancelRead hpc | cancelWrite hpc | closeUDP hpc
  | endDrain hpc | closeStream hpc | ret hpc => simp [hpc, RunPc.ops, Event.op]

/-- **The interleavings refine the program.**  When `run` has returned, the operations that were
completed are those of a run of the program with the same reason. -/
theorem runs_of_returned {result : Option Err} (kind : IOErr → NetError)
    (hrun : runFrom (step a idleTimeout) (init now) es = some s) (hpc : s.pc = .returned result) :
    ∃ reason xs, result = some reason ∧ Prog.Runs (ConnectUdp.run udp) xs (reason.kind kind) ∧
      xs.map Sigma.fst = es.filterMap (Event.op udp) := by
  have h := inv_of_run hrun
  have hresult : result ≠ none := by
    rw [h.returned result hpc]
    exact h.done .left (by rw [hpc]; exact (by decide : 2 ≤ 9))
  obtain ⟨reason, rfl⟩ := Option.ne_none_iff_exists'.mp hresult
  refine ⟨reason, [⟨.awaitResult udp, reason.kind kind⟩, ⟨.cancelStream, ()⟩, ⟨.closeUDP udp, ()⟩,
    ⟨.awaitPumps, ()⟩, ⟨.closeStream, ()⟩], rfl, ?_, ?_⟩
  · exact .op (.op (.op (.op (.op (.ret _)))))
  · rw [filterMap_op hrun, hpc]
    rfl

end Program

end Lifecycle
end ConnectUdp
end ForwardProxy
