import ForwardProxy.Dial.Race
import Mathlib.Data.List.Nodup

/-!
# What the race dials

The scheduler takes candidates from the feed while the lookups are still adding to it.  The
invariant that ties the two together (`Popped`) is one equation for each family: the
candidates of the answer that was admitted are the ones taken so far, in the order they were
taken, followed by the ones still queued.  What was taken is what was dialled, except that
the last candidate may not have been dialled yet, or never will be because the context had
ended.

The map `seen` is shared by the families, so a candidate of one family could in principle
suppress one of the other.  It cannot: an address shows its family
(`Core.head?_joinHostPort_string_any`), so the candidates of the two are disjoint.
-/

namespace ForwardProxy
namespace Dial

open ForwardProxy.Core Acl

/-! ## The family of an address -/

/-- Whether an address belongs to a family: the addresses of IPv4 hosts, and no others, start
with a digit. -/
def ofFamily (isV6 : Bool) (addr : GoString) : Bool := addr.head?.any isDigit != isV6

theorem ofFamily_joinHostPort (ip : IP) (port : GoString) (isV6 : Bool) :
    ofFamily isV6 (joinHostPort ip.string port) = (ip.to4.isSome != isV6) := by
  rw [ofFamily, head?_joinHostPort_string_any]

/-- Every address belongs to one of the families. -/
theorem ofFamily_not (isV6 : Bool) (addr : GoString) :
    ofFamily (!isV6) addr = !ofFamily isV6 addr := by
  unfold ofFamily
  cases addr.head?.any isDigit <;> cases isV6 <;> rfl

/-- An entry that yields a candidate. -/
theorem candidateOf_eq_some {c : Config} {isV6 : Bool} {a : Option IP} {addr : GoString}
    (h : candidateOf c isV6 a = some addr) :
    ∃ ip, a = some ip ∧ hostIsAllowed c.handler c.host ip = true ∧ (ip.to4.isSome != isV6) = true ∧
      c.network.excludes ip.to4.isSome = false ∧ addr = joinHostPort ip.string c.port := by
  cases a with
  | none => exact absurd h (by simp [candidateOf])
  | some ip =>
    rw [candidateOf] at h
    split_ifs at h with hcond
    simp only [Bool.and_eq_true, Bool.not_eq_true'] at hcond
    exact ⟨ip, rfl, hcond.1.1, hcond.1.2, hcond.2, (Option.some_inj.mp h).symm⟩

/-- The candidates of an answer come from its entries. -/
theorem mem_candidates {c : Config} {isV6 : Bool} {answer : Answer} {addr : GoString}
    (h : addr ∈ candidates c isV6 answer) :
    ∃ addrs ip, answer = .ok addrs ∧ some ip ∈ addrs ∧
      hostIsAllowed c.handler c.host ip = true ∧ (ip.to4.isSome != isV6) = true ∧
      c.network.excludes ip.to4.isSome = false ∧ addr = joinHostPort ip.string c.port := by
  cases answer with
  | error err => exact absurd h (by simp [candidates])
  | ok addrs =>
    rw [candidates, List.mem_eraseDups, List.mem_filterMap] at h
    obtain ⟨a, ha, hcand⟩ := h
    obtain ⟨ip, rfl, hacl, hfam, hnet, haddr⟩ := candidateOf_eq_some hcand
    exact ⟨addrs, ip, rfl, ha, hacl, hfam, hnet, haddr⟩

theorem ofFamily_of_mem_candidates {c : Config} {isV6 : Bool} {answer : Answer}
    {addr : GoString} (h : addr ∈ candidates c isV6 answer) : ofFamily isV6 addr = true := by
  obtain ⟨addrs, ip, -, -, -, hfam, -, rfl⟩ := mem_candidates h
  rw [ofFamily_joinHostPort, hfam]

theorem ne_nil_of_mem_candidates {c : Config} {isV6 : Bool} {answer : Answer} {addr : GoString}
    (h : addr ∈ candidates c isV6 answer) : addr ≠ [] := by
  obtain ⟨addrs, ip, -, -, -, -, -, rfl⟩ := mem_candidates h
  exact joinHostPort_ne_nil _ _

theorem nodup_eraseDups {α : Type*} [BEq α] [LawfulBEq α] : ∀ l : List α, l.eraseDups.Nodup
  | [] => by simp
  | a :: l => by
    rw [List.eraseDups_cons, List.nodup_cons]
    refine ⟨?_, nodup_eraseDups _⟩
    rw [List.mem_eraseDups, List.mem_filter]
    simp
termination_by l => l.length
decreasing_by
  have := List.length_filter_le (fun b => !b == a) l
  simp only [List.length_cons]
  omega

theorem nodup_candidates (c : Config) (isV6 : Bool) (answer : Answer) :
    (candidates c isV6 answer).Nodup := by
  cases answer with
  | error err => exact List.nodup_nil
  | ok addrs => exact nodup_eraseDups _

/-! ## The invariant -/

/-- The lookup has admitted its answer. -/
def Resolver.isIn (r : Resolver) : Bool :=
  match r.pc with
  | .admitted _ => true
  | .done => true
  | _ => false

/-- The candidates of the answer a lookup has admitted. -/
def Resolver.admittedFrom (c : Config) (isV6 : Bool) (r : Resolver) : List GoString :=
  match r with
  | { pc := .admitted _, answer := some answer } => candidates c isV6 answer
  | { pc := .done, answer := some answer } => candidates c isV6 answer
  | _ => []

/-- The addresses handed to `h.dialContext`, in order. -/
def State.dials (s : State) : List GoString :=
  s.trace.filterMap fun o => match o with
    | .start addr _ => some addr
    | .failure _ => none

/-- How the candidates taken from the feed relate to the ones dialled, by where the scheduler
stands. -/
def takenBy (dials pops : List GoString) : SchedPc → Prop
  | .popped addr => pops = dials ++ [addr]
  | .starting addr => pops = dials ++ [addr]
  | .returned _ _ => dials <+: pops
  | _ => pops = dials

/-- `pops` are the candidates taken from the feed. -/
structure Popped (c : Config) (s : State) (pops : List GoString) : Prop where
  /-- What was admitted is what was taken, followed by what is queued. -/
  order : ∀ isV6, (s.resolver isV6).admittedFrom c isV6 =
    pops.filter (ofFamily isV6) ++ s.feed.queue isV6
  seen : ∀ addr, addr ∈ s.feed.seen ↔ ∃ isV6, addr ∈ (s.resolver isV6).admittedFrom c isV6
  taken : takenBy s.dials pops s.sched

theorem Resolver.mem_admittedFrom {c : Config} {isV6 : Bool} {r : Resolver} {addr : GoString}
    (h : addr ∈ r.admittedFrom c isV6) :
    ∃ answer, r.answer = some answer ∧ addr ∈ candidates c isV6 answer := by
  unfold Resolver.admittedFrom at h
  split at h
  · exact ⟨_, rfl, h⟩
  · exact ⟨_, rfl, h⟩
  · exact absurd h (by simp)

theorem Resolver.nodup_admittedFrom (c : Config) (isV6 : Bool) (r : Resolver) :
    (r.admittedFrom c isV6).Nodup := by
  unfold Resolver.admittedFrom
  split
  · exact nodup_candidates ..
  · exact nodup_candidates ..
  · exact List.nodup_nil

/-- A queued candidate is a candidate of its family. -/
theorem Popped.mem_admittedFrom_of_queue {c : Config} {s : State} {pops : List GoString}
    (h : Popped c s pops) {isV6 : Bool} {addr : GoString} (ha : addr ∈ s.feed.queue isV6) :
    addr ∈ (s.resolver isV6).admittedFrom c isV6 := by
  rw [h.order]
  exact List.mem_append_right _ ha

/-- No candidate is the empty string. -/
theorem Popped.queue_ne_blank {c : Config} {s : State} {pops : List GoString}
    (h : Popped c s pops) {isV6 : Bool} {rest : List GoString} :
    s.feed.queue isV6 ≠ [] :: rest := by
  intro hq
  obtain ⟨answer, -, hcand⟩ :=
    Resolver.mem_admittedFrom (h.mem_admittedFrom_of_queue (hq ▸ List.mem_cons_self ..))
  exact ne_nil_of_mem_candidates hcand rfl

/-- A candidate that was taken is a candidate of its family. -/
theorem Popped.exists_of_mem {c : Config} {s : State} {pops : List GoString}
    (h : Popped c s pops) {addr : GoString} (ha : addr ∈ pops) :
    ∃ isV6, addr ∈ (s.resolver isV6).admittedFrom c isV6 := by
  cases hf : ofFamily false addr with
  | true =>
    refine ⟨false, ?_⟩
    rw [h.order]
    exact List.mem_append_left _ (List.mem_filter.mpr ⟨ha, hf⟩)
  | false =>
    refine ⟨true, ?_⟩
    rw [h.order]
    refine List.mem_append_left _ (List.mem_filter.mpr ⟨ha, ?_⟩)
    have := ofFamily_not false addr
    rw [hf] at this
    exact this

/-- Nothing is taken twice. -/
theorem Popped.nodup {c : Config} {s : State} {pops : List GoString} (h : Popped c s pops) :
    pops.Nodup := by
  rw [List.nodup_iff_count_le_one]
  intro addr
  by_cases ha : addr ∈ pops
  · obtain ⟨isV6, hmem⟩ := h.exists_of_mem ha
    obtain ⟨answer, -, hcand⟩ := Resolver.mem_admittedFrom hmem
    have hnodup := Resolver.nodup_admittedFrom c isV6 (s.resolver isV6)
    rw [h.order] at hnodup
    have hle := List.nodup_iff_count_le_one.mp (List.nodup_append.mp hnodup).1 addr
    rwa [List.count_filter (ofFamily_of_mem_candidates hcand)] at hle
  · rw [List.count_eq_zero_of_not_mem ha]
    exact Nat.zero_le 1

/-! ## Every move keeps it -/

/-- A lookup that has not admitted anything has no candidates. -/
theorem Resolver.admittedFrom_eq_nil {c : Config} {isV6 : Bool} {r : Resolver}
    (h : r.pc = .looking ∨ r.pc = .answered) : r.admittedFrom c isV6 = [] := by
  obtain ⟨pc, answer⟩ := r
  rcases h with rfl | rfl <;> rfl

/-- A lookup replaced by one with the same candidates changes nothing for either family. -/
theorem admittedFrom_update {c : Config} {rs : Bool → Resolver} {isV6 : Bool} {r : Resolver}
    (h : r.admittedFrom c isV6 = (rs isV6).admittedFrom c isV6) (b : Bool) :
    (Function.update rs isV6 r b).admittedFrom c b = (rs b).admittedFrom c b := by
  by_cases hb : b = isV6
  · rw [hb, Function.update_self, h]
  · rw [Function.update_of_ne hb]

/-- The invariant depends on the queues, the addresses seen, the admitted candidates and the
dials. -/
theorem Popped.of_same {c : Config} {s s' : State} {pops : List GoString} (h : Popped c s pops)
    (hres : ∀ b, (s'.resolver b).admittedFrom c b = (s.resolver b).admittedFrom c b)
    (hq : ∀ b, s'.feed.queue b = s.feed.queue b) (hseen : s'.feed.seen = s.feed.seen)
    (htaken : takenBy s'.dials pops s'.sched) : Popped c s' pops := by
  refine ⟨?_, ?_, htaken⟩
  · intro b
    rw [hres, hq, h.order]
  · intro addr
    rw [hseen, h.seen]
    simp only [hres]

/-- What was dialled was taken before. -/
theorem takenBy.isPrefix_pops {dials pops : List GoString} {sched : SchedPc}
    (h : takenBy dials pops sched) : dials <+: pops := by
  cases sched with
  | popped addr => exact ⟨[addr], h.symm⟩
  | starting addr => exact ⟨[addr], h.symm⟩
  | returned conn err => exact h
  | _ => exact ⟨[], (List.append_nil _).trans h.symm⟩

/-- Admitting an answer of which nothing was seen before queues all its candidates. -/
theorem resolve_of_unseen {c : Config} {isV6 : Bool} {f : Feed} {answer : Answer}
    (hempty : f.queue isV6 = []) (hunseen : ∀ addr ∈ candidates c isV6 answer, addr ∉ f.seen) :
    (f.resolve c isV6 answer).1.queue isV6 = candidates c isV6 answer ∧
      (f.resolve c isV6 answer).1.queue (!isV6) = f.queue (!isV6) ∧
      ∀ a, a ∈ (f.resolve c isV6 answer).1.seen ↔ a ∈ f.seen ∨ a ∈ candidates c isV6 answer := by
  cases answer with
  | error err =>
    obtain ⟨hq, hsame, hseen, -⟩ := f.resolve_error c isV6 err
    refine ⟨hq.trans hempty, hsame.queue_not, ?_⟩
    intro a
    rw [hseen]
    simp [candidates]
  | ok addrs =>
    obtain ⟨hq, hsame, hseen, -⟩ := f.resolve_ok c isV6 addrs
    refine ⟨?_, hsame.queue_not, hseen⟩
    rw [hq, hempty, List.nil_append, List.filter_eq_self.mpr]
    · rfl
    · intro a ha
      refine decide_eq_true (hunseen a ?_)
      rwa [candidates, List.mem_eraseDups]

/-- Admitting an answer: nothing of it was seen before, so all its candidates are queued. -/
theorem Popped.resolve {c : Config} {s : State} {pops : List GoString} (h : Popped c s pops)
    {isV6 : Bool} {answer : Answer}
    (hpc : s.resolver isV6 = { pc := .answered, answer := some answer }) :
    Popped c ({ s with feed := (s.feed.resolve c isV6 answer).1 }.setResolver isV6
      { pc := .admitted (s.feed.resolve c isV6 answer).2, answer := some answer }) pops := by
  have hnone : (s.resolver isV6).admittedFrom c isV6 = [] :=
    Resolver.admittedFrom_eq_nil (Or.inr (by rw [hpc]))
  have horder := h.order isV6
  rw [hnone, eq_comm, List.append_eq_nil_iff] at horder
  -- what was seen belongs to the other family
  have hunseen : ∀ addr ∈ candidates c isV6 answer, addr ∉ s.feed.seen := by
    intro addr hmem hseen
    obtain ⟨b, hb⟩ := (h.seen addr).mp hseen
    by_cases hbv : b = isV6
    · rw [hbv, hnone] at hb
      exact absurd hb (by simp)
    · obtain ⟨answer', -, hcand⟩ := Resolver.mem_admittedFrom hb
      have h1 := ofFamily_of_mem_candidates hmem
      have h2 := ofFamily_of_mem_candidates hcand
      rw [Bool.eq_not.mpr hbv, ofFamily_not, h1] at h2
      exact absurd h2 (by simp)
  obtain ⟨hq, hqnot, hseen⟩ := resolve_of_unseen horder.2 hunseen
  refine ⟨?_, ?_, h.taken⟩
  · intro b
    by_cases hb : b = isV6
    · subst hb
      show (Function.update s.resolver b _ b).admittedFrom c b =
        _ ++ (s.feed.resolve c b answer).1.queue b
      rw [Function.update_self, hq, horder.1, List.nil_append]
      rfl
    · have hbn : b = !isV6 := Bool.eq_not.mpr hb
      show (Function.update s.resolver isV6 _ b).admittedFrom c b =
        _ ++ (s.feed.resolve c isV6 answer).1.queue b
      rw [Function.update_of_ne hb, h.order b, hbn, hqnot]
  · intro addr
    show addr ∈ (s.feed.resolve c isV6 answer).1.seen ↔
      ∃ b, addr ∈ (Function.update s.resolver isV6 _ b).admittedFrom c b
    rw [hseen, h.seen]
    constructor
    · rintro (⟨b, hb⟩ | hmem)
      · have hbv : b ≠ isV6 := by
          rintro rfl
          rw [hnone] at hb
          exact absurd hb (by simp)
        exact ⟨b, by rwa [Function.update_of_ne hbv]⟩
      · exact ⟨isV6, by rw [Function.update_self]; exact hmem⟩
    · rintro ⟨b, hb⟩
      by_cases hbv : b = isV6
      · subst hbv
        rw [Function.update_self] at hb
        exact Or.inr hb
      · rw [Function.update_of_ne hbv] at hb
        exact Or.inl ⟨b, hb⟩

/-- Taking the head of a queue. -/
theorem Popped.pop {c : Config} {s : State} {pops : List GoString} (h : Popped c s pops)
    {isV6 : Bool} {addr : GoString} {rest : List GoString} (hsched : s.sched = .advancing true)
    (hq : s.feed.queue isV6 = addr :: rest) :
    Popped c { s with feed := s.feed.setQueue isV6 rest, sched := .popped addr }
      (pops ++ [addr]) := by
  have hmem : addr ∈ (s.resolver isV6).admittedFrom c isV6 :=
    h.mem_admittedFrom_of_queue (hq ▸ List.mem_cons_self ..)
  obtain ⟨answer, -, hcand⟩ := Resolver.mem_admittedFrom hmem
  have hfam := ofFamily_of_mem_candidates hcand
  refine ⟨?_, ?_, ?_⟩
  · intro b
    show (s.resolver b).admittedFrom c b = _ ++ (s.feed.setQueue isV6 rest).queue b
    by_cases hb : b = isV6
    · subst hb
      rw [h.order, hq, Feed.queue_setQueue, List.filter_append, List.append_assoc,
        List.filter_singleton, hfam]
      rfl
    · have hbn : b = !isV6 := Bool.eq_not.mpr hb
      rw [h.order, Feed.queue_setQueue_of_ne _ hb, List.filter_append, List.filter_singleton, hbn,
        ofFamily_not, hfam]
      simp
  · intro a
    show a ∈ (s.feed.setQueue isV6 rest).seen ↔ _
    rw [Feed.seen_setQueue, h.seen]
  · have htaken := h.taken
    rw [hsched] at htaken
    show pops ++ [addr] = s.dials ++ [addr]
    rw [show pops = s.dials from htaken]

/-- The dials after handing out an address. -/
theorem filterMap_append_start (trace : List Obs) (addr : GoString) (time : ℕ) (s : State) :
    ({ s with trace := trace ++ [.start addr time] } : State).dials =
      ({ s with trace := trace } : State).dials ++ [addr] := by
  simp [State.dials]

theorem popped_of_move {c : Config} {s s' : State} {e : Event} (h : ∃ pops, Popped c s pops)
    (hm : Move c s e s') : ∃ pops, Popped c s' pops := by
  obtain ⟨pops, h⟩ := h
  have htaken := h.taken
  cases hm with
  | elapse | fire | cancel | closeFeed | closePulse | dialDone | settle | giveUp =>
    exact ⟨pops, h.of_same (fun _ => rfl) (fun _ => rfl) rfl htaken⟩
  | lookupDone isV6 answer hpc =>
    refine ⟨pops, h.of_same (admittedFrom_update ?_) (fun _ => rfl) rfl htaken⟩
    rw [Resolver.admittedFrom_eq_nil (Or.inl hpc), Resolver.admittedFrom_eq_nil (Or.inr rfl)]
  | resolve isV6 answer hpc => exact ⟨pops, h.resolve hpc⟩
  | pulse isV6 added answer hpc =>
    refine ⟨pops, h.of_same (admittedFrom_update ?_) (fun b => ?_) ?_ htaken⟩
    · rw [hpc]
      cases answer <;> rfl
    · cases added <;> rfl
    · cases added <;> rfl
  | advancePop isV6 addr rest hsched hq haddr => exact ⟨pops ++ [addr], h.pop hsched hq⟩
  | advanceBlank isV6 rest hsched hq =>
    exact absurd hq h.queue_ne_blank
  | advanceEnd | checkCtxDone | selectCtx | discardWinner | returnWinner =>
    exact ⟨pops, h.of_same (fun _ => rfl) (fun _ => rfl) rfl htaken.isPrefix_pops⟩
  | computeDue hsched | advanceBlock _ hsched | checkCtx _ hsched | stamp _ _ hsched
  | selectConn _ _ _ _ _ hsched | selectWake hsched | selectTick hsched =>
    rw [hsched] at htaken
    exact ⟨pops, h.of_same (fun _ => rfl) (fun _ => rfl) rfl htaken⟩
  | start addr hsched =>
    rw [hsched] at htaken
    refine ⟨pops, h.of_same (fun _ => rfl) (fun _ => rfl) rfl ?_⟩
    show pops = State.dials { s with trace := s.trace ++ [.start addr s.now] }
    rw [filterMap_append_start]
    exact htaken
  | selectFailure i a err keepTick hsched =>
    rw [hsched] at htaken
    refine ⟨pops, h.of_same ?_ ?_ ?_ ?_⟩
    · exact fun _ => by rw [shrinkWindow_resolver]; rfl
    · exact fun _ => by rw [shrinkWindow_feed]; rfl
    · rw [shrinkWindow_feed]
      rfl
    · rw [State.dials, shrinkWindow_trace, shrinkWindow_sched]
      show pops = List.filterMap _ (s.trace ++ [Obs.failure s.now])
      rw [show pops = s.dials from htaken, State.dials, List.filterMap_append]
      simp

/-- In every state, the candidates taken so far account for the admitted answers. -/
theorem exists_popped {c : Config} {s : State} (h : Reaches c s) : ∃ pops, Popped c s pops := by
  refine h.induction_on_move (P := fun s => ∃ pops, Popped c s pops) ?_ ?_
  · intro now
    refine ⟨[], ⟨?_, ?_, rfl⟩⟩
    · intro isV6
      cases isV6 <;> rfl
    · intro addr
      constructor
      · intro hmem
        exact absurd hmem (by simp [init])
      · rintro ⟨isV6, hmem⟩
        exact absurd hmem (by simp [init, Resolver.admittedFrom])
  · intro s e s' hp hm
    exact popped_of_move hp hm

/-- No candidate is the empty string, so `advance` never takes one that reads as none. -/
theorem queue_ne_blank {c : Config} {s : State} (h : Reaches c s) (isV6 : Bool)
    (rest : List GoString) : s.feed.queue isV6 ≠ [] :: rest := by
  intro hq
  obtain ⟨pops, hpops⟩ := exists_popped h
  exact hpops.queue_ne_blank hq

/-! ## The main result -/

/-- The address of an entry that is not nil, that the access rules allow and that belongs to
the family that was asked for. -/
def familyAddress (c : Config) (isV6 : Bool) : Option IP → Option GoString
  | none => none
  | some ip =>
    if hostIsAllowed c.handler c.host ip && ip.to4.isSome != isV6 then
      some (joinHostPort ip.string c.port)
    else none

/-- The answer of a lookup after dropping nil entries, entries that the access rules deny and
entries of the other family, as addresses and without later duplicates.  The requested network
plays no part here. -/
def familyOrder (c : Config) (isV6 : Bool) : Option Answer → List GoString
  | some (.ok addrs) => (addrs.filterMap (familyAddress c isV6)).eraseDups
  | _ => []

/-- An entry is a candidate if it has an address and the requested network takes its
family. -/
theorem candidateOf_eq (c : Config) (isV6 : Bool) (a : Option IP) :
    candidateOf c isV6 a = if c.network.excludes (!isV6) then none else familyAddress c isV6 a := by
  cases a with
  | none => simp [candidateOf, familyAddress]
  | some ip =>
    simp only [candidateOf, familyAddress]
    by_cases hfam : ip.to4.isSome = isV6
    · simp [hfam]
    · rw [Bool.eq_not.mpr hfam]
      cases c.network.excludes (!isV6) <;> simp

/-- The requested network admits a family as a whole or not at all. -/
theorem candidates_isPrefix_familyOrder (c : Config) (isV6 : Bool) (answer : Answer) :
    candidates c isV6 answer <+: familyOrder c isV6 (some answer) := by
  cases answer with
  | error err => exact List.prefix_rfl
  | ok addrs =>
    rw [candidates, familyOrder, funext (candidateOf_eq c isV6)]
    cases c.network.excludes (!isV6) with
    | true => simp
    | false => exact List.prefix_rfl

/-- An address that was dialled is a candidate of a lookup that has answered. -/
theorem exists_candidate_of_mem_dials {c : Config} {s : State} (h : Reaches c s) {addr : GoString}
    (ha : addr ∈ s.dials) :
    ∃ isV6 answer, (s.resolver isV6).answer = some answer ∧ addr ∈ candidates c isV6 answer := by
  obtain ⟨pops, hpops⟩ := exists_popped h
  obtain ⟨isV6, hmem⟩ := hpops.exists_of_mem (hpops.taken.isPrefix_pops.subset ha)
  obtain ⟨answer, hans, hcand⟩ := Resolver.mem_admittedFrom hmem
  exact ⟨isV6, answer, hans, hcand⟩

/-- What was admitted of a family is the beginning of its order. -/
theorem Resolver.admittedFrom_isPrefix_familyOrder (c : Config) (isV6 : Bool) (r : Resolver) :
    r.admittedFrom c isV6 <+: familyOrder c isV6 r.answer := by
  unfold Resolver.admittedFrom
  split
  · exact candidates_isPrefix_familyOrder ..
  · exact candidates_isPrefix_familyOrder ..
  · exact List.nil_prefix

/-- **What the race dials.**  In every state of every run, the addresses handed to
`h.dialContext` so far, in order, satisfy:

* each is the address of an entry that the lookup of its own family returned and that the
  access rules allow; with `tcp4` the entry is IPv4 and with `tcp6` it is not, so that it is
  IPv6 if it is an address of 4 or 16 bytes at all;
* none occurs twice;
* those of one family are the beginning of the family's answer, after dropping nil, denied
  and wrong-family entries and later duplicates. -/
theorem dials_safe {c : Config} {s : State} (h : Reaches c s) :
    (∀ addr ∈ s.dials, ∃ isV6 addrs ip, (s.resolver isV6).answer = some (.ok addrs) ∧
      some ip ∈ addrs ∧ (ip.IsIPv4 ↔ isV6 = false) ∧
      hostIsAllowed c.handler c.host ip = true ∧ addr = joinHostPort ip.string c.port ∧
      (c.network = .tcp4 → ip.IsIPv4) ∧
      (c.network = .tcp6 → ¬ ip.IsIPv4 ∧ (ip.length = 4 ∨ ip.length = 16 → ip.IsIPv6))) ∧
    s.dials.Nodup ∧
    ∀ isV6, s.dials.filter (ofFamily isV6) <+: familyOrder c isV6 (s.resolver isV6).answer := by
  obtain ⟨pops, hpops⟩ := exists_popped h
  have hdials := hpops.taken.isPrefix_pops
  refine ⟨?_, hpops.nodup.sublist hdials.sublist, ?_⟩
  · intro addr ha
    obtain ⟨isV6, answer, hans, hcand⟩ := exists_candidate_of_mem_dials h ha
    obtain ⟨addrs, ip, rfl, hmem, hacl, hfam, hnet, haddr⟩ := mem_candidates hcand
    rw [bne_iff_ne] at hfam
    have hiff : ip.IsIPv4 ↔ isV6 = false := by
      rw [IP.IsIPv4, ← Option.isSome_iff_ne_none, Bool.eq_not.mpr hfam]
      simp
    refine ⟨isV6, addrs, ip, hans, hmem, hiff, hacl, haddr, ?_, ?_⟩
    · intro htcp4
      rw [IP.IsIPv4, ← Option.isSome_iff_ne_none]
      simpa [Network.excludes, htcp4] using hnet
    · intro htcp6
      have hnone : ip.to4 = none := by simpa [Network.excludes, htcp6] using hnet
      exact ⟨fun h4 => h4 hnone, IP.isIPv6_of_length hnone⟩
  · intro isV6
    have hpops' : pops.filter (ofFamily isV6) <+: (s.resolver isV6).admittedFrom c isV6 :=
      ⟨_, (hpops.order isV6).symm⟩
    exact ((hdials.filter _).trans hpops').trans
      (Resolver.admittedFrom_isPrefix_familyOrder c isV6 _)

/-- Both families are dialled, each address once. -/
theorem dials_safe_lateLoser :
    (stateAfter twoFamilies lateLoser).dials =
        [ascii "[2001:db8::1]:443", ascii "192.0.2.1:443"] ∧
      (stateAfter twoFamilies lateLoser).dials.Nodup ∧
      ∀ isV6, (stateAfter twoFamilies lateLoser).dials.filter (ofFamily isV6) <+:
        familyOrder twoFamilies isV6 ((stateAfter twoFamilies lateLoser).resolver isV6).answer :=
  ⟨by decide, (dials_safe (c := twoFamilies) (reaches_stateAfter (by decide))).2⟩

end Dial
end ForwardProxy
