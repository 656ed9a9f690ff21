import ForwardProxy.Acl.Policy

/-!
# The candidate feed of the dial race (`connect_dial_incremental.go`)

`tcpFamilyFeed` stands between the two family lookups and the scheduler of
`dialTCPIncremental`.  A lookup admits its answer in one critical section
(`Feed.resolve`); the scheduler takes one candidate at a time in another
(`Feed.advance`).  Everything here is what happens inside one critical section, so it
is a function; the interleaving of the critical sections is `Dial.Race`.

The two facts that the race needs are one for each side.

* `Feed.resolve_ok`: admitting an answer appends to the queue of the family exactly the
  candidates of the answer that no one has seen before, each once and in the order of
  the resolver, and touches nothing else.
* `Feed.advance_cases`: advancing either takes the head of one of the two queues, or
  takes nothing, and then either the window was closed or both queues were empty.

The candidates of an answer (`candidates`) are stated without the feed: the addresses of
the entries that are not nil, pass the access rules, belong to the family that was asked
for and to the requested network, later duplicates left out.
-/

namespace ForwardProxy
namespace Dial

open ForwardProxy.Core Acl

/-- The networks a TCP dial may ask for. -/
inductive Network where
  | tcp
  | tcp4
  | tcp6
  deriving DecidableEq, Repr

/-- The errors the race ends with: an error of a context, a lookup or a dial,
`errTCPDialFailed`, or a policy failure. -/
inductive RaceError where
  | net (e : NetError)
  | dialFailed
  | policy (failure : PolicyFailure)
  deriving DecidableEq, Repr

/-- What a family lookup returns: an error, or addresses of which some may be nil. -/
abbrev Answer := Except NetError (List (Option IP))

/-- The arguments of `dialTCPIncremental` that admission depends on. -/
structure Config where
  handler : Handler
  network : Network
  host : GoString
  port : GoString

/-- `tcpFamilyFeed`.  The map `seen` is a list of its keys, the channel `wake` has one
slot and is full or empty. -/
structure Feed where
  v4 : List GoString := []
  v6 : List GoString := []
  seen : List GoString := []
  closed : Bool := false
  wake : Bool := false
  errV4 : Option NetError := none
  errV6 : Option NetError := none
  passedACL : ℕ := 0
  deriving DecidableEq, Repr

namespace Feed

/-- The queue of one family. -/
def queue (f : Feed) (isV6 : Bool) : List GoString := if isV6 then f.v6 else f.v4

/-- Replace the queue of one family. -/
def setQueue (f : Feed) (isV6 : Bool) (q : List GoString) : Feed :=
  if isV6 then { f with v6 := q } else { f with v4 := q }

/-- `len(f.v4) == 0 && len(f.v6) == 0`. -/
def isEmpty (f : Feed) : Bool := f.v4.isEmpty && f.v6.isEmpty

/-- `pulse`: a full slot drops the token. -/
def pulse (f : Feed) : Feed := { f with wake := true }

/-- `popLocked`. -/
def popLocked (f : Feed) (lastFamily : UInt8) : (GoString × Bool) × Feed :=
  if f.v4.isEmpty && f.v6.isEmpty then (([], false), f)
  else
    let takeV6 :=
      if lastFamily = 0 then !f.v6.isEmpty
      else if lastFamily = 4 then !f.v6.isEmpty
      else f.v4.isEmpty
    if takeV6 then ((f.v6.headD [], true), { f with v6 := f.v6.tail })
    else ((f.v4.headD [], true), { f with v4 := f.v4.tail })

/-- `advance`: the candidate (empty for none), `closed` and `empty`. -/
def advance (f : Feed) (due : Bool) (lastFamily : UInt8) : (GoString × Bool × Bool) × Feed :=
  let empty := f.isEmpty
  if due && !empty then
    match f.popLocked lastFamily with
    | ((addr, true), f') => ((addr, f.closed, false), f')
    | ((_, false), f') => (([], f'.closed, empty), f')
  else (([], f.closed, empty), f)

/-- `finalError`. -/
def finalError (f : Feed) (started : ℕ) (lastErr : Option RaceError) : RaceError :=
  if 0 < started then lastErr.getD .dialFailed
  else
    match f.errV4, f.errV6 with
    | some cause, some _ => .policy (.lookupFailed cause)
    | _, _ => if f.passedACL = 0 then .policy .noAllowedAddress else .dialFailed

end Feed

/-! ## Admission -/

/-- Whether the requested network excludes an address of this family. -/
def Network.excludes (network : Network) (v4 : Bool) : Bool :=
  (network == .tcp4 && !v4) || (network == .tcp6 && v4)

/-- The body of the loop in `resolve`: one entry of the answer. -/
def Feed.resolveOne (c : Config) (isV6 : Bool) (fa : Feed × Bool) (a : Option IP) : Feed × Bool :=
  let (f, added) := fa
  match a with
  | none => (f, added)
  | some ip =>
    if !hostIsAllowed c.handler c.host ip then (f, added)
    else
      let f := { f with passedACL := f.passedACL + 1 }
      let v4 := ip.to4.isSome
      if v4 == isV6 then (f, added)
      else if c.network.excludes v4 then (f, added)
      else
        let addr := joinHostPort ip.string c.port
        if addr ∈ f.seen then (f, added)
        else
          let f := { f with seen := addr :: f.seen }
          (f.setQueue isV6 (f.queue isV6 ++ [addr]), true)

/-- The critical section of `resolve`: the feed afterwards, and `added`. -/
def Feed.resolve (c : Config) (isV6 : Bool) (f : Feed) : Answer → Feed × Bool
  | .error err =>
    (if isV6 then { f with errV6 := some err } else { f with errV4 := some err }, false)
  | .ok addrs => addrs.foldl (Feed.resolveOne c isV6) (f, false)

/-- The address of an entry that the family, the access rules and the network admit. -/
def candidateOf (c : Config) (isV6 : Bool) : Option IP → Option GoString
  | none => none
  | some ip =>
    if hostIsAllowed c.handler c.host ip && ip.to4.isSome != isV6 &&
        !c.network.excludes ip.to4.isSome then
      some (joinHostPort ip.string c.port)
    else none

/-- The candidates of an answer: the addresses of its admissible entries, in order and
without later duplicates.  A failed lookup has none. -/
def candidates (c : Config) (isV6 : Bool) : Answer → List GoString
  | .error _ => []
  | .ok addrs => (addrs.filterMap (candidateOf c isV6)).eraseDups

/-! ## Queues -/

namespace Feed

@[simp] theorem queue_false (f : Feed) : f.queue false = f.v4 := rfl

@[simp] theorem queue_true (f : Feed) : f.queue true = f.v6 := rfl

@[simp] theorem queue_setQueue (f : Feed) (isV6 : Bool) (q : List GoString) :
    (f.setQueue isV6 q).queue isV6 = q := by
  cases isV6 <;> rfl

theorem queue_setQueue_of_ne (f : Feed) {isV6 b : Bool} (h : b ≠ isV6) (q : List GoString) :
    (f.setQueue isV6 q).queue b = f.queue b := by
  cases isV6 <;> cases b <;> simp_all [setQueue]

@[simp] theorem seen_setQueue (f : Feed) (isV6 : Bool) (q : List GoString) :
    (f.setQueue isV6 q).seen = f.seen := by
  cases isV6 <;> rfl

@[simp] theorem closed_setQueue (f : Feed) (isV6 : Bool) (q : List GoString) :
    (f.setQueue isV6 q).closed = f.closed := by
  cases isV6 <;> rfl

@[simp] theorem wake_setQueue (f : Feed) (isV6 : Bool) (q : List GoString) :
    (f.setQueue isV6 q).wake = f.wake := by
  cases isV6 <;> rfl

@[simp] theorem isEmpty_iff (f : Feed) :
    f.isEmpty = true ↔ ∀ isV6, f.queue isV6 = [] := by
  simp [isEmpty, Bool.forall_bool]

/-! ## Advancing -/

/-- Popping a feed that is not empty takes the head of one of its queues.  When both have one, it is
the turn of the IPv6 queue at the start and behind an IPv4 address. -/
theorem popLocked_of_not_isEmpty {f : Feed} (h : f.isEmpty = false) (lastFamily : UInt8) :
    ∃ isV6 addr rest, f.queue isV6 = addr :: rest ∧
      f.popLocked lastFamily = ((addr, true), f.setQueue isV6 rest) ∧
      (f.queue (!isV6) ≠ [] → (isV6 = true ↔ lastFamily = 0 ∨ lastFamily = 4)) := by
  obtain ⟨v4, v6, seen, closed, wake, e4, e6, n⟩ := f
  -- with one queue empty, every rule of the switch takes the other one
  cases v4 with
  | nil =>
    cases v6 with
    | nil => exact absurd h (by simp [isEmpty])
    | cons b v6 =>
      exact ⟨true, b, v6, rfl, by simp [popLocked, setQueue], fun hne => absurd rfl hne⟩
  | cons a v4 =>
    cases v6 with
    | nil =>
      exact ⟨false, a, v4, rfl, by simp [popLocked, setQueue], fun hne => absurd rfl hne⟩
    | cons b v6 =>
      by_cases h6 : lastFamily = 0 ∨ lastFamily = 4
      · refine ⟨true, b, v6, rfl, ?_, fun _ => iff_of_true rfl h6⟩
        rcases h6 with rfl | rfl <;> simp [popLocked, setQueue]
      · refine ⟨false, a, v4, rfl, ?_, fun _ => iff_of_false Bool.false_ne_true h6⟩
        rw [not_or] at h6
        simp [popLocked, setQueue, h6.1, h6.2]

/-- **What advancing can do.**  It takes the head of one of the queues, and then the
window was open; or it takes nothing, and then the window was closed or both queues were
empty. -/
theorem advance_cases (f : Feed) (due : Bool) (lastFamily : UInt8) :
    (∃ isV6 addr rest, due = true ∧ f.queue isV6 = addr :: rest ∧
      f.advance due lastFamily = ((addr, f.closed, false), f.setQueue isV6 rest)) ∨
    ((due = false ∨ f.isEmpty = true) ∧
      f.advance due lastFamily = (([], f.closed, f.isEmpty), f)) := by
  by_cases h : due = true ∧ f.isEmpty = false
  · obtain ⟨hdue, hne⟩ := h
    obtain ⟨isV6, addr, rest, hq, hpop, -⟩ := popLocked_of_not_isEmpty hne lastFamily
    refine Or.inl ⟨isV6, addr, rest, hdue, hq, ?_⟩
    simp [advance, hdue, hne, hpop]
  · have hor : due = false ∨ f.isEmpty = true := by
      cases due <;> simp_all
    refine Or.inr ⟨hor, ?_⟩
    rcases hor with hd | he
    · simp [advance, hd]
    · simp [advance, he]

/-! ## Admitting -/

/-- One entry of an answer: it changes nothing but the count, or it appends a candidate
that was not seen before. -/
theorem resolveOne_cases (c : Config) (isV6 : Bool) (f : Feed) (added : Bool) (a : Option IP) :
    (∃ n, (∀ addr, candidateOf c isV6 a = some addr → addr ∈ f.seen) ∧
      resolveOne c isV6 (f, added) a = ({ f with passedACL := n }, added)) ∨
    (∃ n addr, candidateOf c isV6 a = some addr ∧ addr ∉ f.seen ∧
      resolveOne c isV6 (f, added) a =
        (({ f with passedACL := n, seen := addr :: f.seen } : Feed).setQueue isV6
          (f.queue isV6 ++ [addr]), true)) := by
  cases a with
  | none => exact Or.inl ⟨f.passedACL, by simp [candidateOf], rfl⟩
  | some ip =>
    by_cases hacl : hostIsAllowed c.handler c.host ip = true
    · by_cases hfam : ip.to4.isSome = isV6
      · exact Or.inl
          ⟨f.passedACL + 1, by simp [candidateOf, hfam], by simp [resolveOne, hacl, hfam]⟩
      · by_cases hnet : c.network.excludes ip.to4.isSome = true
        · exact Or.inl ⟨f.passedACL + 1, by simp [candidateOf, hnet],
            by simp [resolveOne, hacl, hfam, hnet]⟩
        · have hcand : candidateOf c isV6 (some ip) = some (joinHostPort ip.string c.port) := by
            simp [candidateOf, hacl, hfam, hnet]
          by_cases hseen : joinHostPort ip.string c.port ∈ f.seen
          · refine Or.inl ⟨f.passedACL + 1, ?_, by simp [resolveOne, hacl, hfam, hnet, hseen]⟩
            intro addr haddr
            rw [hcand] at haddr
            exact Option.some_inj.mp haddr ▸ hseen
          · refine Or.inr ⟨f.passedACL + 1, _, hcand, hseen, ?_⟩
            simp only [resolveOne]
            rw [if_neg (by simp [hacl]), if_neg (by simpa using hfam), if_neg hnet, if_neg hseen]
            cases isV6 <;> rfl
    · exact Or.inl ⟨f.passedACL, by simp [candidateOf, hacl], by simp [resolveOne, hacl]⟩

/-- What admission leaves alone. -/
structure SameBut (isV6 : Bool) (f f' : Feed) : Prop where
  queue_not : f'.queue (!isV6) = f.queue (!isV6)
  closed : f'.closed = f.closed
  wake : f'.wake = f.wake

/-- Admitting the entries of an answer one by one appends the candidates that were not
seen before, each once and in order. -/
theorem foldl_resolveOne (c : Config) (isV6 : Bool) (addrs : List (Option IP)) (f : Feed)
    (added : Bool) :
    let fresh := ((addrs.filterMap (candidateOf c isV6)).filter (· ∉ f.seen)).eraseDups
    let r := addrs.foldl (resolveOne c isV6) (f, added)
    r.1.queue isV6 = f.queue isV6 ++ fresh ∧ SameBut isV6 f r.1 ∧
      (∀ a, a ∈ r.1.seen ↔ a ∈ f.seen ∨ a ∈ addrs.filterMap (candidateOf c isV6)) ∧
      (r.2 = true ↔ added = true ∨ fresh ≠ []) := by
  induction addrs generalizing f added with
  | nil => exact ⟨by simp, ⟨rfl, rfl, rfl⟩, by simp, by simp⟩
  | cons a addrs ih =>
    rw [List.foldl_cons]
    rcases resolveOne_cases c isV6 f added a with ⟨n, hcand, heq⟩ | ⟨n, addr, hcand, hseen, heq⟩
    · -- the entry is dropped, or a duplicate of something seen
      obtain ⟨hq, hsame, hmem, hadded⟩ := ih { f with passedACL := n } added
      have hfresh : ((a :: addrs).filterMap (candidateOf c isV6)).filter (· ∉ f.seen) =
          (addrs.filterMap (candidateOf c isV6)).filter (· ∉ f.seen) := by
        cases ha : candidateOf c isV6 a with
        | none => rw [List.filterMap_cons_none ha]
        | some addr =>
          rw [List.filterMap_cons_some ha, List.filter_cons_of_neg (by simpa using hcand addr ha)]
      have hmem' : ∀ x, x ∈ f.seen ∨ x ∈ (a :: addrs).filterMap (candidateOf c isV6) ↔
          x ∈ f.seen ∨ x ∈ addrs.filterMap (candidateOf c isV6) := by
        intro x
        cases ha : candidateOf c isV6 a with
        | none => rw [List.filterMap_cons_none ha]
        | some addr =>
          have := hcand addr ha
          rw [List.filterMap_cons_some ha, List.mem_cons]
          constructor
          · rintro (h | rfl | h)
            · exact Or.inl h
            · exact Or.inl this
            · exact Or.inr h
          · rintro (h | h)
            · exact Or.inl h
            · exact Or.inr (Or.inr h)
      rw [heq]
      simp only [hfresh, hmem']
      exact ⟨hq, ⟨hsame.queue_not, hsame.closed, hsame.wake⟩, hmem, hadded⟩
    · -- the entry is new: it heads the fresh candidates
      obtain ⟨hq, hsame, hmem, hadded⟩ :=
        ih (({ f with passedACL := n, seen := addr :: f.seen } : Feed).setQueue isV6
          (f.queue isV6 ++ [addr])) true
      have hfresh : (((a :: addrs).filterMap (candidateOf c isV6)).filter (· ∉ f.seen)).eraseDups =
          addr :: ((addrs.filterMap (candidateOf c isV6)).filter
            (· ∉ addr :: f.seen)).eraseDups := by
        rw [List.filterMap_cons_some hcand, List.filter_cons_of_pos (by simpa using hseen),
          List.eraseDups_cons, List.filter_filter]
        congr 3
        funext b
        rw [Bool.eq_iff_iff]
        simp
      rw [heq]
      simp only [hfresh]
      refine ⟨?_, ⟨?_, ?_, ?_⟩, ?_, ?_⟩
      · rw [hq, queue_setQueue, seen_setQueue, List.append_assoc, List.singleton_append]
      · rw [hsame.queue_not]
        cases isV6 <;> rfl
      · rw [hsame.closed, closed_setQueue]
      · rw [hsame.wake, wake_setQueue]
      · intro x
        rw [hmem, seen_setQueue, List.filterMap_cons_some hcand, List.mem_cons, List.mem_cons]
        tauto
      · simp [hadded]

/-- **Admitting an answer** appends to the queue of the family the candidates of the answer
that no one has seen before, each once and in the order of the resolver; `added` says
whether there were any. -/
theorem resolve_ok (c : Config) (isV6 : Bool) (f : Feed) (addrs : List (Option IP)) :
    let fresh := ((addrs.filterMap (candidateOf c isV6)).filter (· ∉ f.seen)).eraseDups
    (resolve c isV6 f (.ok addrs)).1.queue isV6 = f.queue isV6 ++ fresh ∧
      SameBut isV6 f (resolve c isV6 f (.ok addrs)).1 ∧
      (∀ a, a ∈ (resolve c isV6 f (.ok addrs)).1.seen ↔
        a ∈ f.seen ∨ a ∈ candidates c isV6 (.ok addrs)) ∧
      ((resolve c isV6 f (.ok addrs)).2 = true ↔ fresh ≠ []) := by
  obtain ⟨hq, hsame, hmem, hadded⟩ := foldl_resolveOne c isV6 addrs f false
  refine ⟨hq, hsame, ?_, by simpa [resolve] using hadded⟩
  intro a
  rw [candidates, List.mem_eraseDups]
  exact hmem a

/-- A failed lookup admits nothing. -/
theorem resolve_error (c : Config) (isV6 : Bool) (f : Feed) (err : NetError) :
    (resolve c isV6 f (.error err)).1.queue isV6 = f.queue isV6 ∧
      SameBut isV6 f (resolve c isV6 f (.error err)).1 ∧
      (resolve c isV6 f (.error err)).1.seen = f.seen ∧
      (resolve c isV6 f (.error err)).2 = false := by
  cases isV6 <;> exact ⟨rfl, ⟨rfl, rfl, rfl⟩, rfl, rfl⟩

theorem sameBut_resolve (c : Config) (isV6 : Bool) (f : Feed) (answer : Answer) :
    SameBut isV6 f (resolve c isV6 f answer).1 := by
  cases answer with
  | error err => exact (resolve_error c isV6 f err).2.1
  | ok addrs => exact (resolve_ok c isV6 f addrs).2.1

/-- The queue of the family only grows, and only if `added` says so. -/
theorem queue_resolve (c : Config) (isV6 : Bool) (f : Feed) (answer : Answer) :
    ∃ fresh, (resolve c isV6 f answer).1.queue isV6 = f.queue isV6 ++ fresh ∧
      ((resolve c isV6 f answer).2 = false → fresh = []) := by
  cases answer with
  | error err => exact ⟨[], by rw [(resolve_error c isV6 f err).1, List.append_nil], fun _ => rfl⟩
  | ok addrs =>
    obtain ⟨hq, -, -, hadded⟩ := resolve_ok c isV6 f addrs
    refine ⟨_, hq, fun hfalse => ?_⟩
    by_contra hne
    exact absurd (hadded.mpr hne) (by rw [hfalse]; exact Bool.false_ne_true)

/-- Admission does not empty a feed. -/
theorem isEmpty_of_isEmpty_resolve {c : Config} {isV6 : Bool} {f : Feed} {answer : Answer}
    (h : (resolve c isV6 f answer).1.isEmpty = true) : f.isEmpty = true := by
  rw [isEmpty_iff] at h ⊢
  obtain ⟨fresh, hq, -⟩ := queue_resolve c isV6 f answer
  intro b
  by_cases hb : b = isV6
  · rw [hb]
    exact (List.append_eq_nil_iff.mp (hq.symm.trans (h isV6))).1
  · rw [Bool.eq_not.mpr hb, ← (sameBut_resolve c isV6 f answer).queue_not]
    exact h _

/-- Admission that adds nothing leaves an empty feed empty. -/
theorem isEmpty_resolve {c : Config} {isV6 : Bool} {f : Feed} {answer : Answer}
    (h : f.isEmpty = true) (hadded : (resolve c isV6 f answer).2 = false) :
    (resolve c isV6 f answer).1.isEmpty = true := by
  rw [isEmpty_iff] at h ⊢
  obtain ⟨fresh, hq, hfresh⟩ := queue_resolve c isV6 f answer
  intro b
  by_cases hb : b = isV6
  · rw [hb, hq, h, hfresh hadded, List.append_nil]
  · rw [Bool.eq_not.mpr hb, (sameBut_resolve c isV6 f answer).queue_not]
    exact h _

end Feed

end Dial
end ForwardProxy
