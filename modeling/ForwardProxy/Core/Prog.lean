import Mathlib.Data.List.Basic
import Mathlib.Data.Sigma.Basic

/-!
# Programs that perform operations

Code that talks to the outside is a tree (`Prog`): it returns, or it performs an operation
and goes on with the answer.  What the operations do is not part of the tree, so one
translation of the code serves for everything that is said about it:

* `Runs p tr a`: the program performs the operations of `tr`, with the answers given there,
  and returns `a`.  A statement about every run is one about every outcome of every
  operation.
* `Follows π g p Q`: the program keeps to a protocol.  A protocol says, for each state of a
  ghost variable, which operations are allowed, and how an operation and its answer change
  the variable; `Q` is what holds of the result and the variable at the end.  This is a
  weakest precondition, with the usual rules (`follows_bind`, `Follows.mono`), and it is kept
  by every single operation, so it is an invariant of a program that is interleaved with
  others.
-/

namespace ForwardProxy
namespace Core

/-- Programs over the operations `Op`; the answer to `o` is a `Resp o`. -/
inductive Prog {Op : Type} (Resp : Op → Type) (α : Type) : Type where
  | ret (a : α)
  | op (o : Op) (k : Resp o → Prog Resp α)

namespace Prog

variable {Op : Type} {Resp : Op → Type} {α β γ : Type}

/-- Run one program after another. -/
protected def bind : Prog Resp α → (α → Prog Resp β) → Prog Resp β
  | .ret a, f => f a
  | .op o k, f => .op o fun r => (k r).bind f

instance : Monad (Prog Resp) where
  pure := .ret
  bind := Prog.bind

/-- Perform one operation. -/
def perform (o : Op) : Prog Resp (Resp o) := .op o .ret

@[simp] theorem pure_eq_ret (a : α) : (pure a : Prog Resp α) = .ret a := rfl

@[simp] theorem ret_bind (a : α) (f : α → Prog Resp β) : (.ret a >>= f) = f a := rfl

@[simp] theorem op_bind (o : Op) (k : Resp o → Prog Resp α) (f : α → Prog Resp β) :
    (.op o k >>= f) = .op o fun r => k r >>= f := rfl

@[simp] theorem perform_bind (o : Op) (f : Resp o → Prog Resp β) :
    (perform o >>= f) = .op o f := rfl

/-! ## Runs -/

/-- The program performs these operations, with these answers, and returns this. -/
inductive Runs : Prog Resp α → List (Σ o, Resp o) → α → Prop
  | ret (a : α) : Runs (.ret a) [] a
  | op {o : Op} {k : Resp o → Prog Resp α} {r : Resp o} {tr : List (Σ o, Resp o)} {a : α}
      (h : Runs (k r) tr a) : Runs (.op o k) (⟨o, r⟩ :: tr) a

@[simp] theorem runs_ret_iff {a b : α} {tr : List (Σ o, Resp o)} :
    Runs (.ret a : Prog Resp α) tr b ↔ tr = [] ∧ b = a := by
  constructor
  · rintro ⟨⟩
    exact ⟨rfl, rfl⟩
  · rintro ⟨rfl, rfl⟩
    exact .ret b

theorem runs_op_iff {o : Op} {k : Resp o → Prog Resp α} {tr : List (Σ o, Resp o)} {a : α} :
    Runs (.op o k) tr a ↔ ∃ r tr', tr = ⟨o, r⟩ :: tr' ∧ Runs (k r) tr' a := by
  constructor
  · rintro (⟨⟩ | ⟨h⟩)
    exact ⟨_, _, rfl, h⟩
  · rintro ⟨r, tr', rfl, h⟩
    exact .op h

/-- A run of a composed program is a run of the one and then of the other. -/
theorem runs_bind_iff {p : Prog Resp α} {f : α → Prog Resp β} {tr : List (Σ o, Resp o)} {b : β} :
    Runs (p >>= f) tr b ↔
      ∃ tr₁ tr₂ a, tr = tr₁ ++ tr₂ ∧ Runs p tr₁ a ∧ Runs (f a) tr₂ b := by
  induction p generalizing tr with
  | ret a =>
    rw [ret_bind]
    constructor
    · intro h
      exact ⟨[], tr, a, rfl, .ret a, h⟩
    · rintro ⟨tr₁, tr₂, a', rfl, h₁, h₂⟩
      obtain ⟨rfl, rfl⟩ := runs_ret_iff.mp h₁
      exact h₂
  | op o k ih =>
    rw [op_bind, runs_op_iff]
    constructor
    · rintro ⟨r, tr', rfl, h⟩
      obtain ⟨tr₁, tr₂, a, rfl, h₁, h₂⟩ := (ih r).mp h
      exact ⟨⟨o, r⟩ :: tr₁, tr₂, a, rfl, .op h₁, h₂⟩
    · rintro ⟨tr₁, tr₂, a, rfl, h₁, h₂⟩
      obtain ⟨r, tr', rfl, hk⟩ := runs_op_iff.mp h₁
      exact ⟨r, tr' ++ tr₂, rfl, (ih r).mpr ⟨tr', tr₂, a, rfl, hk, h₂⟩⟩

/-- If every operation can be answered, a program has a run. -/
theorem exists_runs (hanswer : ∀ o, Nonempty (Resp o)) (p : Prog Resp α) : ∃ tr a, Runs p tr a := by
  induction p with
  | ret a => exact ⟨[], a, .ret a⟩
  | op o k ih =>
    obtain ⟨r⟩ := hanswer o
    obtain ⟨tr, a, h⟩ := ih r
    exact ⟨⟨o, r⟩ :: tr, a, .op h⟩

/-! ## Single steps -/

/-- Perform the next operation of a program, if it is this one, with this answer. -/
def advance [DecidableEq Op] : Prog Resp α → (Σ o, Resp o) → Option (Prog Resp α)
  | .ret _, _ => none
  | .op o k, ⟨o', r⟩ => if h : o' = o then some (k (h ▸ r)) else none

theorem advance_eq_some_iff [DecidableEq Op] {p p' : Prog Resp α} {x : Σ o, Resp o} :
    p.advance x = some p' ↔ ∃ k, p = .op x.1 k ∧ p' = k x.2 := by
  obtain ⟨o', r⟩ := x
  cases p with
  | ret a =>
    refine ⟨fun h => absurd h (by simp [advance]), ?_⟩
    rintro ⟨k, hk, -⟩
    exact absurd hk (by simp)
  | op o k =>
    by_cases ho : o' = o
    · subst ho
      simp only [advance, dite_true, Option.some_inj]
      constructor
      · intro h
        exact ⟨k, rfl, h.symm⟩
      · rintro ⟨k', hk, rfl⟩
        rw [eq_of_heq (Prog.op.inj hk).2]
    · simp only [advance, dif_neg ho]
      refine ⟨fun h => absurd h (by simp), ?_⟩
      rintro ⟨k', hk, -⟩
      exact absurd (Prog.op.inj hk).1.symm ho

/-- Let a program run along a trace, and say what it returns if that is all of the trace. -/
def replay [DecidableEq Op] : Prog Resp α → List (Σ o, Resp o) → Option α
  | .ret a, [] => some a
  | .op o k, ⟨o', r⟩ :: tr => if h : o' = o then (k (h ▸ r)).replay tr else none
  | _, _ => none

theorem runs_of_replay [DecidableEq Op] {p : Prog Resp α} {tr : List (Σ o, Resp o)} {a : α}
    (h : p.replay tr = some a) : Runs p tr a := by
  induction p generalizing tr with
  | ret b =>
    cases tr with
    | nil => exact runs_ret_iff.mpr ⟨rfl, (Option.some_inj.mp h).symm⟩
    | cons x tr => cases h
  | op o k ih =>
    cases tr with
    | nil => cases h
    | cons x tr =>
      obtain ⟨o', r⟩ := x
      simp only [replay] at h
      split at h
      case isTrue ho =>
        subst ho
        exact .op (ih r h)
      case isFalse => cases h

/-! ## Protocols -/

/-- A protocol: which operations are allowed, and what they do to the ghost variable. -/
structure Protocol (Resp : Op → Type) (γ : Type) where
  allowed : γ → Op → Prop
  next : γ → (o : Op) → Resp o → γ

/-- The program keeps to the protocol, and ends with `Q`. -/
def Follows (π : Protocol Resp γ) (Q : α → γ → Prop) : γ → Prog Resp α → Prop
  | g, .ret a => Q a g
  | g, .op o k => π.allowed g o ∧ ∀ r, Follows π Q (π.next g o r) (k r)

variable {π : Protocol Resp γ} {Q : α → γ → Prop} {g : γ}

@[simp] theorem follows_ret {a : α} : Follows π Q g (.ret a) ↔ Q a g := Iff.rfl

theorem follows_op {o : Op} {k : Resp o → Prog Resp α} :
    Follows π Q g (.op o k) ↔ π.allowed g o ∧ ∀ r, Follows π Q (π.next g o r) (k r) := Iff.rfl

theorem Follows.mono {Q' : α → γ → Prop} {p : Prog Resp α} (h : Follows π Q g p)
    (hQ : ∀ a g, Q a g → Q' a g) : Follows π Q' g p := by
  induction p generalizing g with
  | ret a => exact hQ a g h
  | op o k ih => exact ⟨h.1, fun r => ih r (h.2 r)⟩

/-- The rule of alternatives. -/
theorem Follows.ite {c : Prop} [Decidable c] {p q : Prog Resp α} (hp : c → Follows π Q g p)
    (hq : ¬ c → Follows π Q g q) : Follows π Q g (if c then p else q) := by
  split_ifs with hc
  · exact hp hc
  · exact hq hc

/-- A single operation keeps a program to its protocol. -/
theorem Follows.advance [DecidableEq Op] {p p' : Prog Resp α} {x : Σ o, Resp o}
    (h : Follows π Q g p) (hp : p.advance x = some p') :
    π.allowed g x.1 ∧ Follows π Q (π.next g x.1 x.2) p' := by
  obtain ⟨k, rfl, rfl⟩ := advance_eq_some_iff.mp hp
  exact ⟨h.1, h.2 x.2⟩

/-- The rule of composition. -/
theorem follows_bind {p : Prog Resp α} {f : α → Prog Resp β} {R : β → γ → Prop} :
    Follows π R g (p >>= f) ↔ Follows π (fun a g => Follows π R g (f a)) g p := by
  induction p generalizing g with
  | ret a => exact Iff.rfl
  | op o k ih =>
    rw [op_bind, follows_op, follows_op]
    exact and_congr_right fun _ => forall_congr' fun r => ih r

/-- In the middle of a run, an operation is allowed, and the rest of the program keeps to the
protocol behind it. -/
theorem Follows.of_runs_append {p : Prog Resp α} {tr₁ tr₂ : List (Σ o, Resp o)} {x : Σ o, Resp o}
    {a : α} (h : Follows π Q g p) (hr : Runs p (tr₁ ++ x :: tr₂) a) :
    ∃ p' g', π.allowed g' x.1 ∧ Follows π Q (π.next g' x.1 x.2) p' ∧ Runs p' tr₂ a := by
  induction tr₁ generalizing p g with
  | nil =>
    cases hr with
    | op hr => exact ⟨_, g, h.1, h.2 _, hr⟩
  | cons y tr₁ ih =>
    cases hr with
    | op hr => exact ih (h.2 _) hr

/-! ## Protocols over the history -/

/-- The protocol whose ghost variable is what has been performed. -/
def after (allowed : List (Σ o, Resp o) → Op → Prop) : Protocol Resp (List (Σ o, Resp o)) :=
  ⟨allowed, fun history o r => history ++ [⟨o, r⟩]⟩

/-- What holds at an operation, of the run up to it. -/
theorem Follows.of_runs_after {allowed : List (Σ o, Resp o) → Op → Prop}
    {Q : α → List (Σ o, Resp o) → Prop} {history : List (Σ o, Resp o)} {p : Prog Resp α}
    {tr₁ tr₂ : List (Σ o, Resp o)} {x : Σ o, Resp o} {a : α}
    (h : Follows (after allowed) Q history p) (hr : Runs p (tr₁ ++ x :: tr₂) a) :
    allowed (history ++ tr₁) x.1 := by
  induction tr₁ generalizing p history with
  | nil =>
    cases hr with
    | op hr =>
      rw [List.append_nil]
      exact h.1
  | cons y tr₁ ih =>
    cases hr with
    | op hr =>
      have hrest := ih (h.2 _) hr
      simpa only [after, List.append_assoc, List.singleton_append] using hrest

/-- What holds at the end, of the whole run. -/
theorem Follows.end_of_runs_after {allowed : List (Σ o, Resp o) → Op → Prop}
    {Q : α → List (Σ o, Resp o) → Prop} {history : List (Σ o, Resp o)} {p : Prog Resp α}
    {tr : List (Σ o, Resp o)} {a : α} (h : Follows (after allowed) Q history p) (hr : Runs p tr a) :
    Q a (history ++ tr) := by
  induction hr generalizing history with
  | ret a =>
    rw [List.append_nil]
    exact h
  | op _ ih =>
    have hrest := ih (h.2 _)
    simpa only [after, List.append_assoc, List.singleton_append] using hrest

/-! ## Programs that perform only certain operations -/

/-- The protocol that allows the operations with a property, and remembers nothing. -/
def only (P : Op → Prop) : Protocol Resp Unit := ⟨fun _ o => P o, fun _ _ _ => ()⟩

/-- Every operation of every run has the property, and the result is as promised. -/
theorem Follows.of_runs {P : Op → Prop} {Q : α → Unit → Prop} {p : Prog Resp α}
    {tr : List (Σ o, Resp o)} {a : α} (h : Follows (only P) Q () p) (hr : Runs p tr a) :
    (∀ x ∈ tr, P x.1) ∧ Q a () := by
  induction hr with
  | ret a => exact ⟨nofun, h⟩
  | op _ ih =>
    obtain ⟨htr, ha⟩ := ih (h.2 _)
    refine ⟨fun x hx => ?_, ha⟩
    rcases List.mem_cons.mp hx with rfl | hx
    · exact h.1
    · exact htr x hx

/-- The history can be forgotten. -/
theorem Follows.only_of_after {P : Op → Prop} {Q : α → List (Σ o, Resp o) → Prop}
    {history : List (Σ o, Resp o)} {p : Prog Resp α} (h : Follows (after fun _ => P) Q history p) :
    Follows (only P) (fun _ _ => True) () p := by
  induction p generalizing history with
  | ret a => trivial
  | op o k ih => exact ⟨h.1, fun r => ih r (h.2 r)⟩

end Prog

end Core
end ForwardProxy
