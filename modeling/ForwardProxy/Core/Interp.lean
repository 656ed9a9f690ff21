import ForwardProxy.Core.Prog

/-!
# Programs on top of programs

An operation of one program can itself be a program over operations of another kind, as a call is to
the function that is called.  `interp f p` puts the two together: each operation of `p` is replaced
by its implementation.

A run of the whole is a run of `p` in which each exchange is spelled out as a run of the
implementation that returns the answer (`runs_interp_iff`).  So what is known of all runs of `p` and
of all runs of the implementations can be used for the runs of the whole, and what an exchange of
the whole trace stands for can be looked up (`Expands.mem`).
-/

namespace ForwardProxy
namespace Core
namespace Prog

variable {Op Op' : Type} {Resp : Op → Type} {Resp' : Op' → Type} {α : Type}

/-- Replace each operation by its implementation. -/
def interp (f : (o : Op) → Prog Resp' (Resp o)) : Prog Resp α → Prog Resp' α
  | .ret a => .ret a
  | .op o k => f o >>= fun r => interp f (k r)

/-- The second trace consists of runs of the implementations, one for each exchange of the first. -/
inductive Expands (f : (o : Op) → Prog Resp' (Resp o)) :
    List (Σ o, Resp o) → List (Σ o, Resp' o) → Prop
  | nil : Expands f [] []
  | cons {x : Σ o, Resp o} {outer : List (Σ o, Resp o)} {piece tr : List (Σ o, Resp' o)}
      (hpiece : Runs (f x.1) piece x.2) (h : Expands f outer tr) :
      Expands f (x :: outer) (piece ++ tr)

variable {f : (o : Op) → Prog Resp' (Resp o)} {outer : List (Σ o, Resp o)}
  {tr : List (Σ o, Resp' o)}

theorem runs_interp_iff {p : Prog Resp α} {a : α} :
    Runs (interp f p) tr a ↔ ∃ outer, Runs p outer a ∧ Expands f outer tr := by
  induction p generalizing tr with
  | ret b =>
    rw [interp, runs_ret_iff]
    constructor
    · rintro ⟨rfl, rfl⟩
      exact ⟨[], .ret a, .nil⟩
    · rintro ⟨outer, hrun, hexpands⟩
      obtain ⟨rfl, rfl⟩ := runs_ret_iff.mp hrun
      cases hexpands
      exact ⟨rfl, rfl⟩
  | op o k ih =>
    rw [interp, runs_bind_iff]
    constructor
    · rintro ⟨piece, rest, r, rfl, hpiece, hrest⟩
      obtain ⟨outer, hrun, hexpands⟩ := (ih r).mp hrest
      exact ⟨⟨o, r⟩ :: outer, .op hrun, .cons hpiece hexpands⟩
    · rintro ⟨outer, hrun, hexpands⟩
      obtain ⟨r, outer', rfl, hrest⟩ := runs_op_iff.mp hrun
      cases hexpands with
      | cons hpiece hexpands =>
        exact ⟨_, _, r, rfl, hpiece, (ih r).mpr ⟨outer', hrest, hexpands⟩⟩

theorem expands_append_iff {outer₁ outer₂ : List (Σ o, Resp o)} :
    Expands f (outer₁ ++ outer₂) tr ↔
      ∃ tr₁ tr₂, tr = tr₁ ++ tr₂ ∧ Expands f outer₁ tr₁ ∧ Expands f outer₂ tr₂ := by
  induction outer₁ generalizing tr with
  | nil =>
    constructor
    · exact fun h => ⟨[], tr, rfl, .nil, h⟩
    · rintro ⟨tr₁, tr₂, rfl, h₁, h₂⟩
      cases h₁
      exact h₂
  | cons x outer₁ ih =>
    constructor
    · intro h
      cases h with
      | cons hpiece h =>
        obtain ⟨tr₁, tr₂, rfl, h₁, h₂⟩ := ih.mp h
        exact ⟨_, tr₂, (List.append_assoc _ _ _).symm, .cons hpiece h₁, h₂⟩
    · rintro ⟨tr₁, tr₂, rfl, h₁, h₂⟩
      cases h₁ with
      | cons hpiece h₁ =>
        rw [List.append_assoc]
        exact .cons hpiece (ih.mpr ⟨_, tr₂, rfl, h₁, h₂⟩)

/-- An exchange of the whole trace belongs to an exchange of the outer one. -/
theorem Expands.mem (h : Expands f outer tr) {y : Σ o, Resp' o} (hy : y ∈ tr) :
    ∃ x ∈ outer, ∃ piece, Runs (f x.1) piece x.2 ∧ y ∈ piece := by
  induction h with
  | nil => exact absurd hy List.not_mem_nil
  | @cons x outer piece tr hpiece _ ih =>
    rcases List.mem_append.mp hy with hy | hy
    · exact ⟨x, List.mem_cons_self, piece, hpiece, hy⟩
    · obtain ⟨x', hx', piece', hpiece', hy'⟩ := ih hy
      exact ⟨x', List.mem_cons_of_mem x hx', piece', hpiece', hy'⟩

/-- Implementations of one operation each only rename the trace. -/
theorem Expands.eq_map {g : (Σ o, Resp o) → Σ o, Resp' o}
    (hf : ∀ (x : Σ o, Resp o) (piece : List (Σ o, Resp' o)), Runs (f x.1) piece x.2 → piece = [g x])
    (h : Expands f outer tr) : tr = outer.map g := by
  induction h with
  | nil => rfl
  | @cons x outer piece tr hpiece _ ih =>
    rw [hf x piece hpiece, ih]
    rfl

/-- What the implementations of allowed operations perform is performed by the whole. -/
theorem Follows.interp {P : Op → Prop} {P' : Op' → Prop} {Q : α → Unit → Prop} {p : Prog Resp α}
    (hf : ∀ o, P o → Follows (only P') (fun _ _ => True) () (f o)) (h : Follows (only P) Q () p) :
    Follows (only P') Q () (interp f p) := by
  induction p with
  | ret a => exact h
  | op o k ih =>
    rw [Prog.interp, follows_bind]
    exact (hf o h.1).mono fun r _ _ => ih r (h.2 r)

end Prog
end Core
end ForwardProxy
