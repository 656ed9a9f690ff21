import ForwardProxy.Dial.Status

/-!
# When both lookups fail (`finalError`, `dialContextCheckACL`)

If both lookups fail, nothing is dialled, and the race ends with the error of one of them as its
cause: that of the IPv4 lookup, whichever came first.  The status is made from the cause.

So the status says whether the IPv4 lookup timed out, and the error of the IPv6 lookup is only
looked at for being there.  Exchanging the two errors keeps the status exactly if both are timeouts
or neither is (`symmetricFailure_iff`).
-/

namespace ForwardProxy
namespace Dial

open ForwardProxy.Core Acl Serve

/-- Both lookups fail, the one for IPv4 with `e4` and the one for IPv6 with `e6`, and the context
does not end before the race does. -/
structure FailWith (e4 e6 : NetError) (es : List Event) : Prop where
  answers : ∀ isV6 answer, Event.lookupDone isV6 answer ∈ es →
    answer = .error (if isV6 then e6 else e4)
  running : ∀ err, Event.cancel err ∉ es

/-- The status of a result that is an error. -/
def statusOf (res : Option ℕ × Option ServeError) : Option ℕ := res.2.bind ServeError.status

/-- Exchanging the errors of the lookups does not change the status. -/
def SymmetricFailure (h : Handler) (network hostPort : GoString) (e f : NetError) : Prop :=
  ∀ errText upstream now es res now' es' res', FailWith e f es → FailWith f e es' →
    dialContextCheckACL errText upstream h network hostPort now es = some res →
    dialContextCheckACL errText upstream h network hostPort now' es' = some res' →
      statusOf res = statusOf res'

section Failing

variable {c : Config} {now : ℕ} {es : List Event} {s : State} {e4 e6 : NetError}

theorem FailWith.of_append {fs : List Event} (hfail : FailWith e4 e6 (es ++ fs)) :
    FailWith e4 e6 es where
  answers isV6 answer hmem := hfail.answers isV6 answer (List.mem_append_left fs hmem)
  running err hmem := hfail.running err (List.mem_append_left fs hmem)

/-- The context of a race has ended by an event, or by the return of the race. -/
theorem exists_cancel_of_ctxErr (hrun : runFrom (step c) (init now) es = some s) :
    s.ctxErr ≠ none →
      (∃ err, Event.cancel err ∈ es) ∨ ∃ conn err, s.sched = .returned conn err := by
  refine runFrom_history (P := fun es s => s.ctxErr ≠ none → (∃ err, Event.cancel err ∈ es) ∨
    ∃ conn err, s.sched = .returned conn err) (fun hctx => absurd rfl hctx) ?_ hrun
  intro es s e s' _ ih hstep hctx
  have hm := move_of_step hstep
  have old (hctx : s.ctxErr ≠ none) : (∃ err, Event.cancel err ∈ es ++ [e]) ∨
      ∃ conn err, s'.sched = .returned conn err := by
    rcases ih hctx with ⟨err, hmem⟩ | ⟨conn, err, hsched⟩
    · exact Or.inl ⟨err, List.mem_append_left [e] hmem⟩
    · exact Or.inr ⟨conn, err, sched_eq_of_returned hsched hm⟩
  cases hm with
  | cancel err => exact Or.inl ⟨err, List.mem_append_right es List.mem_cons_self⟩
  | advanceEnd | checkCtxDone | selectCtx | discardWinner | returnWinner => exact Or.inr ⟨_, _, rfl⟩
  | selectFailure =>
    rw [shrinkWindow_ctxErr] at hctx
    exact old hctx
  | _ => exact old hctx

/-- Nothing is dialled. -/
theorem FailWith.attempts_eq_nil (hfail : FailWith e4 e6 es)
    (hrun : runFrom (step c) (init now) es = some s) : s.attempts = [] := by
  have hreach : Reaches c s := ⟨now, es, hrun⟩
  rw [← List.map_eq_nil_iff, map_addr_attempts hreach, List.eq_nil_iff_forall_not_mem]
  intro addr haddr
  obtain ⟨isV6, answer, hanswer, hcand⟩ := exists_candidate_of_mem_dials hreach haddr
  rw [hfail.answers isV6 answer (lookupDone_mem hrun isV6 answer hanswer)] at hcand
  exact absurd hcand List.not_mem_nil

/-- Once the feed is closed, both errors are there. -/
theorem FailWith.err_eq (hfail : FailWith e4 e6 es)
    (hrun : runFrom (step c) (init now) es = some s) (hclosed : s.feed.closed = true)
    (isV6 : Bool) : (s.resolver isV6).err = some (if isV6 then e6 else e4) := by
  have hreach : Reaches c s := ⟨now, es, hrun⟩
  obtain ⟨answer, hanswer⟩ := exists_answer hreach isV6
    (done_of_closed hreach hclosed isV6 ▸ ResolverPc.noConfusion)
  rw [Resolver.err_eq_some_iff, hanswer,
    hfail.answers isV6 answer (lookupDone_mem hrun isV6 answer hanswer)]

/-- The race ends with the error of the IPv4 lookup. -/
theorem FailWith.returned {conn : Option ℕ} {err : Option RaceError} (hfail : FailWith e4 e6 es)
    (hrun : runFrom (step c) (init now) es = some s) (hret : s.sched = .returned conn err) :
    conn = none ∧ err = some (.policy (.lookupFailed e4)) := by
  obtain ⟨es₁, u, e, u', es₂, rfl, -, hrun₁, hnot, hstep, hret', -⟩ :=
    exists_endOf (fun _ _ h => by simp [init] at h) hrun hret
  have hreach : Reaches c u := ⟨now, es₁, hrun₁⟩
  have hnil := hfail.of_append.attempts_eq_nil hrun₁
  rcases return_cases hnot (move_of_step hstep) hret' with ⟨-, hconn, herr, hclosed, -⟩ |
    ⟨-, -, x, hx, -⟩ | ⟨k, hsched, -⟩
  · have herr4 := hfail.of_append.err_eq hrun₁ hclosed false
    have herr6 := hfail.of_append.err_eq hrun₁ hclosed true
    exact ⟨hconn, herr.trans (congrArg some (finalError_of_failed hreach hclosed hnil herr4 herr6))⟩
  · have hctx : u.ctxErr ≠ none := hx ▸ Option.some_ne_none x
    rcases exists_cancel_of_ctxErr hrun₁ hctx with ⟨err', hmem⟩ | ⟨conn', err', hsched⟩
    · exact absurd hmem (hfail.of_append.running err')
    · exact absurd hsched (hnot conn' err')
  · exact absurd hsched ((untouched_of_attempts_eq_nil hreach hnil).sched [] k).2

/-- A call that runs the race fails, and its status is that of the IPv4 lookup. -/
theorem FailWith.statusOf_eq {h : Handler} {network hostPort : GoString}
    {errText : NetError → GoString} {upstream : Option ℕ × Option NetError × Option NetError}
    {res : Option ℕ × Option ServeError} (hfail : FailWith e4 e6 es) (hup : h.upstream = none)
    (hadm : admission h network hostPort = .ok c)
    (hres : dialContextCheckACL errText upstream h network hostPort now es = some res) :
    statusOf res = some (if NetError.isTimeout e4 then 504 else 502) := by
  obtain ⟨s, conn, err, hrun, hret, rfl⟩ := (dialContextCheckACL_of_ok hup hadm).mp hres
  obtain ⟨rfl, rfl⟩ := hfail.returned hrun hret
  obtain ⟨text, htext⟩ := status_tcpDialError (.net e4)
  change statusOf (none, some (tcpDialError (.net e4))) = _
  rw [htext]
  rfl

end Failing

theorem failWith_lookupsFail (e f : NetError) : FailWith e f (lookupsFail e f) where
  answers isV6 answer hmem := by
    cases isV6 <;> simpa [lookupsFail] using hmem
  running err hmem := by simp [lookupsFail] at hmem

/-- There is such a call, whatever the errors. -/
theorem exists_result_lookupsFail {h : Handler} {network hostPort : GoString} {c : Config}
    (hup : h.upstream = none) (hadm : admission h network hostPort = .ok c)
    (errText : NetError → GoString) (upstream : Option ℕ × Option NetError × Option NetError)
    (e f : NetError) : ∃ res,
      dialContextCheckACL errText upstream h network hostPort 0 (lookupsFail e f) = some res := by
  have hsched : (runFrom (step c) (init 0) (lookupsFail e f)).map State.sched =
      some (.returned none (some (.policy (.lookupFailed e)))) := rfl
  obtain ⟨s, hrun, hret⟩ := Option.map_eq_some_iff.mp hsched
  exact ⟨_, (dialContextCheckACL_of_ok hup hadm).mpr ⟨s, _, _, hrun, hret, rfl⟩⟩

/-- **Total failure.**  Exchanging the errors of the lookups keeps the status exactly if the call is
refused before it dials, or if both errors are timeouts or neither is. -/
theorem symmetricFailure_iff {h : Handler} (hup : h.upstream = none) (network hostPort : GoString)
    (e f : NetError) : SymmetricFailure h network hostPort e f ↔
      (∃ status, admission h network hostPort = .error status) ∨
        NetError.isTimeout e = NetError.isTimeout f := by
  cases hadm : admission h network hostPort with
  | error status =>
    refine ⟨fun _ => Or.inl ⟨status, rfl⟩, fun _ => ?_⟩
    intro errText upstream now es res now' es' res' _ _ hres hres'
    obtain ⟨text, htext⟩ := dialContextCheckACL_of_error hup hadm
    obtain ⟨text', htext'⟩ := dialContextCheckACL_of_error hup hadm
    rw [← Option.some_inj.mp (htext.symm.trans hres), ← Option.some_inj.mp
      (htext'.symm.trans hres')]
    rfl
  | ok c =>
    constructor
    · intro hsymm
      obtain ⟨res, hres⟩ := exists_result_lookupsFail hup hadm (fun _ => []) (none, none, none) e f
      obtain ⟨res', hres'⟩ :=
        exists_result_lookupsFail hup hadm (fun _ => []) (none, none, none) f e
      have hstatus := hsymm _ _ _ _ _ _ _ _ (failWith_lookupsFail e f) (failWith_lookupsFail f e)
        hres hres'
      rw [(failWith_lookupsFail e f).statusOf_eq hup hadm hres,
        (failWith_lookupsFail f e).statusOf_eq hup hadm hres', Option.some_inj] at hstatus
      refine Or.inr ?_
      revert hstatus
      cases NetError.isTimeout e <;> cases NetError.isTimeout f <;> simp
    · rintro (⟨status, hstatus⟩ | heq)
      · exact absurd hstatus nofun
      · intro errText upstream now es res now' es' res' hfail hfail' hres hres'
        rw [hfail.statusOf_eq hup hadm hres, hfail'.statusOf_eq hup hadm hres', heq]

theorem symmetricFailure_iff_timeouts :
    SymmetricFailure twoFamilies.handler (ascii "tcp") (ascii "target.example:443")
      .deadlineExceeded (.other 0 true) :=
  (symmetricFailure_iff rfl _ _ _ _).mpr (Or.inr rfl)

/-- One lookup times out and the other one fails at once: 504 if it was the one for IPv4 that timed
out, else 502. -/
theorem timeout_of_ip6_dropped :
    dialContextCheckACL (fun _ => []) (none, none, none) twoFamilies.handler (ascii "tcp")
      (ascii "target.example:443") 0 (lookupsFail (.other 0 true) (.other 1 false)) =
        some (none, some (handlerError 504 (ascii "target connection timed out"))) ∧
    dialContextCheckACL (fun _ => []) (none, none, none) twoFamilies.handler (ascii "tcp")
      (ascii "target.example:443") 0 (lookupsFail (.other 1 false) (.other 0 true)) =
        some (none, some (handlerError 502 (ascii "target connection failed"))) ∧
    ¬ ∀ (h : Handler) (network hostPort : GoString) (e f : NetError), h.upstream = none →
      SymmetricFailure h network hostPort e f := by
  have h504 : dialContextCheckACL (fun _ => []) (none, none, none) twoFamilies.handler (ascii "tcp")
      (ascii "target.example:443") 0 (lookupsFail (.other 0 true) (.other 1 false)) =
        some (none, some (handlerError 504 (ascii "target connection timed out"))) := by decide
  have h502 : dialContextCheckACL (fun _ => []) (none, none, none) twoFamilies.handler (ascii "tcp")
      (ascii "target.example:443") 0 (lookupsFail (.other 1 false) (.other 0 true)) =
        some (none, some (handlerError 502 (ascii "target connection failed"))) := by decide
  refine ⟨h504, h502, fun hsymm => ?_⟩
  have hstatus := hsymm twoFamilies.handler (ascii "tcp") (ascii "target.example:443")
    (.other 0 true) (.other 1 false) rfl _ _ _ _ _ _ _ _ (failWith_lookupsFail _ _)
    (failWith_lookupsFail _ _)
    h504 h502
  exact absurd hstatus (by decide)

end Dial
end ForwardProxy
