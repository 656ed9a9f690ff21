import ForwardProxy.Serve.Release

/-!
# What becomes of the response

A `http.ResponseWriter` takes a response in a fixed order.  The header may be changed until a status
is written, and what is changed later is lost; the first status counts, and a second one is only
complained about; behind a `Hijack` the writer is not to be touched.  A status that only informs,
such as 100, goes out at once and decides nothing.  If the handler returns without an error and
nothing was written, the server answers with an empty 200, and if it returns an error, the server
makes a response from the status of that error.

`Reply` is this machine, run along what `ServeHTTP` does.  The code gets the order right on every
path, with one repetition that does no harm (for HTTP/1, `serveHijack` writes the status 200 that
was written before), and it never leaves the response to the server by accident, with one exception:
it forwards a status that only informs as if it were the answer.  `http.ReadResponse`, which reads
from the connection of an upstream, does not skip such responses.  The client then gets an empty
200.

## Main results

* `reply_discipline`: every operation on the writer is in order, and how each run ends.
-/

namespace ForwardProxy
namespace Serve

open ForwardProxy.Core Prog

/-! ## The writer -/

/-- What has gone out over the response writer. -/
inductive Reply where
  | unsent
  /-- The header has gone out, with this status. -/
  | begun (status : ℕ)
  /-- The connection was taken over; the status that had gone out before, if any. -/
  | hijacked (told : Option ℕ)
  /-- Another handler answers. -/
  | handedOn
  deriving DecidableEq, Repr

/-- A status is written; `informs` says which ones only inform. -/
def Reply.write (informs : ℕ → Bool) (status : ℕ) : Reply → Reply
  | .unsent => if informs status then .unsent else .begun status
  | reply => reply

/-- The connection is taken over. -/
def Reply.hijack : Reply → Reply
  | .begun status => .hijacked (some status)
  | _ => .hijacked none

/-- What an operation does to the response.  A response that only informs has no body, so that
copying it writes nothing. -/
def Reply.effect (informs : ℕ → Bool) (reply : Reply) : Exchange → Reply
  | ⟨.writeHeader status, _⟩ => reply.write informs status
  | ⟨.write _, _⟩ => reply.write informs 200
  | ⟨.hijack, none⟩ => reply.hijack
  | ⟨.next _, _⟩ => .handedOn
  | ⟨.serveConnectUDP _, _⟩ => .handedOn
  | _ => reply

/-- What has gone out in a run. -/
def replyAfter (informs : ℕ → Bool) (tr : List Exchange) : Reply :=
  tr.foldl (Reply.effect informs) .unsent

/-- The operations that are in order for a request. -/
def Reply.Allows (r : Request) (reply : Reply) : Op → Prop
  | .responseHeader => reply = .unsent
  | .setResponseHeader _ => reply = .unsent
  | .writeHeader status =>
    reply = .unsent ∨ r.method = ascii "CONNECT" ∧ status = 200 ∧ reply = .begun 200
  | .write _ => reply = .unsent ∨ reply = .begun 407
  | .copyResponseBody => reply = .unsent ∨ ∃ status, reply = .begun status
  | .flush => reply = .begun 200
  | .hijack => reply = .begun 200
  | .buffered => reply = .hijacked (some 200)
  | .writeTarget _ _ => reply = .hijacked (some 200)
  | .flushClient => reply = .hijacked (some 200)
  | .closeClient => reply = .hijacked (some 200)
  | .dualStream _ _ => reply = .begun 200 ∨ reply = .hijacked (some 200)
  | .next _ => reply = .unsent
  | .serveConnectUDP _ => reply = .unsent
  | _ => True

section Writer

variable {informs : ℕ → Bool} {history : List Exchange}

theorem replyAfter_concat (history : List Exchange) (x : Exchange) :
    replyAfter informs (history ++ [x]) = (replyAfter informs history).effect informs x := by
  rw [replyAfter, List.foldl_append]
  rfl

/-- The operations that leave the response alone. -/
def Silent : Op → Prop
  | .writeHeader _ | .write _ | .hijack | .next _ | .serveConnectUDP _ => False
  | _ => True

theorem replyAfter_of_silent {o : Op} (ho : Silent o) (answer : Resp o) :
    replyAfter informs (history ++ [⟨o, answer⟩]) = replyAfter informs history := by
  rw [replyAfter_concat]
  cases o <;> first | exact absurd ho id | rfl

/-- The first status that does not only inform goes out. -/
theorem replyAfter_writeHeader {status : ℕ} (hunsent : replyAfter informs history = .unsent)
    (hfinal : informs status = false) :
    replyAfter informs (history ++ [⟨.writeHeader status, ()⟩]) = .begun status := by
  rw [replyAfter_concat, hunsent, Reply.effect, Reply.write, hfinal]
  rfl

theorem replyAfter_write (data : GoString) (hunsent : replyAfter informs history = .unsent)
    (hfinal : informs 200 = false) :
    replyAfter informs (history ++ [⟨.write data, ()⟩]) = .begun 200 := by
  rw [replyAfter_concat, hunsent, Reply.effect, Reply.write, hfinal]
  rfl

/-- Once a status has gone out, another one changes nothing. -/
theorem replyAfter_writeHeader_of_begun {status : ℕ} (code : ℕ)
    (hbegun : replyAfter informs history = .begun status) :
    replyAfter informs (history ++ [⟨.writeHeader code, ()⟩]) = .begun status := by
  rw [replyAfter_concat, hbegun]
  rfl

theorem replyAfter_write_of_begun {status : ℕ} (data : GoString)
    (hbegun : replyAfter informs history = .begun status) :
    replyAfter informs (history ++ [⟨.write data, ()⟩]) = .begun status := by
  rw [replyAfter_concat, hbegun]
  rfl

theorem replyAfter_hijack {status : ℕ} (hbegun : replyAfter informs history = .begun status) :
    replyAfter informs (history ++ [⟨.hijack, none⟩]) = .hijacked (some status) := by
  rw [replyAfter_concat, hbegun]
  rfl

end Writer

/-! ## How a run ends -/

/-- The response arrived from the transport or from a connection. -/
def Arrived (response : Response) (tr : List Exchange) : Prop :=
  (∃ req err, ⟨.roundTrip req, (some response, err)⟩ ∈ tr) ∨
    ∃ conn, ⟨.readResponse conn, .ok response⟩ ∈ tr

/-- A response that had arrived was forwarded: its status was written, and then its body was copied,
with this error. -/
def Forwards (response : Response) (err : Option ServeError) (tr : List Exchange) : Prop :=
  ∃ before behind, tr = before ++
    ⟨.writeHeader response.statusCode, ()⟩ :: ⟨.copyResponseBody, err⟩ :: behind ∧
    Arrived response before

/-- The run ended with the hidden page for a client that did not authenticate itself. -/
def HidesPage (err : ServeError) (tr : List Exchange) : Prop :=
  ∃ before, tr = before ++
    [⟨.writeHeader 407, ()⟩, ⟨.write (hiddenPage (hiddenPageText (some err))), ()⟩]

/-- What can be said of the response at the end. -/
structure Ends (informs : ℕ → Bool) (h : Handler) (r : Request) (tr : List Exchange)
    (outcome : Outcome) : Prop where
  /-- The server is left to answer without an error only if a response that informs was
  forwarded. -/
  silent : outcome = .ok none → replyAfter informs tr = .unsent →
    ∃ response, informs response.statusCode = true ∧ Forwards response none tr
  /-- An error for which the server is to answer has a status, or it is that of copying the body of
  a response that informs, or one that dialling returned. -/
  failed : ∀ err, outcome = .ok (some err) → replyAfter informs tr = .unsent →
    err.status.isSome = true ∨
      (∃ response, informs response.statusCode = true ∧ Forwards response (some err) tr) ∨
      ∃ network hostPort ctxHeader conn,
        ⟨.dialContextCheckACL network hostPort ctxHeader, (conn, some err)⟩ ∈ tr
  /-- An error that comes too late for a status is that of the hidden page, of a tunnel, or of a
  response whose body could not be copied. -/
  late : ∀ err status, outcome = .ok (some err) → replyAfter informs tr = .begun status →
    (status = 407 ∧ ForHiddenPage h r ∧ HidesPage err tr) ∨
      (status = 200 ∧ r.method = ascii "CONNECT") ∨
      ∃ response, status = response.statusCode ∧ Forwards response (some err) tr

section Ends

variable {informs : ℕ → Bool} {h : Handler} {r : Request} {tr : List Exchange}

/-- A panic. -/
theorem Ends.panics (panic : Panic) : Ends informs h r tr (.error panic) :=
  ⟨nofun, nofun, nofun⟩

/-- An error before anything went out: it has a status, or dialling returned it. -/
theorem Ends.unsent {err : ServeError} (hunsent : replyAfter informs tr = .unsent)
    (hfailed : err.status.isSome = true ∨ ∃ network hostPort ctxHeader conn,
      ⟨.dialContextCheckACL network hostPort ctxHeader, (conn, some err)⟩ ∈ tr) :
    Ends informs h r tr (.ok (some err)) := by
  refine ⟨nofun, fun err' he _ => ?_, fun _ _ _ hbegun => ?_⟩
  · obtain rfl := Option.some_inj.mp (Except.ok.inj he)
    rcases hfailed with hstatus | hdial
    · exact .inl hstatus
    · exact .inr (.inr hdial)
  · exact absurd (hunsent.symm.trans hbegun) nofun

theorem Ends.refused {err : ServeError} (hunsent : replyAfter informs tr = .unsent)
    (herr : err.status.isSome = true) : Ends informs h r tr (.ok (some err)) :=
  .unsent hunsent (.inl herr)

theorem Ends.dialFailed {network hostPort : GoString} {ctxHeader : Option Header} {conn : Option ℕ}
    {err : ServeError} (hunsent : replyAfter informs tr = .unsent)
    (hmem : ⟨.dialContextCheckACL network hostPort ctxHeader, (conn, some err)⟩ ∈ tr) :
    Ends informs h r tr (.ok (some err)) :=
  .unsent hunsent (.inr ⟨network, hostPort, ctxHeader, conn, hmem⟩)

/-- The client is answered by another handler, or over its connection. -/
theorem Ends.elsewhere (err : Option ServeError)
    (hreply : (∃ told, replyAfter informs tr = .hijacked told) ∨
      replyAfter informs tr = .handedOn) :
    Ends informs h r tr (.ok err) := by
  have hunsent : replyAfter informs tr ≠ .unsent := by
    rcases hreply with ⟨told, hreply⟩ | hreply <;> simp [hreply]
  have hbegun : ∀ status, replyAfter informs tr ≠ .begun status := by
    rcases hreply with ⟨told, hreply⟩ | hreply <;> simp [hreply]
  exact ⟨fun _ h => absurd h hunsent, fun _ _ h => absurd h hunsent,
    fun _ status _ h => absurd h (hbegun status)⟩

/-- A page was written, and there is no error. -/
theorem Ends.page {status : ℕ} (hreply : replyAfter informs tr = .begun status) :
    Ends informs h r tr (.ok none) :=
  ⟨fun _ hunsent => absurd (hreply.symm.trans hunsent) nofun, nofun, nofun⟩

/-- A status went out, and if there is an error it is one of those that may come late. -/
theorem Ends.begun {status : ℕ} {err : ServeError} (hreply : replyAfter informs tr = .begun status)
    (hlate : (status = 407 ∧ ForHiddenPage h r ∧ HidesPage err tr) ∨
      (status = 200 ∧ r.method = ascii "CONNECT")) : Ends informs h r tr (.ok (some err)) := by
  refine ⟨nofun, fun _ _ hunsent => absurd (hreply.symm.trans hunsent) nofun, ?_⟩
  intro err' status' he hreply'
  obtain rfl := Option.some_inj.mp (Except.ok.inj he)
  obtain rfl := Reply.begun.inj (hreply.symm.trans hreply')
  rcases hlate with hpage | htunnel
  · exact .inl hpage
  · exact .inr (.inl htunnel)

/-- A response was forwarded. -/
theorem Ends.forwarded {response : Response} {err : Option ServeError}
    (hforwards : Forwards response err tr)
    (hreply : (informs response.statusCode = true ∧ replyAfter informs tr = .unsent) ∨
      replyAfter informs tr = .begun response.statusCode) : Ends informs h r tr (.ok err) := by
  have hinformed : replyAfter informs tr = .unsent → informs response.statusCode = true := by
    intro hunsent
    rcases hreply with hinformed | hbegun
    · exact hinformed.1
    · exact absurd (hbegun.symm.trans hunsent) nofun
  refine ⟨fun he hunsent => ?_, fun e he hunsent => ?_, fun e status he hbegun => ?_⟩
  · obtain rfl := Except.ok.inj he
    exact ⟨response, hinformed hunsent, hforwards⟩
  · obtain rfl := Except.ok.inj he
    exact .inr (.inl ⟨response, hinformed hunsent, hforwards⟩)
  · obtain rfl := Except.ok.inj he
    refine .inr (.inr ⟨response, ?_, hforwards⟩)
    rcases hreply with ⟨-, hunsent⟩ | hbegun'
    · exact absurd (hunsent.symm.trans hbegun) nofun
    · exact Reply.begun.inj (hbegun.symm.trans hbegun')

end Ends

/-! ## The parts of `ServeHTTP` -/

section Parts

variable (informs : ℕ → Bool)

/-- The program keeps the order, from this history on. -/
abbrev Orderly {α : Type} (r : Request) (Q : α → List Exchange → Prop) (history : List Exchange)
    (p : Prog Resp α) : Prop :=
  Follows (after fun history o => (replyAfter informs history).Allows r o) Q history p

/-- Nothing has gone out. -/
def Unsent (history : List Exchange) : Prop := replyAfter informs history = .unsent

variable {informs} {history : List Exchange} {h : Handler} {r : Request}

theorem Unsent.concat {o : Op} (hunsent : Unsent informs history) (ho : Silent o)
    (answer : Resp o) : Unsent informs (history ++ [⟨o, answer⟩]) :=
  (replyAfter_of_silent ho answer).trans hunsent

theorem orderly_modifyResponseHeader (f : Header → Header) (hunsent : Unsent informs history) :
    Orderly informs r (fun _ tr => Unsent informs tr ∧ history <+: tr) history
      (modifyResponseHeader f) := by
  refine ⟨hunsent, fun header => ?_⟩
  have hread := hunsent.concat (o := .responseHeader) trivial header
  refine ⟨hread,
    fun answer => ⟨hread.concat (o := .setResponseHeader (f header)) trivial answer, ?_⟩⟩
  exact (List.prefix_append _ _).trans (List.prefix_append _ _)

variable (informs) in
/-- Behind the gate: the run ends there, or nothing has gone out. -/
def AtGate (h : Handler) (r : Request) : Option (Option ServeError) → List Exchange → Prop
  | some err, tr => Ends informs h r tr (.ok err)
  | none, tr => Unsent informs tr

variable (hinforms : informs 200 = false ∧ informs 407 = false)
include hinforms

theorem orderly_serveHiddenPage (authErr : Option ServeError) (hhidden : ForHiddenPage h r)
    (hunsent : Unsent informs history) :
    Orderly informs r (fun err tr => Ends informs h r tr (.ok err)) history
      (serveHiddenPage authErr) := by
  refine follows_bind.mpr ((orderly_modifyResponseHeader _ hunsent).mono ?_)
  rintro ⟨⟩ tr₁ ⟨h₁, -⟩
  cases authErr with
  | none => exact ⟨.inl h₁, fun answer => .page (replyAfter_write _ h₁ hinforms.1)⟩
  | some err =>
    show Orderly informs r _ tr₁ (modifyResponseHeader _ >>= _)
    refine follows_bind.mpr ((orderly_modifyResponseHeader _ h₁).mono ?_)
    rintro ⟨⟩ tr₂ ⟨h₂, -⟩
    have hbegun := replyAfter_writeHeader h₂ hinforms.2
    refine ⟨.inl h₂, fun _ => ⟨.inr hbegun, fun _ => ?_⟩⟩
    refine .begun (replyAfter_write_of_begun _ hbegun) (.inl ⟨rfl, hhidden, tr₂, ?_⟩)
    exact List.append_assoc ..

omit hinforms in
/-- The next handler answers. -/
theorem orderly_next (hunsent : Unsent informs history) :
    Orderly informs r (AtGate informs h r) history (do return some (← perform (Op.next r))) := by
  refine ⟨hunsent, fun err => .elsewhere err (.inr ?_)⟩
  exact replyAfter_concat history ⟨.next r, err⟩

theorem orderly_gate {hostsMatch : Request → Bool} (authErr : Option ServeError)
    (hunsent : Unsent informs history) :
    Orderly informs r (AtGate informs h r) history (gate hostsMatch h r authErr) := by
  unfold gate
  refine Follows.ite (fun hhidden => ?_) fun _ => Follows.ite (fun _ => ?_) fun _ => ?_
  · exact follows_bind.mpr (orderly_serveHiddenPage hinforms authErr hhidden hunsent)
  · refine Follows.ite (fun _ => ?_) fun _ => orderly_next hunsent
    exact ⟨.inl hunsent, fun _ => .page (replyAfter_write _ hunsent hinforms.1)⟩
  · cases authErr with
    | none => exact Follows.ite (fun _ => .refused hunsent rfl) fun _ => hunsent
    | some err =>
      refine Follows.ite (fun _ => orderly_next hunsent) fun _ => ?_
      refine follows_bind.mpr ((orderly_modifyResponseHeader _ hunsent).mono ?_)
      exact fun _ _ h₁ => .refused h₁.1 rfl

/-! ### CONNECT -/

omit hinforms in
theorem orderly_setNaivePaddingResponseHeaders (request : Header) (paddingType : PaddingVariant)
    (hunsent : Unsent informs history) :
    Orderly informs r (fun _ tr => Unsent informs tr) history
      (setNaivePaddingResponseHeaders request paddingType) := by
  refine ⟨trivial, fun n => ⟨trivial, fun bits => ?_⟩⟩
  have hrandom := (hunsent.concat (o := .randIntn 32) trivial n).concat
    (o := .randUint64) trivial bits
  show Orderly informs r _ _ (modifyResponseHeader _ >>= _)
  refine follows_bind.mpr ((orderly_modifyResponseHeader _ hrandom).mono ?_)
  rintro ⟨⟩ tr ⟨h₁, -⟩
  refine Follows.ite (fun _ => ?_) fun _ => h₁
  exact (orderly_modifyResponseHeader _ h₁).mono fun _ _ h₂ => h₂.1

variable (informs) in
/-- A CONNECT has been confirmed, and the client is spoken to over the writer or over its
connection. -/
def Confirmed (tr : List Exchange) : Prop :=
  replyAfter informs tr = .begun 200 ∨ replyAfter informs tr = .hijacked (some 200)

omit hinforms in
theorem Confirmed.concat {o : Op} (hconfirmed : Confirmed informs history) (ho : Silent o)
    (answer : Resp o) : Confirmed informs (history ++ [⟨o, answer⟩]) := by
  rw [Confirmed, replyAfter_of_silent ho answer]
  exact hconfirmed

/-- What is done over a hijacked connection. -/
def OverConnection : Op → Prop
  | .buffered | .writeTarget _ _ | .flushClient | .closeClient | .dualStream _ _ => True
  | _ => False

omit hinforms in
/-- A hijacked connection stays one, and what is done over it is in order. -/
theorem orderly_of_only {α : Type} {Q : α → Unit → Prop} {p : Prog Resp α}
    (hp : Follows (only OverConnection) Q () p)
    (hhijacked : replyAfter informs history = .hijacked (some 200)) :
    Orderly informs r (fun _ tr => replyAfter informs tr = .hijacked (some 200)) history p := by
  induction p generalizing history with
  | ret a => exact hhijacked
  | op o k ih =>
    have hsilent : Silent o := by
      have ho := hp.1
      cases o <;> first | exact absurd ho id | trivial
    refine ⟨?_, fun answer => ih answer (hp.2 answer)
      ((replyAfter_of_silent hsilent answer).trans hhijacked)⟩
    have ho := hp.1
    cases o <;> first | exact absurd ho id | exact hhijacked | exact .inr hhijacked

omit hinforms in
/-- For HTTP/1 the status is written again, which changes nothing. -/
theorem orderly_serveHijack (hmethod : r.method = ascii "CONNECT") (targetConn : ℕ)
    (hbegun : replyAfter informs history = .begun 200) :
    Orderly informs r (fun _ tr => Confirmed informs tr) history (serveHijack targetConn) := by
  have hagain := replyAfter_writeHeader_of_begun 200 hbegun
  refine ⟨.inr ⟨hmethod, rfl, hbegun⟩, fun _ => ⟨hagain, ?_⟩⟩
  rintro (_ | err)
  swap
  · exact .inl ((replyAfter_concat _ _).trans hagain)
  -- from here on the client is spoken to over its own connection
  refine Follows.mono (orderly_of_only (Q := fun _ _ => True) ?_ (replyAfter_hijack hagain))
    fun _ _ htr => .inr htr
  refine ⟨trivial, fun rbuf => ?_⟩
  refine Follows.ite (fun _ => ⟨trivial, fun _ => ⟨trivial, ?_⟩⟩) fun _ => ⟨trivial, ?_⟩
  · rintro (_ | err)
    · exact ⟨trivial, fun _ => ⟨trivial, fun _ => trivial⟩⟩
    · exact ⟨trivial, fun _ => trivial⟩
  · rintro (_ | err)
    · exact ⟨trivial, fun _ => ⟨trivial, fun _ => trivial⟩⟩
    · exact ⟨trivial, fun _ => trivial⟩

theorem orderly_serveTunnel (hmethod : r.method = ascii "CONNECT") (paddingType : PaddingVariant)
    (targetConn : ℕ) (hunsent : Unsent informs history) :
    Orderly informs r (fun _ tr => Confirmed informs tr) history
      (serveTunnel r paddingType targetConn) := by
  have hbegun := replyAfter_writeHeader hunsent hinforms.1
  refine ⟨.inl hunsent, fun _ => ⟨hbegun, fun err => ?_⟩⟩
  have hbegun' := (replyAfter_of_silent (o := .flush) trivial err).trans hbegun
  have hflush : Confirmed informs (history ++ [⟨.writeHeader 200, ()⟩] ++ [⟨.flush, err⟩]) :=
    .inl hbegun'
  cases err with
  | some err => exact hflush
  | none =>
    refine Follows.ite (fun _ => ?_) fun _ => Follows.ite (fun _ => hflush) fun _ => ?_
    · exact follows_bind.mpr (orderly_serveHijack hmethod targetConn hbegun')
    · refine ⟨.inl hbegun', fun answer => ⟨trivial, fun closed => ?_⟩⟩
      exact (hflush.concat (o := .dualStream targetConn _) trivial answer).concat (o := .closeBody)
        trivial closed

omit hinforms in
/-- However the tunnel went, the client was told 200. -/
theorem ends_of_confirmed (hmethod : r.method = ascii "CONNECT") (outcome : Outcome)
    (hconfirmed : Confirmed informs history) : Ends informs h r history outcome := by
  rcases outcome with panic | err
  · exact .panics panic
  rcases hconfirmed with hbegun | hhijacked
  · rcases err with _ | err
    · exact .page hbegun
    · exact .begun hbegun (.inr ⟨rfl, hmethod⟩)
  · exact .elsewhere err (.inl ⟨_, hhijacked⟩)

theorem orderly_serveConnect (hmethod : r.method = ascii "CONNECT") (ctxHeader : Option Header)
    (hunsent : Unsent informs history) :
    Orderly informs r (fun outcome tr => Ends informs h r tr outcome) history
      (serveConnect r ctxHeader) := by
  unfold serveConnect
  cases negotiateNaivePadding r.header with
  | error text => exact .refused hunsent rfl
  | ok paddingType =>
    refine follows_bind.mpr
      ((orderly_setNaivePaddingResponseHeaders r.header paddingType hunsent).mono ?_)
    rintro ⟨⟩ tr htr
    refine Follows.ite (fun _ => ?_) fun _ => Follows.ite (fun _ => .refused htr rfl) fun _ =>
      Follows.ite (fun _ => .refused htr rfl) fun _ => ⟨trivial, ?_⟩
    · refine ⟨htr, fun err => .elsewhere err (.inr ?_)⟩
      exact replyAfter_concat tr ⟨.serveConnectUDP r, err⟩
    · rintro ⟨conn, err⟩
      have hdialled := htr.concat (o := .dialContextCheckACL (ascii "tcp")
        (if r.url.host = [] then r.host else r.url.host) ctxHeader) trivial (conn, err)
      rcases err with _ | err
      · rcases conn with _ | conn
        · exact .refused hdialled rfl
        · show Orderly informs r _ _ (serveTunnel r paddingType conn >>= _)
          refine follows_bind.mpr
            ((orderly_serveTunnel hinforms hmethod paddingType conn hdialled).mono ?_)
          intro outcome tr' hconfirmed
          refine ⟨trivial, fun _ => ?_⟩
          exact ends_of_confirmed hmethod outcome
            (hconfirmed.concat (o := .closeConn conn) trivial ())
      · rcases conn with _ | conn
        · exact Ends.dialFailed hdialled List.mem_concat_self
        · exact Ends.dialFailed hdialled List.mem_concat_self

/-! ### Other requests -/

variable (informs) in
/-- Behind the sending: the run ends there, or nothing has gone out and the response has arrived. -/
def AtSent (h : Handler) (r : Request) (res : Request × Sent) (tr : List Exchange) : Prop :=
  match res.2 with
  | .error outcome => Ends informs h r tr outcome
  | .ok (response, _) =>
    Unsent informs tr ∧ ∀ response', response = some response' → Arrived response' tr

omit hinforms in
theorem atSent_roundTrip (r' req : Request) (hunsent : Unsent informs history)
    (answer : Option Response × Option ServeError) :
    AtSent informs h r (r', .ok answer) (history ++ [⟨.roundTrip req, answer⟩]) := by
  refine ⟨hunsent.concat (o := .roundTrip req) trivial answer, ?_⟩
  intro response hresponse
  refine .inl ⟨req, answer.2, ?_⟩
  rw [← hresponse]
  exact List.mem_concat_self

omit hinforms in
theorem orderly_sendDirect (r' : Request) (hunsent : Unsent informs history) :
    Orderly informs r (AtSent informs h r) history (sendDirect r') := by
  unfold sendDirect
  refine Follows.ite (fun _ => ⟨trivial, fun answer => ?_⟩) fun _ => ?_
  · have hread := hunsent.concat (o := .readBody) trivial answer
    cases answer with
    | error err => exact Ends.refused hread rfl
    | ok data => exact ⟨trivial, fun answer => atSent_roundTrip _ _ hread answer⟩
  · exact ⟨trivial, fun answer => atSent_roundTrip _ _ hunsent answer⟩

omit hinforms in
theorem orderly_sendUpstream (upstream : Upstream) (hostErr : Option ServeError)
    (ctxHeader : Option Header) (r' : Request) (hunsent : Unsent informs history) :
    Orderly informs r (AtSent informs h r) history
      (sendUpstream upstream hostErr ctxHeader r') := by
  unfold sendUpstream
  refine ⟨trivial, ?_⟩
  rintro ⟨conn, err⟩
  have hdialled := hunsent.concat (o := .dialContext (ascii "tcp")
    (withPort (withCredentials (Userinfo.string upstream.user) r')).url.host ctxHeader) trivial
    (conn, err)
  rcases err with _ | err
  swap
  · rcases conn with _ | conn
    · exact Ends.refused hdialled rfl
    · exact Ends.refused hdialled rfl
  rcases conn with _ | conn
  · exact Ends.panics _
  refine ⟨trivial, fun err => ?_⟩
  have hwritten := hdialled.concat (o := .writeRequest conn
    (withPort (withCredentials (Userinfo.string upstream.user) r'))) trivial err
  rcases err with _ | err
  swap
  · exact Ends.refused hwritten rfl
  refine ⟨trivial, fun answer => ?_⟩
  have hread := hwritten.concat (o := .readResponse conn) trivial answer
  rcases answer with err | response
  · exact Ends.refused hread rfl
  · refine ⟨hread, fun response' hresponse => .inr ⟨conn, ?_⟩⟩
    rw [← Option.some_inj.mp hresponse]
    exact List.mem_concat_self

omit hinforms in
theorem Arrived.mono {response : Response} {tr tr' : List Exchange} (harrived : Arrived response tr)
    (hsub : tr <+: tr') : Arrived response tr' := by
  rcases harrived with ⟨req, err, hmem⟩ | ⟨conn, hmem⟩
  · exact .inl ⟨req, err, hsub.subset hmem⟩
  · exact .inr ⟨conn, hsub.subset hmem⟩

omit hinforms in
theorem Forwards.append {response : Response} {err : Option ServeError} {tr : List Exchange}
    (hforwards : Forwards response err tr) (more : List Exchange) :
    Forwards response err (tr ++ more) := by
  obtain ⟨before, behind, rfl, harrived⟩ := hforwards
  exact ⟨before, behind ++ more, by simp, harrived⟩

variable (informs) in
/-- What has gone out of a response that was forwarded. -/
def Answered (response : Response) (tr : List Exchange) : Prop :=
  (informs response.statusCode = true ∧ replyAfter informs tr = .unsent) ∨
    replyAfter informs tr = .begun response.statusCode

omit hinforms in
theorem answered_writeHeader {response : Response} (hunsent : Unsent informs history) :
    Answered informs response (history ++ [⟨.writeHeader response.statusCode, ()⟩]) := by
  cases hinforms : informs response.statusCode with
  | false => exact .inr (replyAfter_writeHeader hunsent hinforms)
  | true =>
    refine .inl ⟨hinforms, ?_⟩
    rw [replyAfter_concat, hunsent, Reply.effect, Reply.write, hinforms]
    rfl

omit hinforms in
theorem Answered.concat {response : Response} {o : Op}
    (hanswered : Answered informs response history) (ho : Silent o) (answer : Resp o) :
    Answered informs response (history ++ [⟨o, answer⟩]) := by
  rw [Answered, replyAfter_of_silent ho answer]
  exact hanswered

omit hinforms in
theorem orderly_forwardResponse {response : Response} (hunsent : Unsent informs history)
    (harrived : Arrived response history) :
    Orderly informs r
      (fun err tr => Forwards response err tr ∧ Answered informs response tr) history
      (forwardResponse response) := by
  refine follows_bind.mpr ((orderly_modifyResponseHeader _ hunsent).mono ?_)
  rintro ⟨⟩ tr₁ ⟨h₁, hsub₁⟩
  refine follows_bind.mpr ((orderly_modifyResponseHeader _ h₁).mono ?_)
  rintro ⟨⟩ tr₂ ⟨h₂, hsub₂⟩
  refine follows_bind.mpr ((orderly_modifyResponseHeader _ h₂).mono ?_)
  rintro ⟨⟩ tr₃ ⟨h₃, hsub₃⟩
  refine follows_bind.mpr ((orderly_modifyResponseHeader _ h₃).mono ?_)
  rintro ⟨⟩ tr₄ ⟨h₄, hsub₄⟩
  have harrived₄ := (((harrived.mono hsub₁).mono hsub₂).mono hsub₃).mono hsub₄
  have hanswered : Answered informs response _ := answered_writeHeader h₄
  refine ⟨.inl h₄, fun _ => ⟨hanswered.imp And.right fun hbegun => ⟨_, hbegun⟩,
    fun err => ⟨?_, ?_⟩⟩⟩
  · exact ⟨tr₄, [], List.append_assoc .., harrived₄⟩
  · exact hanswered.concat (o := .copyResponseBody) trivial err

omit hinforms in
/-- `finish` behind a body that is closed. -/
theorem orderly_answer (r' : Request) {response : Option Response} (err : Option ServeError)
    (hunsent : Unsent informs history)
    (harrived : ∀ response', response = some response' → Arrived response' history)
    (hclose : closeBody r' = .ret (.ok none)) :
    Orderly informs r (fun outcome tr => Ends informs h r tr outcome) history
      (finish r' response err) := by
  unfold finish
  rw [hclose, ret_bind]
  rcases err with _ | err
  · rcases response with _ | response
    · exact Ends.panics _
    · show Orderly informs r _ history (forwardResponse response >>= _)
      refine follows_bind.mpr ((orderly_forwardResponse hunsent (harrived response rfl)).mono ?_)
      rintro err tr ⟨hforwards, hanswered⟩
      refine ⟨trivial, fun _ => Ends.forwarded (hforwards.append _) ?_⟩
      exact hanswered.concat (o := .closeResponseBody) trivial ()
  · have hstatus :
        (if err.status.isSome then err
          else handlerError 502 (ascii "failed to read response: " ++ err.text)).status.isSome =
        true := by
      split_ifs with hsome
      · exact hsome
      · rfl
    rcases response with _ | response
    · exact Ends.refused hunsent hstatus
    · refine ⟨trivial, fun _ => Ends.refused ?_ hstatus⟩
      exact hunsent.concat (o := .closeResponseBody) trivial ()

omit hinforms in
theorem orderly_finish (r' : Request) {response : Option Response} (err : Option ServeError)
    (hunsent : Unsent informs history)
    (harrived : ∀ response', response = some response' → Arrived response' history) :
    Orderly informs r (fun outcome tr => Ends informs h r tr outcome) history
      (finish r' response err) := by
  cases hbody : r'.body with
  | absent =>
    unfold finish closeBody
    rw [hbody]
    exact Ends.panics _
  | buffered data => exact orderly_answer r' err hunsent harrived (by rw [closeBody, hbody]; rfl)
  | stream =>
    unfold finish closeBody
    rw [hbody]
    refine ⟨trivial, fun answer => ?_⟩
    have hclosed := hunsent.concat (o := .closeBody) trivial answer
    rcases answer with _ | cerr
    · -- from here on the body is one that needs no closing
      exact orderly_answer { r' with body := .buffered [] } err hclosed
        (fun response' hresponse => (harrived response' hresponse).mono
          (List.prefix_append _ _)) rfl
    · exact Ends.refused hclosed rfl

omit hinforms in
theorem orderly_servePlain (hostErr : Option ServeError) (ctxHeader : Option Header)
    (hunsent : Unsent informs history) :
    Orderly informs r (fun res tr => Ends informs h r tr res.2) history
      (servePlain h hostErr ctxHeader r) := by
  have hsend : Orderly informs r (AtSent informs h r) history (send h hostErr ctxHeader r) := by
    unfold send
    cases h.upstream with
    | none => exact orderly_sendDirect _ hunsent
    | some upstream => exact orderly_sendUpstream upstream hostErr ctxHeader _ hunsent
  refine follows_bind.mpr (hsend.mono ?_)
  rintro ⟨r', outcome | ⟨response, err⟩⟩ tr hsent
  · exact hsent
  · exact follows_bind.mpr (orderly_finish r' err hsent.1 hsent.2)

omit hinforms in
theorem orderly_authenticate (hunsent : Unsent informs history) :
    Orderly informs r (fun _ tr => Unsent informs tr) history (authenticate h r) := by
  unfold authenticate
  cases h.authCredentials with
  | none => exact hunsent
  | some authCredentials =>
    dsimp only
    rcases checkCredentials authCredentials r with panic | ⟨_ | id, err⟩
    · exact hunsent
    · exact hunsent
    · exact ⟨trivial, fun _ => hunsent.concat (o := .setUserID id) trivial ()⟩

theorem orderly_serveHTTP (hostsMatch : Request → Bool) (hunsent : Unsent informs history) :
    Orderly informs r (fun res tr => Ends informs h r tr res.2) history
      (serveHTTP hostsMatch h r) := by
  refine follows_bind.mpr ((orderly_authenticate hunsent).mono ?_)
  rintro (panic | authErr) tr₁ h₁
  · exact Ends.panics panic
  refine follows_bind.mpr ((orderly_gate hinforms authErr h₁).mono ?_)
  rintro (_ | err) tr₂ h₂
  swap
  · exact h₂
  refine Follows.ite (fun hmethod => ?_) fun _ => orderly_servePlain _ _ h₂
  exact follows_bind.mpr (orderly_serveConnect hinforms hmethod _ h₂)

end Parts

/-! ## The whole -/

/-- **The discipline of the response.**  For every request, and whatever the network, the handlers
around and the client do:

* every operation on the response writer is in order: the header is read and changed before a status
  goes out and not behind it, a second status is written only where it repeats the 200 of a CONNECT,
  the writer is not touched behind a `Hijack`, and nothing is relayed, buffered bytes included,
  before the client was told 200;
* the server is left to make up an answer of its own only if a response that informs was forwarded;
* an error for which it is to answer has a status, unless dialling returned it or the body of such a
  response could not be copied;
* an error is returned behind a status only with the hidden page, for a tunnel, or when the body of
  the response that was forwarded could not be copied. -/
theorem reply_discipline {informs : ℕ → Bool} (hinforms : informs 200 = false ∧ informs 407 = false)
    {hostsMatch : Request → Bool} {h : Handler} {r : Request} {tr : List Exchange}
    {res : Request × Outcome} (hrun : Runs (serveHTTP hostsMatch h r) tr res) :
    (∀ before x behind, tr = before ++ x :: behind → (replyAfter informs before).Allows r x.1) ∧
      Ends informs h r tr res.2 := by
  have horderly : Orderly informs r (fun res tr => Ends informs h r tr res.2) []
      (serveHTTP hostsMatch h r) := orderly_serveHTTP hinforms hostsMatch rfl
  constructor
  · rintro before x behind rfl
    exact horderly.of_runs_after hrun
  · exact horderly.end_of_runs_after hrun

/-- The statuses that `net/http` takes for ones that only inform. -/
def informational (status : ℕ) : Bool := 100 ≤ status && status ≤ 199 && status ≠ 101

/-- The upstream says 100 before it answers, and that is forwarded. -/
def continueForwarded : List Exchange :=
  let via : Header := [(ascii "Via", [ascii "1.1 caddy"])]
  [⟨.dialContext (ascii "tcp") (ascii "target.example:80") none, (some 7, none)⟩,
    ⟨.writeRequest 7 portRequestSent, none⟩, ⟨.readResponse 7, .ok ⟨100, 1, 1, []⟩⟩,
    ⟨.closeBody, none⟩,
    ⟨.responseHeader, ([] : Header)⟩, ⟨.setResponseHeader [], ()⟩,
    ⟨.responseHeader, ([] : Header)⟩, ⟨.setResponseHeader via, ()⟩,
    ⟨.responseHeader, via⟩, ⟨.setResponseHeader via, ()⟩,
    ⟨.responseHeader, via⟩, ⟨.setResponseHeader via, ()⟩,
    ⟨.writeHeader 100, ()⟩, ⟨.copyResponseBody, none⟩, ⟨.closeResponseBody, ()⟩]

/-- The exception: the request ends without an error, and without an answer. -/
theorem reply_discipline_continueForwarded :
    replyAfter informational continueForwarded = .unsent ∧
      (∀ before x behind, continueForwarded = before ++ x :: behind →
        (replyAfter informational before).Allows portRequest x.1) ∧
      ∃ response, informational response.statusCode = true ∧
        Forwards response none continueForwarded := by
  have hrun : Runs
      (serveHTTP (fun _ => false) { credentialedHandler with hideIP := true } portRequest)
      continueForwarded (portRequestSent, .ok none) :=
    .op (.op (.op (.op (.op (.op (.op (.op (.op (.op (.op (.op (.op (.op (.op (.ret _)))))))))))))))
  have hinforms : informational 200 = false ∧ informational 407 = false := ⟨rfl, rfl⟩
  obtain ⟨horder, hends⟩ := reply_discipline hinforms hrun
  have hunsent : replyAfter informational continueForwarded = .unsent := rfl
  exact ⟨hunsent, horder, hends.silent rfl hunsent⟩

end Serve
end ForwardProxy
