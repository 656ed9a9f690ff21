import ForwardProxy.Core.TextReader
import ForwardProxy.HttpClient.Dialer

/-!
# What is left of a stream after the response to CONNECT (`httpclient.go`)

`connectHttp1` reads the response through `bufio.NewReader(rawConn)` and returns `rawConn`.  The
buffered reader is thrown away, and with it whatever it has read and not handed out.

`readResponse` is `http.ReadResponse` on the bytes of the connection: the status line, the header
and nothing behind it are taken off the buffered reader (`readResponse_spec`).  What the lines say
is a parameter (`parse`).  Bytes behind the head are lost exactly when a read that was made for the
head has delivered some of them (`handed_over_iff`).
-/

namespace ForwardProxy
namespace HttpClient

open ForwardProxy.Core Prog BufReader

/-! ## Reading the response -/

/-- The errors of `http.ReadResponse`. -/
inductive ResponseErr where
  | read (err : BufErr)
  | malformed
  deriving DecidableEq, Repr

/-- `http.ReadResponse(bufio.NewReader(rawConn), req)`, with the buffered reader as it is left
behind.  A body is not read before it is asked for.  `parse` is told the bytes of the status line
and the header at the end; where the package gives up on them earlier, the result is an error,
too. -/
def readResponse (parse : List UInt8 → Option Response) (rawConn : Source) :
    Option (Except ResponseErr Response × BufReader) :=
  match BufReader.readLine { src := rawConn } with
  | none => none
  | some (.error err, b) => some (.error (.read err), b)
  | some (.ok status, b) =>
    -- the first line of the header cannot continue a line
    if b.peek.buf.head?.any isBlankByte then some (.error .malformed, b.peek)
    else
      match b.peek.readHeader with
      | none => none
      | some (.error err, b) => some (.error (.read err), b)
      | some (.ok header, b) =>
        match parse (status ++ header) with
        | none => some (.error .malformed, b)
        | some resp => some (.ok resp, b)

/-- A status line and a header. -/
def CompleteHead (head : List UInt8) : Prop :=
  ∃ status lines last, head = status ++ newline :: headerText lines last ∧ newline ∉ status ∧
    (∀ l ∈ lines, Solid l) ∧ Final last ∧ (headerText lines last).head?.any isBlankByte = false

/-- The head, and nothing behind it, is taken off the stream. -/
theorem readResponse_spec {parse : List UInt8 → Option Response} {src : Source}
    {head t : List UInt8} {resp : Response} (hbytes : src.bytes = head ++ t)
    (hprogress : src.Progress) (hhead : CompleteHead head) (hparse : parse head = some resp) :
    ∃ b, readResponse parse src = some (.ok resp, b) ∧ Fetches (head, { src := src }) ([], b) := by
  obtain ⟨status, lines, last, rfl, hstatus, hlines, hlast, hfirst⟩ := hhead
  have hinv : Inv t (status ++ newline :: headerText lines last, { src := src }) :=
    ⟨hbytes, fun h => absurd rfl h, hprogress, Nat.zero_le _⟩
  obtain ⟨b₁, hline, hrun₁⟩ := readLine_spec hinv hstatus
  have hne : headerText lines last ≠ [] := by
    intro hnil
    have hlt := length_lt_headerText lines last
    rw [hnil] at hlt
    exact absurd hlt (Nat.not_lt_zero _)
  obtain ⟨hrun₂, hpeek⟩ := fetches_peek (hinv.fetches hrun₁) hne
  have hinv₂ := (hinv.fetches hrun₁).fetches hrun₂
  obtain ⟨b₃, hheader, hrun₃⟩ := readHeader_spec hinv₂ hlines hlast
  have hblank : b₁.peek.buf.head?.any isBlankByte = false := by
    obtain ⟨c, buf, hbuf⟩ := List.exists_cons_of_ne_nil hpeek
    obtain ⟨d, rest, htext⟩ := List.exists_cons_of_ne_nil hne
    have hcontent := hinv₂.content
    simp only [BufReader.content, hbuf, htext, List.cons_append] at hcontent
    rw [htext] at hfirst
    rw [hbuf, (List.cons.inj hcontent).1]
    exact hfirst
  refine ⟨b₃, ?_, (hrun₁.trans hrun₂).trans hrun₃⟩
  have htext : status ++ [newline] ++ headerText lines last =
      status ++ newline :: headerText lines last := by simp
  simp only [readResponse, hline, hblank, Bool.false_eq_true, if_false, hheader, htext, hparse]

/-! ## The connection that is returned -/

/-- The protocol in which a response with status 200 is the last thing that is done: the variable
is the connection that it was read from. -/
def handover : Protocol Resp (Option ℕ) where
  allowed rc _ := rc = none
  next rc o r :=
    match o, r with
    | .readResponse rawConn, .ok resp => if resp.statusCode = 200 then some rawConn else rc
    | _, _ => rc

/-- The connection that a response with status 200 was read from is the one that is returned. -/
def Returns (res : Result) (rc : Option ℕ) : Prop :=
  ∀ rawConn, rc = some rawConn → res = (some (.raw rawConn), none)

theorem returns_none (res : Result) : Returns res none := nofun

theorem follows_connectHttp2 (req : ConnectRequest) (rawConn : ℕ) :
    Follows handover (fun _ rc => rc = none) none (connectHttp2 req rawConn) := by
  refine ⟨rfl, ?_⟩
  rintro (err | resp)
  · exact ⟨rfl, fun _ => rfl⟩
  · show Follows handover _ none (if resp.statusCode ≠ 200 then _ else _)
    split_ifs
    · exact ⟨rfl, fun _ => rfl⟩
    · rfl

theorem follows_connectHttp1 (req : ConnectRequest) (rawConn : ℕ) :
    Follows handover Returns none (connectHttp1 req rawConn) := by
  refine ⟨rfl, ?_⟩
  rintro (_ | err)
  · refine ⟨rfl, ?_⟩
    rintro (err | resp)
    · exact ⟨rfl, fun _ => returns_none _⟩
    · show Follows handover Returns (if resp.statusCode = 200 then some rawConn else none)
        (if resp.statusCode ≠ 200 then _ else _)
      by_cases hresp : resp.statusCode = 200
      · rw [if_pos hresp, if_neg (not_not.mpr hresp)]
        intro rc hrc
        rw [Option.some_inj.mp hrc]
      · rw [if_neg hresp, if_pos hresp]
        exact ⟨rfl, fun _ => returns_none _⟩
  · exact ⟨rfl, fun _ => returns_none _⟩

theorem follows_startHttp2 (c : HTTPConnectDialer) (req : ConnectRequest) (rawConn : ℕ) :
    Follows handover Returns none (startHttp2 c req rawConn) := by
  refine ⟨rfl, ?_⟩
  rintro (_ | err)
  · show Follows handover Returns none (connectHttp2 req rawConn >>= _)
    refine follows_bind.mpr ((follows_connectHttp2 req rawConn).mono ?_)
    rintro ⟨proxyConn, err⟩ rc rfl
    by_cases herr : err = none
    · simp only [herr, ne_eq, not_true_eq_false, if_false]
      split_ifs
      · exact ⟨rfl, fun _ => returns_none _⟩
      · exact returns_none _
    · simp only [herr, ne_eq, not_false_eq_true, if_true]
      exact ⟨rfl, fun _ => returns_none _⟩
  · exact ⟨rfl, fun _ => returns_none _⟩

theorem follows_connectNegotiated (c : HTTPConnectDialer) (req : ConnectRequest) (rawConn : ℕ)
    (negotiatedProtocol : GoString) :
    Follows handover Returns none (connectNegotiated c req rawConn negotiatedProtocol) := by
  unfold connectNegotiated
  split_ifs
  · exact follows_connectHttp1 req rawConn
  · exact follows_startHttp2 c req rawConn
  · exact ⟨rfl, fun _ => returns_none _⟩

theorem follows_dialFresh (c : HTTPConnectDialer) (network : GoString) (req : ConnectRequest) :
    Follows handover Returns none (dialFresh c network req) := by
  unfold dialFresh
  split_ifs
  · refine ⟨rfl, ?_⟩
    rintro (err | rawConn)
    · exact returns_none _
    · exact follows_connectNegotiated c req rawConn []
  · refine ⟨rfl, ?_⟩
    rintro (err | ⟨rawConn, negotiatedProtocol⟩)
    · exact returns_none _
    · exact follows_connectNegotiated c req rawConn negotiatedProtocol
  · refine ⟨rfl, ?_⟩
    rintro (err | tlsConn)
    · exact returns_none _
    · refine ⟨rfl, ?_⟩
      rintro (_ | err)
      · exact ⟨rfl, fun negotiatedProtocol =>
          follows_connectNegotiated c req tlsConn negotiatedProtocol⟩
      · exact returns_none _
  · exact returns_none _

theorem follows_dialCached (c : HTTPConnectDialer) (req : ConnectRequest) :
    Follows handover (fun _ rc => rc = none) none (dialCached c req) := by
  unfold dialCached
  split_ifs
  · refine ⟨rfl, ?_⟩
    rintro (_ | ⟨rawConn, _ | _⟩)
    · rfl
    · rfl
    · show Follows handover _ none (connectHttp2 req rawConn >>= _)
      exact follows_bind.mpr ((follows_connectHttp2 req rawConn).mono fun _ _ h => h)
  · rfl

theorem follows_dialContext (c : HTTPConnectDialer) (network address : GoString)
    (ctxHeader : Option Header) :
    Follows handover Returns none (dialContext c network address ctxHeader) := by
  refine follows_bind.mpr ((follows_dialCached c _).mono ?_)
  rintro (_ | res) rc rfl
  · exact follows_dialFresh c network _
  · exact returns_none _

/-- A response with status 200 is the last thing that is done, and its connection is returned. -/
theorem returned_of_readResponse {c : HTTPConnectDialer} {network address : GoString}
    {ctxHeader : Option Header} {tr₁ tr₂ : List Exchange} {res : Result} {rawConn : ℕ}
    {resp : Response} (h200 : resp.statusCode = 200)
    (hrun : Runs (dialContext c network address ctxHeader)
      (tr₁ ++ ⟨.readResponse rawConn, .ok resp⟩ :: tr₂) res) :
    tr₂ = [] ∧ res = (some (.raw rawConn), none) := by
  obtain ⟨p, rc, -, hp, hrun'⟩ :=
    (follows_dialContext c network address ctxHeader).of_runs_append hrun
  have hnext : handover.next rc (.readResponse rawConn) (.ok resp) = some rawConn := if_pos h200
  rw [hnext] at hp
  cases p with
  | ret a =>
    obtain ⟨htr, hres⟩ := runs_ret_iff.mp hrun'
    rw [hres]
    exact ⟨htr, hp rawConn rfl⟩
  | op o k => exact absurd hp.1 (by simp [handover])

/-! ## What the caller can read -/

/-- The answer to the operation is what comes of the bytes on the connection. -/
def AnsweredBy (parse : List UInt8 → Option Response) (src : Source)
    (ans : Except DialError Response) : Prop :=
  ∃ r b, readResponse parse src = some (r, b) ∧ ans.toOption = r.toOption

/-- The raw connection behind the response. -/
def leftOver (parse : List UInt8 → Option Response) (src : Source) : Source :=
  ((readResponse parse src).map fun r => r.2.src).getD src

/-- What the reads of the raw connection deliver while the response is read. -/
def headReads (parse : List UInt8 → Option Response) (src : Source) : List (List UInt8) :=
  ((readResponse parse src).map fun r => r.2.reads).getD []

/-- In every call that reads a complete head with status 200 over HTTP/1.1, the connection is
returned, and a caller reads exactly the bytes behind the head from it if and only if no read that
was made for the head has delivered any of them.  It is enough that a piece of the stream ends with
the head, and, where the pieces up to there fit in the buffer, also necessary. -/
theorem handed_over_iff {parse : List UInt8 → Option Response} {c : HTTPConnectDialer}
    {network address : GoString} {ctxHeader : Option Header} {tr₁ tr₂ : List Exchange}
    {res : Result} {rawConn : ℕ} {ans : Except DialError Response}
    (hrun : Runs (dialContext c network address ctxHeader)
      (tr₁ ++ ⟨.readResponse rawConn, ans⟩ :: tr₂) res)
    {src : Source} {head t : List UInt8} {resp : Response} (hans : AnsweredBy parse src ans)
    (hbytes : src.bytes = head ++ t) (hprogress : src.Progress) (hhead : CompleteHead head)
    (hparse : parse head = some resp) (h200 : resp.statusCode = 200) :
    (tr₂ = [] ∧ res = (some (.raw rawConn), none)) ∧
    ((leftOver parse src).Yields t ↔ (headReads parse src).flatten = head) ∧
    ((∃ k, (src.chunks.take k).flatten = head) → (leftOver parse src).Yields t) ∧
    ((∃ k, head.length ≤ (src.chunks.take k).flatten.length ∧
        (src.chunks.take k).flatten.length ≤ size) →
      ((leftOver parse src).Yields t ↔ ∃ k, (src.chunks.take k).flatten = head)) := by
  obtain ⟨b, hread, hfetch⟩ := readResponse_spec hbytes hprogress hhead hparse
  have hleft : leftOver parse src = b.src := by simp [leftOver, hread]
  have hreads : headReads parse src = b.reads := by simp [headReads, hread]
  obtain ⟨⟨taken, htaken, hdelivered⟩, hall⟩ := Fetches.delivered hfetch
  dsimp only at htaken hdelivered hall
  rw [List.append_nil] at htaken
  subst htaken
  -- the bytes that were read ahead are in the buffer that is thrown away
  have hyields : (leftOver parse src).Yields t ↔ b.buf = [] := by
    rw [hleft, Source.yields_iff]
    rw [hbytes, hdelivered, List.append_assoc, List.append_cancel_left_eq] at hall
    constructor
    · intro heq
      rw [heq] at hall
      exact List.append_left_eq_self.mp hall.symm
    · intro hnil
      rw [hall, hnil, List.nil_append]
  have hboundary : (∃ k, (src.chunks.take k).flatten = head) → b.buf = [] := by
    rintro ⟨k, hk⟩
    exact List.length_eq_zero_iff.mp (Nat.le_zero.mp (Fetches.boundary hk hfetch).1)
  refine ⟨?_, ?_, fun hk => hyields.mpr (hboundary hk), ?_⟩
  · obtain ⟨r, b', hread', hopt⟩ := hans
    obtain ⟨rfl, -⟩ := Prod.mk.inj (Option.some_inj.mp (hread'.symm.trans hread))
    cases ans with
    | error e => exact absurd hopt (by simp [Except.toOption])
    | ok resp' =>
      obtain rfl : resp' = resp := by simpa [Except.toOption] using hopt
      exact returned_of_readResponse h200 hrun
  · rw [hyields, hreads, hdelivered]
    exact List.append_right_eq_self.symm
  · rintro ⟨k, hk, hsize⟩
    rw [hyields]
    refine ⟨fun hnil => ?_, hboundary⟩
    obtain ⟨j, -, -, hj⟩ := Fetches.whole hk hsize hfetch
    exact ⟨j, by rw [← hj, hdelivered, hnil, List.append_nil]⟩

/-- An upstream on HTTP. -/
def httpDialer : HTTPConnectDialer :=
  { scheme := ascii "http", host := ascii "proxy.example:80", enableH2ConnReuse := false }

/-- The response of the examples. -/
def okHead : List UInt8 := ascii "HTTP/1.1 200 OK\r\nVia: 1.1 proxy\r\n\r\n"

/-- What the package makes of it. -/
def parseOk (head : List UInt8) : Option Response :=
  if head = okHead then some ⟨200, ascii "200 OK"⟩ else none

/-- The call of the examples. -/
def plainTunnel : List Exchange :=
  [⟨.dial (ascii "tcp") (ascii "proxy.example:80"), .ok 7⟩,
    ⟨.write 7 { host := ascii "target.example:22", header := [] }, none⟩,
    ⟨.readResponse 7, .ok ⟨200, ascii "200 OK"⟩⟩]

theorem runs_plainTunnel :
    Runs (dialContext httpDialer (ascii "tcp") (ascii "target.example:22") none) plainTunnel
      (some (.raw 7), none) :=
  .op (.op (.op (.ret _)))

theorem completeHead_okHead : CompleteHead okHead :=
  ⟨ascii "HTTP/1.1 200 OK\r", [ascii "Via: 1.1 proxy\r"], [cr], by decide, by decide,
    by simp only [List.mem_singleton, forall_eq]; exact ⟨by decide, by decide⟩,
      Or.inr rfl, by decide⟩

/-- The greeting of the target comes in a read of its own, and is not lost. -/
theorem handed_over_iff_apart :
    (leftOver parseOk { chunks := [okHead, ascii "SSH-2.0"] }).Yields (ascii "SSH-2.0") := by
  have hread : readResponse parseOk { chunks := [okHead, ascii "SSH-2.0"] } =
      some (.ok ⟨200, ascii "200 OK"⟩, ⟨{ chunks := [ascii "SSH-2.0"] }, [], none, [okHead]⟩) := by
    decide
  have heager : Source.Eager { chunks := [okHead, ascii "SSH-2.0"] } := by
    unfold Source.Eager
    decide
  have hrun : Runs (dialContext httpDialer (ascii "tcp") (ascii "target.example:22") none)
      (plainTunnel.take 2 ++ ⟨.readResponse 7, .ok ⟨200, ascii "200 OK"⟩⟩ :: [])
      (some (.raw 7), none) := runs_plainTunnel
  exact (handed_over_iff hrun ⟨_, _, hread, rfl⟩ rfl heager.progress completeHead_okHead
    (if_pos rfl) rfl).2.2.1 ⟨1, rfl⟩

/-- The greeting of the target comes together with the response, and is lost: the call returns the
connection, and nothing can be read from it. -/
theorem greeting_lost :
    Runs (dialContext httpDialer (ascii "tcp") (ascii "target.example:22") none) plainTunnel
        (some (.raw 7), none) ∧
      AnsweredBy parseOk { chunks := [okHead ++ ascii "SSH-2.0"] } (.ok ⟨200, ascii "200 OK"⟩) ∧
      (leftOver parseOk { chunks := [okHead ++ ascii "SSH-2.0"] }).Yields [] ∧
      ¬ (leftOver parseOk { chunks := [okHead ++ ascii "SSH-2.0"] }).Yields (ascii "SSH-2.0") := by
  have hread : readResponse parseOk { chunks := [okHead ++ ascii "SSH-2.0"] } =
      some (.ok ⟨200, ascii "200 OK"⟩,
        ⟨{ chunks := [] }, ascii "SSH-2.0", none, [okHead ++ ascii "SSH-2.0"]⟩) := by decide
  refine ⟨runs_plainTunnel, ⟨_, _, hread, rfl⟩, ?_, ?_⟩
  · rw [leftOver, hread, Source.yields_iff]
    rfl
  · rw [leftOver, hread, Source.yields_iff]
    decide

end HttpClient
end ForwardProxy
