import ForwardProxy.HttpClient.Dialer

/-!
# What stands behind a connection of `DialContext`

Errors of `DialContext` can be masked by a successful `Close`, so the error that a caller gets says
little.  The connection says more.  `DialContext` returns one exactly if the upstream proxy has
answered its CONNECT request with 200 on that connection (`Granted`), and then without an error; and
every request that it sends, on whichever connection and for whichever protocol, is the one request
of the call (`Carries`).

Both are read off one pass over the code with the history of the call as ghost variable.  `Answers`
is what holds of the result and of the history at the end.
-/

namespace ForwardProxy
namespace HttpClient

open ForwardProxy.Core Prog

/-- The request of a call as it goes out over HTTP/2. -/
def ConnectRequest.http2 (req : ConnectRequest) : ConnectRequest :=
  { req with protoMajor := 2, protoMinor := 0 }

/-- The request of a call as it goes out over HTTP/1. -/
def ConnectRequest.http1 (req : ConnectRequest) : ConnectRequest :=
  { req with protoMajor := 1, protoMinor := 1 }

/-- What is sent is the request of the call. -/
def Carries (req : ConnectRequest) : Op → Prop
  | .roundTrip _ sent => sent = req.http2
  | .write _ sent => sent = req.http1
  | _ => True

/-- The upstream has answered the request with 200 on this connection. -/
def Granted (req : ConnectRequest) (tr : List Exchange) : Conn → Prop
  | .http2 rawConn => ∃ resp, resp.statusCode = 200 ∧ ⟨.roundTrip rawConn req.http2, .ok resp⟩ ∈ tr
  | .raw rawConn => ∃ resp, resp.statusCode = 200 ∧ ⟨.write rawConn req.http1, none⟩ ∈ tr ∧
      ⟨.readResponse rawConn, .ok resp⟩ ∈ tr

/-- The exchange may be part of a grant. -/
def grants : Exchange → Bool
  | ⟨.roundTrip _ _, .ok resp⟩ => resp.statusCode = 200
  | ⟨.readResponse _, .ok resp⟩ => resp.statusCode = 200
  | _ => false

/-- A trace in which nothing was granted. -/
def Ungranted (tr : List Exchange) : Prop := ∀ x ∈ tr, grants x = false

theorem ungranted_nil : Ungranted [] := fun _ hx => absurd hx List.not_mem_nil

theorem Ungranted.concat {tr : List Exchange} (h : Ungranted tr) {x : Exchange}
    (hx : grants x = false) : Ungranted (tr ++ [x]) := by
  intro y hy
  rcases List.mem_append.mp hy with hy | hy
  · exact h y hy
  · rw [List.mem_singleton.mp hy]
    exact hx

theorem Ungranted.not_granted {tr : List Exchange} (h : Ungranted tr) (req : ConnectRequest)
    (conn : Conn) : ¬ Granted req tr conn := by
  cases conn with
  | http2 rawConn =>
    rintro ⟨resp, hstatus, hmem⟩
    exact absurd (h _ hmem) (by simp [grants, hstatus])
  | raw rawConn =>
    rintro ⟨resp, hstatus, -, hmem⟩
    exact absurd (h _ hmem) (by simp [grants, hstatus])

theorem Granted.mono {req : ConnectRequest} {conn : Conn} {tr tr' : List Exchange}
    (h : Granted req tr conn) (hsub : ∀ x ∈ tr, x ∈ tr') : Granted req tr' conn := by
  cases conn with
  | http2 rawConn =>
    obtain ⟨resp, hstatus, hmem⟩ := h
    exact ⟨resp, hstatus, hsub _ hmem⟩
  | raw rawConn =>
    obtain ⟨resp, hstatus, hwrite, hread⟩ := h
    exact ⟨resp, hstatus, hsub _ hwrite, hsub _ hread⟩

/-- Only the last operation can have granted a connection, if nothing was granted before. -/
theorem Ungranted.granted_concat {tr : List Exchange} (h : Ungranted tr) {req : ConnectRequest}
    {x : Exchange} {conn : Conn} (hgranted : Granted req (tr ++ [x]) conn) :
    (∃ rawConn resp, conn = .http2 rawConn ∧ x = ⟨.roundTrip rawConn req.http2, .ok resp⟩) ∨
      ∃ rawConn resp, conn = .raw rawConn ∧ x = ⟨.readResponse rawConn, .ok resp⟩ := by
  cases conn with
  | http2 rawConn =>
    obtain ⟨resp, hstatus, hmem⟩ := hgranted
    rcases List.mem_append.mp hmem with hmem | hmem
    · exact absurd (h _ hmem) (by simp [grants, hstatus])
    · exact .inl ⟨rawConn, resp, rfl, (List.mem_singleton.mp hmem).symm⟩
  | raw rawConn =>
    obtain ⟨resp, hstatus, -, hmem⟩ := hgranted
    rcases List.mem_append.mp hmem with hmem | hmem
    · exact absurd (h _ hmem) (by simp [grants, hstatus])
    · exact .inr ⟨rawConn, resp, rfl, (List.mem_singleton.mp hmem).symm⟩

/-- What holds of a result and of the operations that led to it. -/
structure Answers (req : ConnectRequest) (res : Result) (tr : List Exchange) : Prop where
  granted : ∀ conn, Granted req tr conn ↔ res.1 = some conn
  noError : res.1 ≠ none → res.2 = none
  ungranted : res.1 = none → Ungranted tr

theorem Ungranted.answers {tr : List Exchange} (h : Ungranted tr) (req : ConnectRequest)
    (err : Option DialError) : Answers req (none, err) tr :=
  ⟨fun conn => iff_of_false (h.not_granted req conn) (by simp),
    fun hne => absurd rfl hne, fun _ => h⟩

/-- The protocol: every request that is sent is that of the call. -/
abbrev Asks {α : Type} (req : ConnectRequest) (Q : α → List Exchange → Prop)
    (history : List Exchange) (p : Prog Resp α) : Prop :=
  Follows (Prog.after fun _ => Carries req) Q history p

section Asks

variable {req : ConnectRequest} {history : List Exchange}

/-- The end of a step that has failed. -/
theorem asks_close (h : Ungranted history) {rawConn : ℕ} {k : Option DialError → Prog Resp Result}
    (hk : ∀ err, ∃ err', k err = .ret (none, err')) :
    Asks req (Answers req) history (perform (Op.close rawConn) >>= k) := by
  refine ⟨trivial, fun err => ?_⟩
  obtain ⟨err', hret⟩ := hk err
  show Asks req _ (history ++ [⟨.close rawConn, err⟩]) (k err)
  have hclosed : Ungranted (history ++ [⟨.close rawConn, err⟩]) := h.concat rfl
  rw [hret]
  exact hclosed.answers req err'

theorem asks_connectHttp2 (h : Ungranted history) (rawConn : ℕ) :
    Asks req (Answers req) history (connectHttp2 req rawConn) := by
  refine ⟨rfl, ?_⟩
  rintro (err | resp)
  · exact asks_close (h.concat rfl) fun err => ⟨err, rfl⟩
  show Asks req _ (history ++ [⟨.roundTrip rawConn req.http2, .ok resp⟩])
    (if resp.statusCode ≠ 200 then _ else _)
  by_cases hresp : resp.statusCode = 200
  · rw [if_neg (not_not.mpr hresp)]
    refine ⟨fun conn => ⟨fun hgranted => ?_, fun hconn => ?_⟩, fun _ => rfl,
      fun hnone => absurd hnone (by simp)⟩
    · rcases h.granted_concat hgranted with ⟨rc, resp', rfl, heq⟩ | ⟨rc, resp', rfl, heq⟩
      · obtain ⟨hop, -⟩ := Sigma.mk.inj heq
        rw [(Op.roundTrip.inj hop).1]
      · cases (Sigma.mk.inj heq).1
    · rw [← Option.some_inj.mp hconn]
      exact ⟨resp, hresp, by simp⟩
  · rw [if_pos hresp]
    exact asks_close (h.concat (by simp [grants, hresp])) fun _ => ⟨_, rfl⟩

theorem asks_connectHttp1 (h : Ungranted history) (rawConn : ℕ) :
    Asks req (Answers req) history (connectHttp1 req rawConn) := by
  refine ⟨rfl, ?_⟩
  rintro (_ | err)
  swap
  · exact asks_close (h.concat rfl) fun err => ⟨err, rfl⟩
  have hwritten : Ungranted (history ++ [⟨.write rawConn req.http1, none⟩]) := h.concat rfl
  refine ⟨trivial, ?_⟩
  rintro (err | resp)
  · exact asks_close (hwritten.concat rfl) fun err => ⟨err, rfl⟩
  show Asks req _ (history ++ [⟨.write rawConn req.http1, none⟩] ++
    [⟨.readResponse rawConn, .ok resp⟩]) (if resp.statusCode ≠ 200 then _ else _)
  by_cases hresp : resp.statusCode = 200
  · rw [if_neg (not_not.mpr hresp)]
    refine ⟨fun conn => ⟨fun hgranted => ?_, fun hconn => ?_⟩, fun _ => rfl,
      fun hnone => absurd hnone (by simp)⟩
    · rcases hwritten.granted_concat hgranted with ⟨rc, resp', rfl, heq⟩ | ⟨rc, resp', rfl, heq⟩
      · cases (Sigma.mk.inj heq).1
      · obtain ⟨hop, -⟩ := Sigma.mk.inj heq
        rw [Op.readResponse.inj hop]
    · rw [← Option.some_inj.mp hconn]
      exact ⟨resp, hresp, by simp, by simp⟩
  · rw [if_pos hresp]
    exact asks_close (hwritten.concat (by simp [grants, hresp])) fun _ => ⟨_, rfl⟩

/-- Putting the connection into the cache changes nothing. -/
theorem Answers.setCached {res : Result} {rawConn : ℕ} (h : Answers req res history) :
    Answers req res (history ++ [⟨.setCached rawConn, ()⟩]) := by
  refine ⟨fun conn => ?_, h.noError, fun hnone => (h.ungranted hnone).concat rfl⟩
  rw [← h.granted conn]
  cases conn <;> simp [Granted]

theorem asks_startHttp2 (c : HTTPConnectDialer) (h : Ungranted history) (rawConn : ℕ) :
    Asks req (Answers req) history (startHttp2 c req rawConn) := by
  refine ⟨trivial, ?_⟩
  rintro (_ | err)
  swap
  · exact asks_close (h.concat rfl) fun err => ⟨err, rfl⟩
  show Asks req _ (history ++ [⟨.newClientConn rawConn, none⟩]) (connectHttp2 req rawConn >>= _)
  refine follows_bind.mpr ((asks_connectHttp2 (h.concat rfl) rawConn).mono ?_)
  rintro ⟨proxyConn, err⟩ tr hanswers
  show Asks req _ tr (if err ≠ none then _ else _)
  by_cases herr : err = none
  · subst herr
    rw [if_neg (not_not.mpr rfl)]
    show Asks req _ tr (if c.enableH2ConnReuse then _ else _)
    split_ifs
    · exact ⟨trivial, fun _ => hanswers.setCached⟩
    · exact hanswers
  · rw [if_pos herr]
    have hnone : proxyConn = none := by
      by_contra hne
      exact herr (hanswers.noError hne)
    exact asks_close (hanswers.ungranted hnone) fun err => ⟨err, rfl⟩

theorem asks_connectNegotiated (c : HTTPConnectDialer) (h : Ungranted history) (rawConn : ℕ)
    (negotiatedProtocol : GoString) :
    Asks req (Answers req) history (connectNegotiated c req rawConn negotiatedProtocol) := by
  unfold connectNegotiated
  split_ifs
  · exact asks_connectHttp1 h rawConn
  · exact asks_startHttp2 c h rawConn
  · exact asks_close h fun _ => ⟨_, rfl⟩

theorem asks_dialFresh (c : HTTPConnectDialer) (network : GoString) (h : Ungranted history) :
    Asks req (Answers req) history (dialFresh c network req) := by
  unfold dialFresh
  split_ifs
  · refine ⟨trivial, ?_⟩
    rintro (err | rawConn)
    · exact (h.concat rfl).answers req _
    · exact asks_connectNegotiated c (h.concat rfl) rawConn []
  · refine ⟨trivial, ?_⟩
    rintro (err | ⟨rawConn, negotiatedProtocol⟩)
    · exact (h.concat rfl).answers req _
    · exact asks_connectNegotiated c (h.concat rfl) rawConn negotiatedProtocol
  · refine ⟨trivial, ?_⟩
    rintro (err | tlsConn)
    · exact (h.concat rfl).answers req _
    refine ⟨trivial, ?_⟩
    rintro (_ | err)
    · refine ⟨trivial, fun negotiatedProtocol => ?_⟩
      exact asks_connectNegotiated c (((h.concat rfl).concat rfl).concat rfl) tlsConn
        negotiatedProtocol
    · exact ((h.concat rfl).concat rfl).answers req _
  · exact h.answers req _

/-- An attempt on the cached connection that carries on was granted nothing. -/
theorem asks_dialCached (c : HTTPConnectDialer) (h : Ungranted history) :
    Asks req (fun res tr => (∀ result, res = some result → Answers req result tr) ∧
      (res = none → Ungranted tr)) history (dialCached c req) := by
  unfold dialCached
  split_ifs
  swap
  · exact ⟨fun result heq => absurd heq (by simp), fun _ => h⟩
  refine ⟨trivial, ?_⟩
  rintro (_ | ⟨rawConn, _ | _⟩)
  · exact ⟨fun result heq => absurd heq (by simp), fun _ => h.concat rfl⟩
  · exact ⟨fun result heq => absurd heq (by simp), fun _ => h.concat rfl⟩
  show Asks req _ (history ++ [⟨.cached, some (rawConn, true)⟩]) (connectHttp2 req rawConn >>= _)
  refine follows_bind.mpr ((asks_connectHttp2 (h.concat rfl) rawConn).mono ?_)
  rintro ⟨proxyConn, err⟩ tr hanswers
  show (∀ result, (if err = none then some (proxyConn, err) else none) = some result → _) ∧ _
  by_cases herr : err = none
  · rw [if_pos herr]
    exact ⟨fun result heq => Option.some_inj.mp heq ▸ hanswers, fun heq => absurd heq (by simp)⟩
  · rw [if_neg herr]
    refine ⟨fun result heq => absurd heq (by simp), fun _ => hanswers.ungranted ?_⟩
    by_contra hne
    exact herr (hanswers.noError hne)

end Asks

/-- **What stands behind a connection.**  In every call, whatever the upstream and the network
answer, the requests that go out are the request of the call, and the call returns a connection
exactly if the upstream has granted it. -/
theorem asks_dialContext (c : HTTPConnectDialer) (network address : GoString)
    (ctxHeader : Option Header) :
    Asks (connectRequest c address ctxHeader) (Answers (connectRequest c address ctxHeader)) []
      (dialContext c network address ctxHeader) := by
  refine follows_bind.mpr ((asks_dialCached c ungranted_nil).mono ?_)
  rintro (_ | result) tr ⟨hsome, hnone⟩
  · exact asks_dialFresh c network (hnone rfl)
  · exact hsome result rfl

end HttpClient
end ForwardProxy
