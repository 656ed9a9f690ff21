import ForwardProxy.HttpClient.Tunnels

/-!
# Where upstream connections come from

A CONNECT request carries the credentials for the upstream proxy, and the tunnel it opens carries
the traffic of a client.  Both go over a raw connection that the call has made itself or has found
in the cache, where another call has put it.  How a connection is made depends on the dialer alone:
on the scheme of its URL, and on whether `DialTLS` is set (`Made`).

A call speaks to the upstream only over a connection that it has made or was given from the cache;
this is a protocol over its own history (`provenance`), which `DialContext` keeps to.  In the
machine of `HttpClient.Tunnels` the cache holds nothing but what some call has made (`Traced`), so
that no interleaving brings a request, or a tunnel, onto a connection that was made in another way
(`made_of_speaks`, `Traced.live`).
-/

namespace ForwardProxy
namespace HttpClient

open ForwardProxy.Core Prog State

/-! ## One call -/

/-- The raw connection that an operation speaks to the upstream over, or puts into the cache. -/
def Op.over : Op → Option ℕ
  | .roundTrip rawConn _ => some rawConn
  | .write rawConn _ => some rawConn
  | .readResponse rawConn => some rawConn
  | .setCached rawConn => some rawConn
  | _ => none

/-- The raw connection was made in this history, in the way of the dialer. -/
inductive Made (c : HTTPConnectDialer) (history : List Exchange) (rawConn : ℕ) : Prop
  | plain {network : GoString} (hscheme : c.scheme = ascii "http")
      (hdial : ⟨.dial network c.host, .ok rawConn⟩ ∈ history)
  | dialTLS {network negotiatedProtocol : GoString} (hscheme : c.scheme = ascii "https")
      (hset : c.hasDialTLS = true)
      (hdial : ⟨.dialTLS network c.host, .ok (rawConn, negotiatedProtocol)⟩ ∈ history)
  | tls {network : GoString} (hscheme : c.scheme = ascii "https") (hset : c.hasDialTLS = false)
      (hdial : ⟨.tlsDial network c.host, .ok rawConn⟩ ∈ history)
      (hhandshake : ⟨.handshake rawConn, none⟩ ∈ history)

/-- The call knows the connection: it has made it, or it was given it from the cache. -/
def Known (c : HTTPConnectDialer) (history : List Exchange) (rawConn : ℕ) : Prop :=
  Made c history rawConn ∨ ∃ usable, ⟨.cached, some (rawConn, usable)⟩ ∈ history

/-- The protocol: only connections are used that the call knows. -/
def provenance (c : HTTPConnectDialer) : Protocol Resp (List Exchange) :=
  Prog.after fun history o => ∀ rawConn, o.over = some rawConn → Known c history rawConn

/-- A program keeps to the protocol. -/
abbrev Traces {α : Type} (c : HTTPConnectDialer) (Q : α → List Exchange → Prop)
    (history : List Exchange) (p : Prog Resp α) : Prop :=
  Follows (provenance c) Q history p

section Traces

variable {c : HTTPConnectDialer} {history : List Exchange} {rawConn : ℕ}

theorem Made.mono {history' : List Exchange} (h : Made c history rawConn)
    (hsub : ∀ x ∈ history, x ∈ history') : Made c history' rawConn := by
  cases h with
  | plain hscheme hdial => exact .plain hscheme (hsub _ hdial)
  | dialTLS hscheme hset hdial => exact .dialTLS hscheme hset (hsub _ hdial)
  | tls hscheme hset hdial hhandshake => exact .tls hscheme hset (hsub _ hdial) (hsub _ hhandshake)

theorem Known.concat (h : Known c history rawConn) (x : Exchange) :
    Known c (history ++ [x]) rawConn := by
  rcases h with hmade | ⟨usable, hcached⟩
  · exact .inl (hmade.mono fun y hy => List.mem_append_left _ hy)
  · exact .inr ⟨usable, List.mem_append_left _ hcached⟩

theorem Known.allowed (h : Known c history rawConn) {o : Op}
    (ho : ∀ rc, o.over = some rc → rc = rawConn) : (provenance c).allowed history o :=
  fun rc hover => ho rc hover ▸ h

/-- The connection is still known when the attempt is over. -/
theorem traces_connectHttp2 (h : Known c history rawConn) (req : ConnectRequest) :
    Traces c (fun _ history => Known c history rawConn) history (connectHttp2 req rawConn) := by
  refine ⟨h.allowed fun rc hover => (Option.some_inj.mp hover).symm, ?_⟩
  rintro (err | resp)
  · exact ⟨nofun, fun _ => (h.concat _).concat _⟩
  · show Traces c _ (history ++ [_]) (if resp.statusCode ≠ 200 then _ else _)
    split_ifs
    · exact ⟨nofun, fun _ => (h.concat _).concat _⟩
    · exact h.concat _

theorem traces_connectHttp1 (h : Known c history rawConn) (req : ConnectRequest) :
    Traces c (fun _ _ => True) history (connectHttp1 req rawConn) := by
  refine ⟨h.allowed fun rc hover => (Option.some_inj.mp hover).symm, ?_⟩
  rintro (_ | err)
  swap
  · exact ⟨nofun, fun _ => trivial⟩
  refine ⟨(h.concat _).allowed fun rc hover => (Option.some_inj.mp hover).symm, ?_⟩
  rintro (err | resp)
  · exact ⟨nofun, fun _ => trivial⟩
  · show Traces c _ _ (if resp.statusCode ≠ 200 then _ else _)
    split_ifs
    · exact ⟨nofun, fun _ => trivial⟩
    · trivial

theorem traces_startHttp2 (h : Known c history rawConn) (req : ConnectRequest) :
    Traces c (fun _ _ => True) history (startHttp2 c req rawConn) := by
  refine ⟨nofun, ?_⟩
  rintro (_ | err)
  swap
  · exact ⟨nofun, fun _ => trivial⟩
  show Traces c _ (history ++ [_]) (connectHttp2 req rawConn >>= _)
  refine follows_bind.mpr ((traces_connectHttp2 (h.concat _) req).mono ?_)
  rintro ⟨proxyConn, err⟩ history' h'
  show Traces c _ history' (if err ≠ none then _ else _)
  split_ifs
  · exact ⟨nofun, fun _ => trivial⟩
  · exact ⟨h'.allowed fun rc hover => (Option.some_inj.mp hover).symm, fun _ => trivial⟩
  · trivial

theorem traces_connectNegotiated (h : Known c history rawConn) (req : ConnectRequest)
    (negotiatedProtocol : GoString) :
    Traces c (fun _ _ => True) history (connectNegotiated c req rawConn negotiatedProtocol) := by
  unfold connectNegotiated
  split_ifs
  · exact traces_connectHttp1 h req
  · exact traces_startHttp2 h req
  · exact ⟨nofun, fun _ => trivial⟩

theorem traces_dialFresh (network : GoString) (req : ConnectRequest) :
    Traces c (fun _ _ => True) history (dialFresh c network req) := by
  unfold dialFresh
  split_ifs with hhttp hhttps hset
  · refine ⟨nofun, ?_⟩
    rintro (err | rawConn)
    · trivial
    · have hmade : Made c (history ++ [⟨.dial network c.host, .ok rawConn⟩]) rawConn :=
        .plain hhttp List.mem_concat_self
      exact traces_connectNegotiated (.inl hmade) req []
  · refine ⟨nofun, ?_⟩
    rintro (err | ⟨rawConn, negotiatedProtocol⟩)
    · trivial
    · have hmade : Made c
        (history ++ [⟨.dialTLS network c.host, .ok (rawConn, negotiatedProtocol)⟩])
          rawConn := .dialTLS hhttps hset List.mem_concat_self
      exact traces_connectNegotiated (.inl hmade) req negotiatedProtocol
  · refine ⟨nofun, ?_⟩
    rintro (err | rawConn)
    · trivial
    refine ⟨nofun, ?_⟩
    rintro (_ | err)
    swap
    · trivial
    refine ⟨nofun, fun negotiatedProtocol => ?_⟩
    have hmade : Made c (history ++ [⟨.tlsDial network c.host, .ok rawConn⟩] ++
        [⟨.handshake rawConn, none⟩]) rawConn :=
      .tls hhttps (Bool.eq_false_iff.mpr hset) (List.mem_append_left _ List.mem_concat_self)
        List.mem_concat_self
    exact traces_connectNegotiated (Known.concat (.inl hmade) _) req negotiatedProtocol
  · trivial

theorem traces_dialCached (req : ConnectRequest) :
    Traces c (fun _ _ => True) history (dialCached c req) := by
  unfold dialCached
  split_ifs
  swap
  · trivial
  refine ⟨nofun, ?_⟩
  rintro (_ | ⟨rawConn, _ | _⟩)
  · trivial
  · trivial
  have hknown : Known c (history ++ [⟨.cached, some (rawConn, true)⟩]) rawConn :=
    .inr ⟨true, List.mem_concat_self⟩
  show Traces c _ _ (connectHttp2 req rawConn >>= _)
  exact follows_bind.mpr ((traces_connectHttp2 hknown req).mono fun _ _ _ => trivial)

end Traces

/-- **`DialContext` speaks only over connections it knows.** -/
theorem traces_dialContext (c : HTTPConnectDialer) (network address : GoString)
    (ctxHeader : Option Header) :
    Traces c (fun _ _ => True) [] (dialContext c network address ctxHeader) := by
  refine follows_bind.mpr ((traces_dialCached _).mono ?_)
  rintro (_ | result) history _
  · exact traces_dialFresh network _
  · trivial

/-! ## Many calls -/

/-- What a label lets call `i` perform. -/
def Event.exchange (i : ℕ) : Event → Option Exchange
  | .perform j x => if j = i then some x else none
  | _ => none

/-- What call `i` has performed. -/
def historyOf (es : List Event) (i : ℕ) : List Exchange := es.filterMap (Event.exchange i)

/-- The raw connection was made by some call, in the way of the dialer. -/
def MadeIn (c : HTTPConnectDialer) (es : List Event) (rawConn : ℕ) : Prop :=
  ∃ i, Made c (historyOf es i) rawConn

theorem historyOf_concat (es : List Event) (e : Event) (i : ℕ) :
    historyOf (es ++ [e]) i = historyOf es i ++ (e.exchange i).toList := by
  rw [historyOf, List.filterMap_append, historyOf]
  cases he : e.exchange i with
  | none => simp [he]
  | some x => simp [he]

theorem historyOf_perform_self (es : List Event) (i : ℕ) (x : Exchange) :
    historyOf (es ++ [.perform i x]) i = historyOf es i ++ [x] := by
  rw [historyOf_concat, Event.exchange, if_pos rfl, Option.toList_some]

theorem historyOf_concat_of_eq_none (es : List Event) {e : Event} {i : ℕ}
    (he : e.exchange i = none) : historyOf (es ++ [e]) i = historyOf es i := by
  rw [historyOf_concat, he, Option.toList_none, List.append_nil]

theorem historyOf_perform_of_ne (es : List Event) {i j : ℕ} (hj : j ≠ i) (x : Exchange) :
    historyOf (es ++ [.perform i x]) j = historyOf es j :=
  historyOf_concat_of_eq_none es (if_neg hj.symm)

theorem MadeIn.concat {c : HTTPConnectDialer} {es : List Event} {rawConn : ℕ}
    (h : MadeIn c es rawConn) (e : Event) : MadeIn c (es ++ [e]) rawConn := by
  obtain ⟨i, hmade⟩ := h
  refine ⟨i, hmade.mono fun x hx => ?_⟩
  rw [historyOf_concat]
  exact List.mem_append_left _ hx

namespace State

variable (s : State) (i : ℕ) {o : Op} (r : Resp o)

@[simp] theorem effect_calls : (s.effect i o r).calls = s.calls := by
  unfold effect
  split
  all_goals first | rfl | (split_ifs <;> rfl)

/-- The cache is changed only to a connection that the operation is about. -/
theorem cache_effect {rawConn : ℕ} (h : (s.effect i o r).cache = some rawConn) :
    s.cache = some rawConn ∨ o.over = some rawConn := by
  unfold effect at h
  split at h
  all_goals first | exact .inl h | exact .inr h | skip
  all_goals split_ifs at h <;> exact .inl h

/-- A tunnel comes into being only on a connection that the operation is about. -/
theorem live_effect {j : ℕ} {t : Conn} (h : (s.effect i o r).live j = some t) :
    s.live j = some t ∨ o.over = some t.rawConn := by
  have hadd : ∀ t' : Conn, (s.addTunnel i t').live j = some t → s.live j = some t ∨ t' = t := by
    intro t' hlive
    change Function.update s.live i (some t') j = some t at hlive
    rcases eq_or_ne j i with rfl | hj
    · exact .inr (Option.some_inj.mp ((Function.update_self j (some t') s.live).symm.trans hlive))
    · exact .inl ((Function.update_of_ne hj (some t') s.live).symm.trans hlive)
  unfold effect at h
  split at h
  all_goals first | exact .inl h | skip
  all_goals
    split_ifs at h
    · rcases hadd _ h with hold | rfl
      · exact .inl hold
      · exact .inr rfl
    · exact .inl h

end State

/-- What is known of the connections after the labels `es`. -/
structure Traced (c : HTTPConnectDialer) (es : List Event) (s : State) : Prop where
  unstarted : ∀ i, s.calls i = none → historyOf es i = []
  traces : ∀ i call, s.calls i = some call →
    Traces c (fun _ _ => True) (historyOf es i) call.prog
  given : ∀ i rawConn usable, ⟨.cached, some (rawConn, usable)⟩ ∈ historyOf es i →
    MadeIn c es rawConn
  cache : ∀ rawConn, s.cache = some rawConn → MadeIn c es rawConn
  live : ∀ i t, s.live i = some t → MadeIn c es t.rawConn

section Traced

variable {c : HTTPConnectDialer} {es : List Event} {s : State}

theorem Traced.madeIn_of_known (h : Traced c es s) {i rawConn : ℕ}
    (hknown : Known c (historyOf es i) rawConn) : MadeIn c es rawConn := by
  rcases hknown with hmade | ⟨usable, hcached⟩
  · exact ⟨i, hmade⟩
  · exact h.given i rawConn usable hcached

/-- What the next operation of a call is about was made by some call. -/
theorem Traced.madeIn_of_over (h : Traced c es s) {i : ℕ} {call : Call} {o : Op} {r : Resp o}
    {p : Prog Resp Result} (hi : s.calls i = some call) (hp : call.prog.advance ⟨o, r⟩ = some p)
    {rawConn : ℕ} (hover : o.over = some rawConn) : MadeIn c es rawConn :=
  h.madeIn_of_known (((h.traces i call hi).advance hp).1 rawConn hover)

theorem traced_init (c : HTTPConnectDialer) : Traced c [] {} where
  unstarted _ _ := rfl
  traces i call h := absurd h (by simp)
  given i rawConn usable h := absurd h List.not_mem_nil
  cache rawConn h := absurd h (by simp)
  live i t h := absurd h (by simp)

theorem Traced.call (h : Traced c es s) {i : ℕ} (hi : s.calls i = none) (network address : GoString)
    (ctxHeader : Option Header) :
    Traced c (es ++ [.call i network address ctxHeader])
      (s.setCall i ⟨dialContext c network address ctxHeader, .start⟩) := by
  have hhistory : ∀ j, historyOf (es ++ [.call i network address ctxHeader]) j = historyOf es j :=
    fun j => historyOf_concat_of_eq_none es rfl
  constructor
  · intro j hj
    rw [hhistory]
    rcases eq_or_ne j i with rfl | hne
    · exact h.unstarted j hi
    · exact h.unstarted j ((Function.update_of_ne hne _ s.calls).symm.trans hj)
  · intro j call hj
    rw [hhistory]
    rcases eq_or_ne j i with rfl | hne
    · have hcall := Option.some_inj.mp ((Function.update_self j _ s.calls).symm.trans hj)
      rw [← hcall, h.unstarted j hi]
      exact traces_dialContext c network address ctxHeader
    · exact h.traces j call ((Function.update_of_ne hne _ s.calls).symm.trans hj)
  · intro j rawConn usable hmem
    rw [hhistory] at hmem
    exact (h.given j rawConn usable hmem).concat _
  · exact fun rawConn hcache => (h.cache rawConn hcache).concat _
  · exact fun j t hlive => (h.live j t hlive).concat _

theorem Traced.perform (h : Traced c es s) {i : ℕ} {o : Op} {r : Resp o} {call : Call}
    {p : Prog Resp Result} (hi : s.calls i = some call) (hp : call.prog.advance ⟨o, r⟩ = some p)
    (hr : s.possible o r = true) (role : Role) :
    Traced c (es ++ [.perform i ⟨o, r⟩]) ((s.effect i o r).setCall i ⟨p, role⟩) := by
  have hcalls : ((s.effect i o r).setCall i ⟨p, role⟩).calls =
      Function.update s.calls i (some ⟨p, role⟩) := by
    rw [State.setCall, effect_calls]
  constructor
  · intro j hj
    rw [hcalls] at hj
    rcases eq_or_ne j i with rfl | hne
    · exact absurd ((Function.update_self j _ s.calls).symm.trans hj) (by simp)
    · rw [historyOf_perform_of_ne es hne]
      exact h.unstarted j ((Function.update_of_ne hne _ s.calls).symm.trans hj)
  · intro j call' hj
    rw [hcalls] at hj
    rcases eq_or_ne j i with rfl | hne
    · have hcall := Option.some_inj.mp ((Function.update_self j _ s.calls).symm.trans hj)
      rw [← hcall, historyOf_perform_self]
      exact ((h.traces j call hi).advance hp).2
    · rw [historyOf_perform_of_ne es hne]
      exact h.traces j call' ((Function.update_of_ne hne _ s.calls).symm.trans hj)
  · -- the cache answers with what it holds
    intro j rawConn usable hmem
    rcases eq_or_ne j i with rfl | hne
    · rw [historyOf_perform_self] at hmem
      rcases List.mem_append.mp hmem with hold | hnew
      · exact (h.given j rawConn usable hold).concat _
      · cases List.mem_singleton.mp hnew
        have hcache : (some (rawConn, usable)).map Prod.fst = s.cache := of_decide_eq_true hr
        exact (h.cache rawConn hcache.symm).concat _
    · rw [historyOf_perform_of_ne es hne] at hmem
      exact (h.given j rawConn usable hmem).concat _
  · intro rawConn hcache
    rcases s.cache_effect i r hcache with hold | hover
    · exact (h.cache rawConn hold).concat _
    · exact (h.madeIn_of_over hi hp hover).concat _
  · intro j t hlive
    rcases s.live_effect i r hlive with hold | hover
    · exact (h.live j t hold).concat _
    · exact (h.madeIn_of_over hi hp hover).concat _

theorem Traced.closeTunnel (h : Traced c es s) (i : ℕ) (t : Conn) :
    Traced c (es ++ [.closeTunnel i]) (s.closeTunnel i t) := by
  have hhistory : ∀ j, historyOf (es ++ [.closeTunnel i]) j = historyOf es j :=
    fun j => historyOf_concat_of_eq_none es rfl
  have hlive : ∀ j t', Function.update s.live i none j = some t' → s.live j = some t' := by
    intro j t' hj
    rcases eq_or_ne j i with rfl | hne
    · exact absurd ((Function.update_self j _ s.live).symm.trans hj) (by simp)
    · exact (Function.update_of_ne hne _ s.live).symm.trans hj
  cases t <;>
    exact {
      unstarted := fun j hj => (hhistory j).trans (h.unstarted j hj)
      traces := fun j call hj => (hhistory j).symm ▸ h.traces j call hj
      given := fun j rawConn usable hmem => (h.given j rawConn usable (hhistory j ▸ hmem)).concat _
      cache := fun rawConn hcache => (h.cache rawConn hcache).concat _
      live := fun j t' hj => (h.live j t' (hlive j t' hj)).concat _ }

end Traced

/-- **Every run is traced.** -/
theorem traced_of_run {c : HTTPConnectDialer} {es : List Event} {s : State}
    (h : runFrom (step c) {} es = some s) : Traced c es s := by
  refine runFrom_history (traced_init c) (fun es s e s' _ htraced hstep => ?_) h
  cases move_of_step hstep with
  | call hi => exact htraced.call hi _ _ _
  | perform hi hp hr => exact htraced.perform hi hp hr _
  | closeTunnel hi => exact htraced.closeTunnel _ _

/-- An operation that speaks to the upstream does so over a connection that was made before. -/
theorem made_of_speaks {c : HTTPConnectDialer} {pre post : List Event} {s : State} {i : ℕ} {o : Op}
    {r : Resp o} (h : runFrom (step c) {} (pre ++ .perform i ⟨o, r⟩ :: post) = some s) {rawConn : ℕ}
    (hover : o.over = some rawConn) : MadeIn c pre rawConn := by
  rw [runFrom_append, Option.bind_eq_some_iff] at h
  obtain ⟨s₁, hpre, hrest⟩ := h
  rw [runFrom_cons, Option.bind_eq_some_iff] at hrest
  obtain ⟨s₂, hstep, -⟩ := hrest
  cases move_of_step hstep with
  | perform hi hp hr => exact (traced_of_run hpre).madeIn_of_over hi hp hover

end HttpClient
end ForwardProxy
