import ForwardProxy.ConnectUdp.Accounting
import ForwardProxy.ConnectUdp.Canonical

/-!
# How a CONNECT-UDP request ends

A request that asks for a UDP association passes a row of checks, and each of them can end it: the
request line, the upstream, the limits, the access rules, the capabilities of the HTTP/3 server, the
settings of the peer, and the dial.  `Ending` lists the ends and `Ending.Shown` says which answers
of the environment belong to each of them.

Exactly one end shows in a run, and it fixes what the client is told.  The status 200 is written at
most once and behind every check, when the socket is there; the request is malformed to the client
only if `parseConnectUDPTarget` says so, since the policy can split every target that the parser
made; and the dials go through the allowed addresses in the order of the resolver, without a gap,
and stop at the first that succeeds.

The proof goes by the shape of the runs.  `Course` lists the traces of an admitted request with the
end of each; that a run has one of these shapes is one pass over the program.
-/

namespace ForwardProxy
namespace ConnectUdp

open ForwardProxy.Core Prog Acl Dial Serve

/-- The ways in which a request ends. -/
inductive Ending where
  | malformed
  | upstream
  | limited
  | refused (failure : PolicyFailure)
  | incapable
  | contextDone (err : ServeError)
  | noDatagrams
  | unreachable
  | served

/-- What the client is told; `none` is a 200. -/
def Ending.error : Ending → Option ServeError
  | .malformed => some (handlerError 400 (ascii "connect-udp request is malformed"))
  | .upstream => some unsupported
  | .limited => some (handlerError 503 (ascii "connect-udp resource limit reached"))
  | .refused failure => some (policyError failure)
  | .incapable => some unsupported
  | .contextDone err => some err
  | .noDatagrams => some unsupported
  | .unreachable => some (handlerError 502 (ascii "connect-udp target connection failed"))
  | .served => none

/-- An answer of the dialler that gives a socket. -/
def Connects (answer : Option ℕ × Option NetError) : Prop := ∃ udp, answer = (some udp, none)

/-- The resolver's answer in a trace, and what the policy makes of it. -/
def Resolves (h : Handler) (target : ConnectUDPTarget) (tr : List Exchange)
    (result : Except PolicyFailure ResolvedTarget) : Prop :=
  ∃ host port answer, prepareTargetPolicy h target.hostPort = (host, port, none) ∧
    ⟨.lookupIP host, answer⟩ ∈ tr ∧ checkAnswer h host port answer = result

/-- The end can be read off the request, the configuration and the answers. -/
def Ending.Shown (lib : Lib) (h : Handler) (r : Request) (tr : List Exchange) : Ending → Prop
  | .malformed => parseConnectUDPTarget lib r = none
  | .upstream => parseConnectUDPTarget lib r ≠ none ∧ h.upstream.isSome = true
  | .limited => ∃ client, ⟨.acquire client, none⟩ ∈ tr
  | .refused failure => ∃ target, parseConnectUDPTarget lib r = some target ∧
      (∃ client a, ⟨.acquire client, some a⟩ ∈ tr) ∧
      ((prepareTargetPolicy h target.hostPort).2.2 = some failure ∨
        Resolves h target tr (.error failure))
  | .incapable => ⟨.capabilities, false⟩ ∈ tr
  | .contextDone err => ⟨.receivedSettings, some err⟩ ∈ tr
  | .noDatagrams => ∃ answer, answer ≠ some true ∧ ⟨.settings, answer⟩ ∈ tr
  | .unreachable => ⟨.settings, some true⟩ ∈ tr ∧
      ∀ address answer, ⟨.dial address, answer⟩ ∈ tr → ¬ Connects answer
  | .served => ⟨.writeHeader 200, ()⟩ ∈ tr

/-! ## Dials -/

/-- The addresses dialled in a trace, in order. -/
def dialled (tr : List Exchange) : List GoString :=
  tr.filterMap fun x => match x.1 with
    | .dial address => some address
    | _ => none

theorem dialled_append (tr₁ tr₂ : List Exchange) :
    dialled (tr₁ ++ tr₂) = dialled tr₁ ++ dialled tr₂ := List.filterMap_append

/-- The dials of a trace are to these addresses, one after the other, and none gives a socket. -/
inductive Fails : List Exchange → List GoString → Prop
  | nil : Fails [] []
  | cons {address : GoString} {answer : Option ℕ × Option NetError} {tr : List Exchange}
      {addresses : List GoString} (hanswer : ¬ Connects answer) (h : Fails tr addresses) :
      Fails (⟨.dial address, answer⟩ :: tr) (address :: addresses)

theorem Fails.mem {tr : List Exchange} {addresses : List GoString} (h : Fails tr addresses)
    {x : Exchange} (hx : x ∈ tr) :
    ∃ address answer, x = ⟨.dial address, answer⟩ ∧ ¬ Connects answer := by
  induction h with
  | nil => exact absurd hx List.not_mem_nil
  | cons hanswer h ih =>
    rcases List.mem_cons.mp hx with rfl | hx
    · exact ⟨_, _, rfl, hanswer⟩
    · exact ih hx

theorem Fails.dialled_eq {tr : List Exchange} {addresses : List GoString} (h : Fails tr addresses) :
    dialled tr = addresses := by
  induction h with
  | nil => rfl
  | cons hanswer h ih => exact congrArg (_ :: ·) ih

/-- The runs of `dialConnectUDPTarget`. -/
theorem runs_dialConnectUDPTarget {addresses : List GoString} {tr : List Exchange}
    {res : Option ℕ} (hrun : Runs (dialConnectUDPTarget addresses) tr res) :
    (res = none ∧ Fails tr addresses) ∨
      ∃ tried address rest failed udp, addresses = tried ++ address :: rest ∧ Fails failed tried ∧
        tr = failed ++ [⟨.dial address, (some udp, none)⟩] ∧ res = some udp := by
  induction addresses generalizing tr with
  | nil =>
    obtain ⟨rfl, rfl⟩ := runs_ret_iff.mp hrun
    exact .inl ⟨rfl, .nil⟩
  | cons address addresses ih =>
    rw [dialConnectUDPTarget, perform_bind] at hrun
    obtain ⟨answer, tr', rfl, hnext⟩ := runs_op_iff.mp hrun
    by_cases hanswer : Connects answer
    · obtain ⟨udp, rfl⟩ := hanswer
      obtain ⟨rfl, rfl⟩ := runs_ret_iff.mp hnext
      exact .inr ⟨[], address, addresses, [], udp, rfl, .nil, rfl, rfl⟩
    · have hrest : Runs (dialConnectUDPTarget addresses) tr' res := by
        split at hnext
        · exact absurd ⟨_, rfl⟩ hanswer
        · exact hnext
      rcases ih hrest with ⟨hres, hfails⟩ | ⟨tried, a, rest, failed, udp, rfl, hfails, rfl, hres⟩
      · exact .inl ⟨hres, .cons hanswer hfails⟩
      · exact .inr ⟨address :: tried, a, rest, ⟨.dial address, answer⟩ :: failed, udp, rfl,
          .cons hanswer hfails, rfl, hres⟩

/-! ## The shapes of the runs -/

/-- What is done with the socket, from the status on. -/
def Serves (udp : ℕ) (tr : List Exchange) : Prop :=
  (∃ result, tr = [⟨.writeHeader 200, ()⟩, ⟨.httpStream, true⟩, ⟨.awaitResult udp, result⟩,
    ⟨.cancelStream, ()⟩, ⟨.closeUDP udp, ()⟩, ⟨.awaitPumps, ()⟩, ⟨.closeStream, ()⟩]) ∨
  tr = [⟨.writeHeader 200, ()⟩, ⟨.httpStream, false⟩]

theorem runs_serveSocket {udp : ℕ} {tr : List Exchange} {res : GoString × Option ServeError}
    (hrun : Runs (serveSocket udp) tr res) : Serves udp tr ∧ res.2 = none := by
  simp only [serveSocket, perform_bind] at hrun
  obtain ⟨⟨⟩, tr₁, rfl, hstream⟩ := runs_op_iff.mp hrun
  obtain ⟨opened, tr₂, rfl, hopened⟩ := runs_op_iff.mp hstream
  cases opened with
  | true =>
    simp only [if_true, run, perform_bind, op_bind, pure_eq_ret, ret_bind, runs_op_iff,
      runs_ret_iff] at hopened
    obtain ⟨result, _, rfl, ⟨⟩, _, rfl, ⟨⟩, _, rfl, ⟨⟩, _, rfl, ⟨⟩, _, rfl, rfl, rfl⟩ := hopened
    exact ⟨.inl ⟨result, rfl⟩, rfl⟩
  | false =>
    obtain ⟨rfl, rfl⟩ := runs_ret_iff.mp hopened
    exact ⟨.inr rfl, rfl⟩

/-- The traces of a request behind the access rules, with their ends. -/
inductive Course (addresses : List GoString) : List Exchange → Ending → Prop
  | incapable : Course addresses [⟨.capabilities, false⟩] .incapable
  | contextDone (err : ServeError) :
      Course addresses [⟨.capabilities, true⟩, ⟨.receivedSettings, some err⟩] (.contextDone err)
  | noDatagrams {answer : Option Bool} (hanswer : answer ≠ some true) :
      Course addresses [⟨.capabilities, true⟩, ⟨.receivedSettings, none⟩, ⟨.settings, answer⟩]
        .noDatagrams
  | unreachable {dials : List Exchange} (hdials : Fails dials addresses) :
      Course addresses
        (⟨.capabilities, true⟩ :: ⟨.receivedSettings, none⟩ :: ⟨.settings, some true⟩ :: dials)
        .unreachable
  | served {tried rest : List GoString} {address : GoString} {dials tail : List Exchange} {udp : ℕ}
      (haddresses : addresses = tried ++ address :: rest) (hdials : Fails dials tried)
      (htail : Serves udp tail) :
      Course addresses
        (⟨.capabilities, true⟩ :: ⟨.receivedSettings, none⟩ :: ⟨.settings, some true⟩ ::
          (dials ++ ⟨.dial address, (some udp, none)⟩ :: (tail ++ [⟨.closeUDP udp, ()⟩])))
        .served

theorem runs_serveResolved {resolved : ResolvedTarget} {tr : List Exchange}
    {res : GoString × Option ServeError} (hrun : Runs (serveResolved resolved) tr res) :
    ∃ ending, Course resolved.addresses tr ending ∧ res.2 = ending.error := by
  rw [serveResolved, perform_bind] at hrun
  obtain ⟨capable, tr₁, rfl, hcapable⟩ := runs_op_iff.mp hrun
  cases capable with
  | false =>
    obtain ⟨rfl, rfl⟩ := runs_ret_iff.mp hcapable
    exact ⟨.incapable, .incapable, rfl⟩
  | true =>
    rw [if_pos rfl, perform_bind] at hcapable
    obtain ⟨ended, tr₂, rfl, hended⟩ := runs_op_iff.mp hcapable
    cases ended with
    | some err =>
      obtain ⟨rfl, rfl⟩ := runs_ret_iff.mp hended
      exact ⟨.contextDone err, .contextDone err, rfl⟩
    | none =>
      simp only [perform_bind] at hended
      obtain ⟨settings, tr₃, rfl, hsettings⟩ := runs_op_iff.mp hended
      by_cases hdatagrams : settings = some true
      · subst hdatagrams
        obtain ⟨dials, tail, found, rfl, hdial, hfound⟩ := runs_bind_iff.mp hsettings
        rcases runs_dialConnectUDPTarget hdial with
          ⟨rfl, hfails⟩ | ⟨tried, address, rest, failed, udp, haddresses, hfails, rfl, rfl⟩
        · obtain ⟨rfl, rfl⟩ := runs_ret_iff.mp hfound
          rw [List.append_nil]
          exact ⟨.unreachable, .unreachable hfails, rfl⟩
        · obtain ⟨sock, closing, res', rfl, hsock, hclosing⟩ := runs_bind_iff.mp hfound
          obtain ⟨⟨⟩, _, rfl, hret⟩ := runs_op_iff.mp hclosing
          obtain ⟨rfl, rfl⟩ := runs_ret_iff.mp hret
          obtain ⟨hserves, herr⟩ := runs_serveSocket hsock
          refine ⟨.served, ?_, herr⟩
          rw [List.append_assoc]
          exact .served haddresses hfails hserves
      · have hret : Runs (.ret (setupFailed, some unsupported)) tr₃ res := by
          split at hsettings
          · exact absurd rfl hdatagrams
          · exact hsettings
        obtain ⟨rfl, rfl⟩ := runs_ret_iff.mp hret
        exact ⟨.noDatagrams, .noDatagrams hdatagrams, rfl⟩

/-- The traces of the deferred release. -/
def Releases (association : ℕ) (tr : List Exchange) : Prop :=
  ∃ reason, tr = [⟨.beginRelease association reason, false⟩] ∨
    tr = [⟨.beginRelease association reason, true⟩, ⟨.release association, ()⟩]

theorem runs_release {association : ℕ} {reason : GoString} {tr : List Exchange} {res : Unit}
    (hrun : Runs (release association reason) tr res) : Releases association tr := by
  rw [release, perform_bind] at hrun
  obtain ⟨first, tr₁, rfl, hfirst⟩ := runs_op_iff.mp hrun
  cases first with
  | false =>
    obtain ⟨rfl, rfl⟩ := runs_ret_iff.mp hfirst
    exact ⟨reason, .inl rfl⟩
  | true =>
    obtain ⟨⟨⟩, tr₂, rfl, hret⟩ := runs_op_iff.mp hfirst
    obtain ⟨rfl, rfl⟩ := runs_ret_iff.mp hret
    exact ⟨reason, .inr rfl⟩

/-- The traces of a request, with their ends. -/
inductive Whole (lib : Lib) (h : Handler) (r : Request) : List Exchange → Ending → Prop
  | malformed (hparse : parseConnectUDPTarget lib r = none) : Whole lib h r [] .malformed
  | upstream {target : ConnectUDPTarget} (hparse : parseConnectUDPTarget lib r = some target)
      (hupstream : h.upstream.isSome = true) : Whole lib h r [] .upstream
  | limited {target : ConnectUDPTarget} (hparse : parseConnectUDPTarget lib r = some target)
      (hupstream : h.upstream.isSome = false) {client : GoString} :
      Whole lib h r [⟨.acquire client, none⟩] .limited
  | denied {target : ConnectUDPTarget} (hparse : parseConnectUDPTarget lib r = some target)
      (hupstream : h.upstream.isSome = false) {client : GoString} {a : ℕ × UInt64}
      {failure : PolicyFailure}
        (hpolicy : (prepareTargetPolicy h target.hostPort).2.2 = some failure)
      {rel : List Exchange} (hrel : Releases a.1 rel) :
      Whole lib h r (⟨.acquire client, some a⟩ :: rel) (.refused failure)
  | unresolved {target : ConnectUDPTarget} (hparse : parseConnectUDPTarget lib r = some target)
      (hupstream : h.upstream.isSome = false) {client : GoString} {a : ℕ × UInt64}
      {host port : GoString} (hpolicy : prepareTargetPolicy h target.hostPort = (host, port, none))
      {answer : Answer} {failure : PolicyFailure}
      (hcheck : checkAnswer h host port answer = .error failure)
      {rel : List Exchange} (hrel : Releases a.1 rel) :
      Whole lib h r (⟨.acquire client, some a⟩ :: ⟨.lookupIP host, answer⟩ :: rel)
        (.refused failure)
  | resolved {target : ConnectUDPTarget} (hparse : parseConnectUDPTarget lib r = some target)
      (hupstream : h.upstream.isSome = false) {client : GoString} {a : ℕ × UInt64}
      {host port : GoString} (hpolicy : prepareTargetPolicy h target.hostPort = (host, port, none))
      {answer : Answer} {resolved : ResolvedTarget}
      (hcheck : checkAnswer h host port answer = .ok resolved)
      {mid : List Exchange} {ending : Ending} (hmid : Course resolved.addresses mid ending)
      {rel : List Exchange} (hrel : Releases a.1 rel) :
      Whole lib h r (⟨.acquire client, some a⟩ :: ⟨.lookupIP host, answer⟩ :: (mid ++ rel)) ending

/-- Every run has one of the shapes. -/
theorem runs_serveConnectUDP {lib : Lib} {h : Handler} {r : Request} {tr : List Exchange}
    {res : Request × Option ServeError} (hrun : Runs (serveConnectUDP lib h r) tr res) :
    ∃ ending, Whole lib h r tr ending ∧ res.2 = ending.error := by
  unfold serveConnectUDP at hrun
  cases hparse : parseConnectUDPTarget lib r with
  | none =>
    simp only [hparse] at hrun
    obtain ⟨rfl, rfl⟩ := runs_ret_iff.mp hrun
    exact ⟨.malformed, .malformed hparse, rfl⟩
  | some target =>
    simp only [hparse] at hrun
    cases hupstream : h.upstream.isSome with
    | true =>
      rw [hupstream] at hrun
      obtain ⟨rfl, rfl⟩ := runs_ret_iff.mp hrun
      exact ⟨.upstream, .upstream hparse hupstream, rfl⟩
    | false =>
      simp only [hupstream, Bool.false_eq_true, if_false, perform_bind] at hrun
      obtain ⟨admitted, tr₁, rfl, hadmitted⟩ := runs_op_iff.mp hrun
      cases admitted with
      | none =>
        obtain ⟨rfl, rfl⟩ := runs_ret_iff.mp hadmitted
        exact ⟨.limited, .limited hparse hupstream, rfl⟩
      | some a =>
        obtain ⟨mid, rest, ⟨reason, err⟩, rfl, hserve, hrest⟩ := runs_bind_iff.mp hadmitted
        obtain ⟨rel, last, ⟨⟩, rfl, hrelease, hlast⟩ := runs_bind_iff.mp hrest
        obtain ⟨rfl, rfl⟩ := runs_ret_iff.mp hlast
        have hrel := runs_release hrelease
        rw [List.append_nil]
        unfold serveAdmitted at hserve
        split at hserve
        case h_1 host port failure hpolicy =>
          obtain ⟨rfl, heq⟩ := runs_ret_iff.mp hserve
          obtain ⟨rfl, rfl⟩ := Prod.mk.inj heq
          exact ⟨.refused failure, .denied hparse hupstream (by rw [hpolicy]) hrel, rfl⟩
        case h_2 host port hpolicy =>
          rw [perform_bind] at hserve
          obtain ⟨answer, tr₂, rfl, hanswer⟩ := runs_op_iff.mp hserve
          cases hcheck : checkAnswer h host port answer with
          | error failure =>
            rw [hcheck] at hanswer
            obtain ⟨rfl, heq⟩ := runs_ret_iff.mp hanswer
            obtain ⟨rfl, rfl⟩ := Prod.mk.inj heq
            exact ⟨.refused failure, .unresolved hparse hupstream hpolicy hcheck hrel, rfl⟩
          | ok resolved =>
            rw [hcheck] at hanswer
            obtain ⟨ending, hmid, herr⟩ := runs_serveResolved hanswer
            exact ⟨ending, .resolved hparse hupstream hpolicy hcheck hmid hrel, herr⟩

/-! ## One end for each run -/

/-- The ends that come behind the access rules. -/
def Ending.late : Ending → Bool
  | .incapable | .contextDone _ | .noDatagrams | .unreachable | .served => true
  | _ => false

/-- The operations that come before the access rules, or when the request is over. -/
def Op.early : Op → Bool
  | .acquire _ | .beginRelease _ _ | .release _ | .lookupIP _ => true
  | _ => false

section Shown

variable {lib : Lib} {h : Handler} {r : Request} {addresses : List GoString} {tr : List Exchange}
  {ending other : Ending}

/-- A late end depends on the operations behind the access rules only. -/
theorem shown_congr {tr' : List Exchange}
    (htr : ∀ x : Exchange, x.1.early = false → (x ∈ tr ↔ x ∈ tr')) (hlate : other.late = true) :
    other.Shown lib h r tr ↔ other.Shown lib h r tr' := by
  cases other with
  | malformed | upstream | limited | refused _ => cases hlate
  | incapable => exact htr _ rfl
  | contextDone err => exact htr _ rfl
  | noDatagrams => exact exists_congr fun _ => and_congr_right fun _ => htr _ rfl
  | unreachable =>
    refine and_congr (htr _ rfl) (forall_congr' fun address => forall_congr' fun answer => ?_)
    rw [htr ⟨.dial address, answer⟩ rfl]
  | served => exact htr _ rfl

theorem not_shown_nil (hlate : other.late = true) : ¬ other.Shown lib h r [] := by
  cases other with
  | malformed | upstream | limited | refused _ => cases hlate
  | incapable | contextDone _ | served => exact List.not_mem_nil
  | noDatagrams => exact fun ⟨_, _, hmem⟩ => List.not_mem_nil hmem
  | unreachable => exact fun hmem => List.not_mem_nil hmem.1

theorem Releases.early {association : ℕ} (hrel : Releases association tr) {x : Exchange}
    (hx : x ∈ tr) : x.1.early = true := by
  obtain ⟨reason, rfl | rfl⟩ := hrel
  · rw [List.mem_singleton.mp hx]
    rfl
  · rcases List.mem_cons.mp hx with rfl | hx
    · rfl
    · rw [List.mem_singleton.mp hx]
      rfl

theorem Releases.not_acquire {association : ℕ} (hrel : Releases association tr) {client : GoString}
    {answer : Option (ℕ × UInt64)} : ⟨.acquire client, answer⟩ ∉ tr := by
  obtain ⟨reason, rfl | rfl⟩ := hrel
  · simp
  · simp

theorem Releases.not_lookupIP {association : ℕ} (hrel : Releases association tr) {host : GoString}
    {answer : Answer} : ⟨.lookupIP host, answer⟩ ∉ tr := by
  obtain ⟨reason, rfl | rfl⟩ := hrel
  · simp
  · simp

theorem Releases.dialled_eq {association : ℕ} (hrel : Releases association tr) :
    dialled tr = [] := by
  obtain ⟨reason, rfl | rfl⟩ := hrel
  · rfl
  · rfl

theorem Fails.notMem (hfails : Fails tr addresses) {o : Op} {answer : Resp o}
    (ho : ∀ address, o ≠ .dial address) : ⟨o, answer⟩ ∉ tr := by
  intro hmem
  obtain ⟨address, answer', heq, -⟩ := hfails.mem hmem
  exact ho address (Sigma.mk.inj heq).1

theorem Fails.not_connects (hfails : Fails tr addresses) {address : GoString}
    {answer : Option ℕ × Option NetError} (hmem : ⟨.dial address, answer⟩ ∈ tr) :
    ¬ Connects answer := by
  obtain ⟨address', answer', heq, hanswer⟩ := hfails.mem hmem
  obtain ⟨hop, hheq⟩ := Sigma.mk.inj heq
  cases hop
  rwa [eq_of_heq hheq]

theorem Serves.notMem {udp : ℕ} (hserves : Serves udp tr) {o : Op} {answer : Resp o}
    (ho : o = .capabilities ∨ o = .receivedSettings ∨ o = .settings) : ⟨o, answer⟩ ∉ tr := by
  rcases hserves with ⟨result, rfl⟩ | rfl
  · rcases ho with rfl | rfl | rfl <;> simp
  · rcases ho with rfl | rfl | rfl <;> simp

theorem Serves.mem_writeHeader {udp : ℕ} (hserves : Serves udp tr) :
    ⟨.writeHeader 200, ()⟩ ∈ tr := by
  rcases hserves with ⟨result, rfl⟩ | rfl
  · exact List.mem_cons_self
  · exact List.mem_cons_self

theorem Serves.not_early {udp : ℕ} (hserves : Serves udp tr) {x : Exchange} (hx : x ∈ tr) :
    x.1.early = false := by
  rcases hserves with ⟨result, rfl⟩ | rfl
  · simp only [List.mem_cons, List.not_mem_nil, or_false] at hx
    rcases hx with rfl | rfl | rfl | rfl | rfl | rfl | rfl <;> rfl
  · simp only [List.mem_cons, List.not_mem_nil, or_false] at hx
    rcases hx with rfl | rfl <;> rfl

theorem Serves.dialled_eq {udp : ℕ} (hserves : Serves udp tr) : dialled tr = [] := by
  rcases hserves with ⟨result, rfl⟩ | rfl
  · rfl
  · rfl

theorem Course.late (hc : Course addresses tr ending) : ending.late = true := by
  cases hc <;> rfl

theorem Course.not_early (hc : Course addresses tr ending) {x : Exchange} (hx : x ∈ tr) :
    x.1.early = false := by
  have hdial : ∀ {dials : List Exchange} {tried : List GoString}, Fails dials tried → x ∈ dials →
      x.1.early = false := by
    intro dials tried hfails hx
    obtain ⟨address, answer, rfl, -⟩ := hfails.mem hx
    rfl
  cases hc with
  | incapable | contextDone _ | noDatagrams _ =>
    simp only [List.mem_cons, List.not_mem_nil, or_false] at hx
    rcases hx with rfl | rfl | rfl <;> rfl
  | unreachable hdials =>
    simp only [List.mem_cons] at hx
    rcases hx with rfl | rfl | rfl | hx
    · rfl
    · rfl
    · rfl
    · exact hdial hdials hx
  | served haddresses hdials htail =>
    simp only [List.mem_cons, List.mem_append, List.not_mem_nil, or_false] at hx
    rcases hx with rfl | rfl | rfl | hx | rfl | hx | rfl
    · rfl
    · rfl
    · rfl
    · exact hdial hdials hx
    · rfl
    · exact htail.not_early hx
    · rfl

/-- Of the late ends, a trace shows its own and no other. -/
theorem Course.shown_iff (hc : Course addresses tr ending) (hlate : other.late = true) :
    other.Shown lib h r tr ↔ other = ending := by
  cases hc with
  | incapable => cases other <;> simp_all [Ending.Shown, Ending.late]
  | contextDone err => cases other <;> simp_all [Ending.Shown, Ending.late, eq_comm]
  | noDatagrams hanswer => cases other <;> simp_all [Ending.Shown, Ending.late, eq_comm]
  | unreachable hdials =>
    cases other with
    | malformed | upstream | limited | refused _ => cases hlate
    | unreachable =>
      refine iff_of_true ⟨by simp, fun address answer hmem => ?_⟩ rfl
      exact hdials.not_connects (by simpa using hmem)
    | _ => simp [Ending.Shown, hdials.notMem]
  | @served tried rest address dials tail udp haddresses hdials htail =>
    cases other with
    | malformed | upstream | limited | refused _ => cases hlate
    | served => exact iff_of_true (by simp [Ending.Shown, htail.mem_writeHeader]) rfl
    | unreachable =>
      refine iff_of_false (fun hshown => ?_) (by simp)
      exact hshown.2 address (some udp, none) (by simp) ⟨udp, rfl⟩
    | _ => simp [Ending.Shown, hdials.notMem, htail.notMem]

/-- The dials are the first of the allowed addresses, and all of them if none gives a socket. -/
theorem Course.dialled_eq (hc : Course addresses tr ending) :
    dialled tr <+: addresses ∧ (ending = .unreachable → dialled tr = addresses) := by
  cases hc with
  | incapable | contextDone _ | noDatagrams _ =>
    exact ⟨List.nil_prefix, fun heq => absurd heq (by simp)⟩
  | unreachable hdials =>
    have heq := hdials.dialled_eq
    exact ⟨by rw [← heq]; exact List.prefix_refl _, fun _ => heq⟩
  | @served tried rest address dials tail udp haddresses hdials htail =>
    refine ⟨?_, fun heq => absurd heq (by simp)⟩
    have heq : dialled (⟨.capabilities, true⟩ :: ⟨.receivedSettings, none⟩ ::
        ⟨.settings, some true⟩ :: (dials ++ ⟨.dial address, (some udp, none)⟩ ::
          (tail ++ [⟨.closeUDP udp, ()⟩]))) = tried ++ [address] := by
      calc _ = dialled dials ++ (address :: (dialled tail ++ [])) := by
            simp [dialled]
        _ = tried ++ [address] := by
          rw [hdials.dialled_eq, htail.dialled_eq, List.append_nil]
    rw [heq, haddresses]
    exact ⟨rest, by simp⟩

end Shown

/-! ## The status -/

/-- What has been answered when the status is written. -/
structure Ready (pre : List Exchange) (udp : ℕ) : Prop where
  admitted : ∃ client a, ⟨.acquire client, some a⟩ ∈ pre
  resolved : ∃ host ips, ⟨.lookupIP host, .ok ips⟩ ∈ pre
  capable : ⟨.capabilities, true⟩ ∈ pre
  settled : ⟨.receivedSettings, none⟩ ∈ pre
  datagrams : ⟨.settings, some true⟩ ∈ pre
  connected : ∃ address, ⟨.dial address, (some udp, none)⟩ ∈ pre

/-- The status is written once, when everything is ready, and the socket is closed behind it. -/
def WritesOnce (tr : List Exchange) : Prop :=
  ∃ (pre post : List Exchange) (udp : ℕ), tr = pre ++ ⟨.writeHeader 200, ()⟩ :: post ∧
    Ready pre udp ∧ (∀ code, ⟨.writeHeader code, ()⟩ ∉ pre) ∧
    (∀ code, ⟨.writeHeader code, ()⟩ ∉ post) ∧ ⟨.closeUDP udp, ()⟩ ∈ post

/-- A run and its end. -/
structure Explained (lib : Lib) (h : Handler) (r : Request) (tr : List Exchange) (ending : Ending) :
    Prop where
  shown : ending.Shown lib h r tr
  unique : ∀ other : Ending, other.Shown lib h r tr → other = ending
  /-- The policy can read every target that was parsed. -/
  wellFormed : ∀ cause, ending ≠ .refused (.malformed cause)
  /-- No other end writes a status. -/
  status : ∀ code, ⟨.writeHeader code, ()⟩ ∈ tr → ending = .served
  order : ending = .served → WritesOnce tr
  dials : dialled tr ≠ [] → ∃ target resolved, parseConnectUDPTarget lib r = some target ∧
    Resolves h target tr (.ok resolved) ∧ dialled tr <+: resolved.addresses
  exhausted : ending = .unreachable → ∃ target resolved, parseConnectUDPTarget lib r = some target ∧
    Resolves h target tr (.ok resolved) ∧ dialled tr = resolved.addresses

theorem Serves.rest {udp : ℕ} {tr : List Exchange} (hserves : Serves udp tr) :
    ∃ rest : List Exchange, tr = ⟨.writeHeader 200, ()⟩ :: rest ∧
      ∀ code, ⟨.writeHeader code, ()⟩ ∉ rest := by
  rcases hserves with ⟨result, rfl⟩ | rfl
  · exact ⟨_, rfl, fun code => by simp⟩
  · exact ⟨_, rfl, fun code => by simp⟩

theorem Releases.not_writeHeader {association : ℕ} {tr : List Exchange}
    (hrel : Releases association tr) (code : ℕ) : ⟨.writeHeader code, ()⟩ ∉ tr :=
  fun hmem => absurd (hrel.early hmem) (by simp [Op.early])

theorem Course.status {addresses : List GoString} {tr : List Exchange} {ending : Ending}
    (hc : Course addresses tr ending) {code : ℕ} (hmem : ⟨.writeHeader code, ()⟩ ∈ tr) :
    ending = .served := by
  cases hc with
  | incapable | contextDone _ | noDatagrams _ => simp at hmem
  | unreachable hdials => simp [hdials.notMem] at hmem
  | served => rfl

/-- A trace of a served request, with what comes before and behind it. -/
theorem Course.writesOnce {addresses : List GoString} {tr rel : List Exchange}
    (hc : Course addresses tr .served) {association : ℕ} (hrel : Releases association rel)
    {client host : GoString} {a : ℕ × UInt64} {ips : List (Option IP)} :
    WritesOnce (⟨.acquire client, some a⟩ :: ⟨.lookupIP host, .ok ips⟩ :: (tr ++ rel)) := by
  cases hc with
  | @served tried rest address dials tail udp haddresses hdials htail =>
    obtain ⟨tail, rfl, hnone⟩ := htail.rest
    refine ⟨⟨.acquire client, some a⟩ :: ⟨.lookupIP host, .ok ips⟩ :: ⟨.capabilities, true⟩ ::
      ⟨.receivedSettings, none⟩ :: ⟨.settings, some true⟩ ::
        (dials ++ [⟨.dial address, (some udp, none)⟩]), tail ++ ⟨.closeUDP udp, ()⟩ :: rel, udp,
      by simp, ?_, fun code => by simp [hdials.notMem], fun code => ?_, by simp⟩
    · exact ⟨⟨client, a, by simp⟩, ⟨host, ips, by simp⟩, by simp, by simp, by simp,
        address, by simp⟩
    · simp [hnone, hrel.not_writeHeader]

/-- What the policy refuses of a parsed target is never its form. -/
theorem Parsed.policy_ne_malformed {lib : Lib} {h : Handler} {target : ConnectUDPTarget}
    (hparsed : Parsed lib target) {failure : PolicyFailure}
    (hpolicy : (prepareTargetPolicy h target.hostPort).2.2 = some failure) (cause : AddrError) :
    failure ≠ .malformed cause := by
  rintro rfl
  rw [prepareTargetPolicy, hparsed.splitHostPort_hostPort] at hpolicy
  dsimp only at hpolicy
  split at hpolicy
  · simp at hpolicy
  · rcases domainPolicy_eq_none_or h.aclRules target.host with hnone | hdenied
    · simp [hnone] at hpolicy
    · simp [hdenied] at hpolicy

theorem checkAnswer_ne_malformed {h : Handler} {host port : GoString} {answer : Answer}
    {failure : PolicyFailure} (hcheck : checkAnswer h host port answer = .error failure)
    (cause : AddrError) : failure ≠ .malformed cause := by
  rintro rfl
  cases answer with
  | error err => simp [checkAnswer] at hcheck
  | ok ips =>
    simp only [checkAnswer] at hcheck
    split at hcheck <;> simp at hcheck

section Whole

variable {lib : Lib} {h : Handler} {r : Request} {tr : List Exchange} {ending : Ending}

/-- A trace without operations behind the access rules shows no late end. -/
theorem late_eq_false_of_early {other : Ending} (htr : ∀ x ∈ tr, x.1.early = true)
    (hshown : other.Shown lib h r tr) : other.late = false := by
  rw [Bool.eq_false_iff]
  intro hlate
  refine not_shown_nil hlate ((shown_congr (fun x hx => ?_) hlate).mp hshown)
  refine iff_of_false (fun hmem => ?_) List.not_mem_nil
  rw [htr x hmem] at hx
  cases hx

theorem Explained.of_early (htr : ∀ x ∈ tr, x.1.early = true) (hlate : ending.late = false)
    (hshown : ending.Shown lib h r tr)
    (hunique : ∀ other : Ending, other.late = false → other.Shown lib h r tr → other = ending)
    (hform : ∀ cause, ending ≠ .refused (.malformed cause)) : Explained lib h r tr ending where
  shown := hshown
  unique other hother := hunique other (late_eq_false_of_early htr hother) hother
  wellFormed := hform
  status code hmem := absurd (htr _ hmem) (by simp [Op.early])
  order heq := absurd hlate (by simp [heq, Ending.late])
  dials hne := by
    refine absurd (List.filterMap_eq_nil_iff.mpr fun x hx => ?_) hne
    have hearly := htr x hx
    split
    · simp_all [Op.early]
    · rfl
  exhausted heq := absurd hlate (by simp [heq, Ending.late])

/-- The ends of a request that reaches the limits. -/
theorem shown_cases {target : ConnectUDPTarget} (hparse : parseConnectUDPTarget lib r = some target)
    (hupstream : h.upstream.isSome = false) {other : Ending} (hother : other.Shown lib h r tr) :
    other.late = true ∨ (other = .limited ∧ ∃ client, ⟨.acquire client, none⟩ ∈ tr) ∨
      ∃ failure, other = .refused failure ∧ (∃ client a, ⟨.acquire client, some a⟩ ∈ tr) ∧
        ((prepareTargetPolicy h target.hostPort).2.2 = some failure ∨
          Resolves h target tr (.error failure)) := by
  cases other with
  | malformed =>
    rw [Ending.Shown, hparse] at hother
    cases hother
  | upstream =>
    rw [Ending.Shown, hupstream] at hother
    cases hother.2
  | limited => exact .inr (.inl ⟨rfl, hother⟩)
  | refused failure =>
    obtain ⟨target', htarget, hrest⟩ := hother
    obtain rfl : target = target' := Option.some_inj.mp (hparse.symm.trans htarget)
    exact .inr (.inr ⟨failure, rfl, hrest⟩)
  | _ => exact .inl rfl

/-- The one lookup of a trace decides what it resolves to. -/
theorem resolves_iff {target : ConnectUDPTarget} {client host port : GoString}
    {admitted : Option (ℕ × UInt64)} {answer : Answer} {rest : List Exchange}
    {result : Except PolicyFailure ResolvedTarget}
    (hpolicy : prepareTargetPolicy h target.hostPort = (host, port, none))
    (hrest : ∀ host' answer', ⟨.lookupIP host', answer'⟩ ∉ rest) :
    Resolves h target (⟨.acquire client, admitted⟩ :: ⟨.lookupIP host, answer⟩ :: rest) result ↔
      checkAnswer h host port answer = result := by
  constructor
  · rintro ⟨host', port', answer', hpolicy', hmem, hcheck⟩
    obtain ⟨rfl, hports⟩ := Prod.mk.inj (hpolicy.symm.trans hpolicy')
    obtain ⟨rfl, -⟩ := Prod.mk.inj hports
    obtain rfl : answer' = answer := by simpa [hrest] using hmem
    exact hcheck
  · intro hcheck
    exact ⟨host, port, answer, hpolicy, by simp, hcheck⟩

/-- A request that the policy refuses without asking the resolver. -/
theorem explained_denied {target : ConnectUDPTarget}
    (hparse : parseConnectUDPTarget lib r = some target) (hupstream : h.upstream.isSome = false)
    {client : GoString} {a : ℕ × UInt64} {failure : PolicyFailure}
    (hpolicy : (prepareTargetPolicy h target.hostPort).2.2 = some failure) {rel : List Exchange}
    (hrel : Releases a.1 rel) :
    Explained lib h r (⟨.acquire client, some a⟩ :: rel) (.refused failure) := by
  refine .of_early (fun x hx => ?_) rfl ⟨target, hparse, ⟨client, a, by simp⟩, .inl hpolicy⟩
    (fun other hlate hother => ?_) fun cause heq => ?_
  · rcases List.mem_cons.mp hx with rfl | hx
    · rfl
    · exact hrel.early hx
  · rcases shown_cases hparse hupstream hother with
      hlate' | ⟨rfl, client', hmem⟩ | ⟨failure', rfl, -, hrefused | ⟨host, port, answer, hnone, -⟩⟩
    · exact absurd hlate' (by simp [hlate])
    · simp [hrel.not_acquire] at hmem
    · rw [Option.some_inj.mp (hrefused.symm.trans hpolicy)]
    · rw [hnone] at hpolicy
      cases hpolicy
  · have hparsed := parsed_of_parseConnectUDPTarget hparse
    exact hparsed.policy_ne_malformed hpolicy cause (Ending.refused.inj heq)

/-- A request that the policy refuses for the answer of the resolver. -/
theorem explained_unresolved {target : ConnectUDPTarget}
    (hparse : parseConnectUDPTarget lib r = some target) (hupstream : h.upstream.isSome = false)
    {client host port : GoString} {a : ℕ × UInt64} {answer : Answer} {failure : PolicyFailure}
    (hpolicy : prepareTargetPolicy h target.hostPort = (host, port, none))
    (hcheck : checkAnswer h host port answer = .error failure) {rel : List Exchange}
    (hrel : Releases a.1 rel) :
    Explained lib h r (⟨.acquire client, some a⟩ :: ⟨.lookupIP host, answer⟩ :: rel)
      (.refused failure) := by
  have hresolves : ∀ result, Resolves h target
      (⟨.acquire client, some a⟩ :: ⟨.lookupIP host, answer⟩ :: rel) result ↔
        checkAnswer h host port answer = result :=
    fun result => resolves_iff hpolicy fun host' answer' => hrel.not_lookupIP
  refine .of_early (fun x hx => ?_) rfl
    ⟨target, hparse, ⟨client, a, by simp⟩, .inr ((hresolves _).mpr hcheck)⟩
    (fun other hlate hother => ?_)
    fun cause heq => checkAnswer_ne_malformed hcheck cause (Ending.refused.inj heq)
  · rcases List.mem_cons.mp hx with rfl | hx
    · rfl
    · rcases List.mem_cons.mp hx with rfl | hx
      · rfl
      · exact hrel.early hx
  · rcases shown_cases hparse hupstream hother with
      hlate' | ⟨rfl, client', hmem⟩ | ⟨failure', rfl, -, hrefused | hrefused⟩
    · exact absurd hlate' (by simp [hlate])
    · simp [hrel.not_acquire] at hmem
    · rw [hpolicy] at hrefused
      cases hrefused
    · have heq := hcheck.symm.trans ((hresolves _).mp hrefused)
      rw [Except.error.inj heq]

/-- A request that gets behind the access rules. -/
theorem explained_resolved {target : ConnectUDPTarget}
    (hparse : parseConnectUDPTarget lib r = some target) (hupstream : h.upstream.isSome = false)
    {client host port : GoString} {a : ℕ × UInt64} {answer : Answer} {resolved : ResolvedTarget}
    (hpolicy : prepareTargetPolicy h target.hostPort = (host, port, none))
    (hcheck : checkAnswer h host port answer = .ok resolved) {mid rel : List Exchange}
    (hmid : Course resolved.addresses mid ending) (hrel : Releases a.1 rel) :
    Explained lib h r (⟨.acquire client, some a⟩ :: ⟨.lookupIP host, answer⟩ :: (mid ++ rel))
      ending := by
  -- nothing behind the access rules is admission, resolution or release, so the two parts of the
  -- trace are read on their own
  have hmem : ∀ x : Exchange, x.1.early = false →
      (x ∈ (⟨.acquire client, some a⟩ :: ⟨.lookupIP host, answer⟩ :: (mid ++ rel) : List Exchange) ↔
        x ∈ mid) := by
    intro x hx
    simp only [List.mem_cons, List.mem_append]
    constructor
    · rintro (rfl | rfl | hmid | hrel')
      · cases hx
      · cases hx
      · exact hmid
      · rw [hrel.early hrel'] at hx
        cases hx
    · exact fun hx => .inr (.inr (.inl hx))
  have hnot : ∀ (o : Op) (answer : Resp o), o.early = true → ⟨o, answer⟩ ∉ mid := by
    intro o answer ho hmem
    rw [hmid.not_early hmem] at ho
    cases ho
  have hresolves : ∀ result, Resolves h target
      (⟨.acquire client, some a⟩ :: ⟨.lookupIP host, answer⟩ :: (mid ++ rel)) result ↔
        checkAnswer h host port answer = result :=
    fun result => resolves_iff hpolicy fun host' answer' hlookup =>
      (List.mem_append.mp hlookup).elim (hnot _ _ rfl) hrel.not_lookupIP
  have hdialled : dialled (⟨.acquire client, some a⟩ :: ⟨.lookupIP host, answer⟩ :: (mid ++ rel)) =
      dialled mid := by
    calc _ = dialled (mid ++ rel) := rfl
      _ = dialled mid := by rw [dialled_append, hrel.dialled_eq, List.append_nil]
  have hfound := (hresolves _).mpr hcheck
  refine ⟨?_, fun other hother => ?_, ?_, fun code hcode => hmid.status ((hmem _ rfl).mp hcode), ?_,
    fun _ => ?_, ?_⟩
  · exact (shown_congr hmem hmid.late).mpr ((hmid.shown_iff hmid.late).mpr rfl)
  · rcases shown_cases hparse hupstream hother with
      hlate | ⟨rfl, client', hlimited⟩ | ⟨failure, rfl, -, hrefused | hrefused⟩
    · exact (hmid.shown_iff hlate).mp ((shown_congr hmem hlate).mp hother)
    · simp [hrel.not_acquire,
        hnot _ _ (show (Op.acquire client').early = true from rfl)] at hlimited
    · rw [hpolicy] at hrefused
      cases hrefused
    · cases hcheck.symm.trans ((hresolves _).mp hrefused)
  · rintro cause rfl
    cases hmid.late
  · rintro rfl
    cases answer with
    | error err => cases hcheck
    | ok ips => exact hmid.writesOnce hrel
  · rw [hdialled]
    exact ⟨target, resolved, hparse, hfound, hmid.dialled_eq.1⟩
  · intro heq
    rw [hdialled]
    exact ⟨target, resolved, hparse, hfound, hmid.dialled_eq.2 heq⟩

/-- The shapes explain themselves. -/
theorem Whole.explained (hw : Whole lib h r tr ending) : Explained lib h r tr ending := by
  cases hw with
  | malformed hparse =>
    refine .of_early (fun x hx => absurd hx List.not_mem_nil) rfl hparse
      (fun other hlate hother => ?_) (fun cause => by simp)
    cases other with
    | malformed => rfl
    | upstream => exact absurd hparse hother.1
    | limited =>
      obtain ⟨client, hmem⟩ := hother
      exact absurd hmem List.not_mem_nil
    | refused failure =>
      obtain ⟨target, htarget, -⟩ := hother
      rw [hparse] at htarget
      cases htarget
    | _ => cases hlate
  | upstream hparse hupstream =>
    refine .of_early (fun x hx => absurd hx List.not_mem_nil) rfl
      ⟨by rw [hparse]; simp, hupstream⟩ (fun other hlate hother => ?_) (fun cause => by simp)
    cases other with
    | malformed =>
      rw [Ending.Shown, hparse] at hother
      cases hother
    | upstream => rfl
    | limited =>
      obtain ⟨client, hmem⟩ := hother
      exact absurd hmem List.not_mem_nil
    | refused failure =>
      obtain ⟨target, -, ⟨client, a, hmem⟩, -⟩ := hother
      exact absurd hmem List.not_mem_nil
    | _ => cases hlate
  | @limited target hparse hupstream client =>
    refine .of_early (fun x hx => by rw [List.mem_singleton.mp hx]; rfl) rfl
      ⟨client, List.mem_singleton.mpr rfl⟩ (fun other hlate hother => ?_) (fun cause => by simp)
    rcases shown_cases hparse hupstream hother with
      hlate' | ⟨rfl, -⟩ | ⟨failure, rfl, ⟨client', a, hmem⟩, -⟩
    · exact absurd hlate' (by simp [hlate])
    · rfl
    · simp at hmem
  | denied hparse hupstream hpolicy hrel => exact explained_denied hparse hupstream hpolicy hrel
  | unresolved hparse hupstream hpolicy hcheck hrel =>
    exact explained_unresolved hparse hupstream hpolicy hcheck hrel
  | resolved hparse hupstream hpolicy hcheck hmid hrel =>
    exact explained_resolved hparse hupstream hpolicy hcheck hmid hrel

end Whole

/-- **The end of a request.**  Every run of `serveConnectUDP` has exactly one end that shows in the
request, the configuration and the answers of the environment, and the error that is returned is
that of the end.  A status is written only by a run that serves, once, behind all checks and with a
socket that is closed again; a parsed target is never refused as malformed; and the dials are the
first of the allowed addresses in their order, all of them if the request ends unreachable. -/
theorem connectUDP_ends {lib : Lib} {h : Handler} {r : Request} {tr : List Exchange}
    {res : Request × Option ServeError} (hrun : Runs (serveConnectUDP lib h r) tr res) :
    ∃ ending, Explained lib h r tr ending ∧ res.2 = ending.error := by
  obtain ⟨ending, hwhole, herr⟩ := runs_serveConnectUDP hrun
  exact ⟨ending, hwhole.explained, herr⟩

/-- The second address of a target is dialled when the first gives no socket; the client resets the
stream at once. -/
def secondAddress : List Exchange :=
  [⟨.acquire (ascii "198.51.100.7"), some (0, 1)⟩,
    ⟨.lookupIP (ascii "192.0.2.1"), .ok [some [192, 0, 2, 1], none, some [192, 0, 2, 2]]⟩,
    ⟨.capabilities, true⟩, ⟨.receivedSettings, none⟩, ⟨.settings, some true⟩,
    ⟨.dial (ascii "192.0.2.1:443"), (none, some .deadlineExceeded)⟩,
    ⟨.dial (ascii "192.0.2.2:443"), (some 7, none)⟩,
    ⟨.writeHeader 200, ()⟩, ⟨.httpStream, true⟩, ⟨.awaitResult 7, .canceled⟩, ⟨.cancelStream, ()⟩,
    ⟨.closeUDP 7, ()⟩, ⟨.awaitPumps, ()⟩, ⟨.closeStream, ()⟩, ⟨.closeUDP 7, ()⟩,
    ⟨.beginRelease 0 (ascii "canceled"), true⟩, ⟨.release 0, ()⟩]

theorem connectUDP_ends_secondAddress :
    ∃ res, Runs (serveConnectUDP asciiLib roomForOne udpRequest) secondAddress res ∧
      res.2 = none ∧ Explained asciiLib roomForOne udpRequest secondAddress .served := by
  have hreplay : ((serveConnectUDP asciiLib roomForOne udpRequest).replay secondAddress).map
      (fun res => res.2.isNone) = some true := by decide +kernel
  obtain ⟨res, hres, hnone⟩ := Option.map_eq_some_iff.mp hreplay
  have hrun := runs_of_replay hres
  obtain ⟨ending, hexplained, herr⟩ := connectUDP_ends hrun
  obtain rfl := hexplained.status 200 (by simp [secondAddress])
  exact ⟨res, hrun, herr, hexplained⟩

end ConnectUdp
end ForwardProxy
