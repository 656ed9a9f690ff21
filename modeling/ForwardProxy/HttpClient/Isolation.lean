import ForwardProxy.HttpClient.Tunnels

/-!
# Tunnel isolation

A connection that a call owns, or that is an HTTP/1 tunnel, is known to no other call and not
to the cache.  This is the invariant of the machine of `HttpClient.Tunnels` (`Inv`).  A step
concerns one call only, which learns of a connection from the cache or by making it; that is
`Local`, and a local step keeps the invariant (`Inv.of_local`, the frame rule), so that for
each operation only locality has to be shown.

With the invariant, a `Close` by an owner hurts nobody.  What remains is the `Close` of a call
that failed on the cached connection, and with it the one way in which a live tunnel loses its
raw connection.

## Main results

* `tunnels_isolated`: in a run in which no call closes the cached connection under a live
  tunnel, the raw connection of every live tunnel is open; and a step that does close it is
  the only kind of step that breaks this.
-/

namespace ForwardProxy
namespace HttpClient

open ForwardProxy.Core Prog State

/-! ## Who knows a connection -/

/-- The role of a call that has this tunnel. -/
def Conn.role : Conn → Role
  | .raw _ => .handedOver
  | .http2 rc => .published rc

namespace State

/-- Call `i`, or the tunnel it made, knows the connection. -/
def Refers (s : State) (i rc : ℕ) : Prop :=
  (∃ call, s.calls i = some call ∧ call.role.conn = some rc) ∨
    ∃ t, s.live i = some t ∧ t.rawConn = rc

/-- Call `i` owns the connection, or the connection is the tunnel it made. -/
def Holds (s : State) (i rc : ℕ) : Prop :=
  (∃ call, s.calls i = some call ∧ call.role = .owner rc) ∨ s.live i = some (.raw rc)

theorem Holds.refers {s : State} {i rc : ℕ} (h : s.Holds i rc) : s.Refers i rc := by
  rcases h with ⟨call, hi, hrole⟩ | hi
  · exact Or.inl ⟨call, hi, by rw [hrole]; rfl⟩
  · exact Or.inr ⟨_, hi, rfl⟩

end State

/-- The invariant: what is held by one call is unknown to the others and to the cache. -/
structure Inv (s : State) : Prop where
  keeps : ∀ i call, s.calls i = some call → Keeps (fun _ _ => True) call.role call.prog
  settled : ∀ i t, s.live i = some t → ∃ call, s.calls i = some call ∧ call.role = t.role
  refers_lt : ∀ i rc, s.Refers i rc → rc < s.raws.length
  cache_lt : ∀ rc, s.cache = some rc → rc < s.raws.length
  alone : ∀ i rc, s.Holds i rc → s.cache ≠ some rc ∧ ∀ j, j ≠ i → ¬ s.Refers j rc

/-- What a step of call `i` may do: everything about the other calls stays as it is, and call
`i` learns of a connection only from the cache or by making it. -/
structure Local (i : ℕ) (s s' : State) : Prop where
  calls : ∀ j, j ≠ i → s'.calls j = s.calls j
  live : ∀ j, j ≠ i → s'.live j = s.live j
  length_le : s.raws.length ≤ s'.raws.length
  keeps : ∀ call, s'.calls i = some call → Keeps (fun _ _ => True) call.role call.prog
  settled : ∀ t, s'.live i = some t → ∃ call, s'.calls i = some call ∧ call.role = t.role
  refers : ∀ rc, s'.Refers i rc → s.Refers i rc ∨ s.cache = some rc ∨
    rc = s.raws.length ∧ rc < s'.raws.length
  holds : ∀ rc, s'.Holds i rc → (s.Holds i rc ∨ rc = s.raws.length) ∧ s'.cache ≠ some rc
  cache : s'.cache = s.cache ∨ ∃ rc, s'.cache = some rc ∧ s.Refers i rc

/-- **The frame rule.** -/
theorem Inv.of_local {i : ℕ} {s s' : State} (h : Inv s) (hl : Local i s s') : Inv s' := by
  have hrefers : ∀ j, j ≠ i → ∀ rc, s'.Refers j rc ↔ s.Refers j rc := by
    intro j hj rc
    unfold Refers
    rw [hl.calls j hj, hl.live j hj]
  have hholds : ∀ j, j ≠ i → ∀ rc, s'.Holds j rc ↔ s.Holds j rc := by
    intro j hj rc
    unfold Holds
    rw [hl.calls j hj, hl.live j hj]
  refine ⟨?_, ?_, ?_, ?_, ?_⟩
  · intro j call hcall
    rcases eq_or_ne j i with rfl | hj
    · exact hl.keeps call hcall
    · exact h.keeps j call (hl.calls j hj ▸ hcall)
  · intro j t ht
    rcases eq_or_ne j i with rfl | hj
    · exact hl.settled t ht
    · rw [hl.live j hj] at ht
      rw [hl.calls j hj]
      exact h.settled j t ht
  · intro j rc hrc
    rcases eq_or_ne j i with rfl | hj
    · rcases hl.refers rc hrc with hold | hcache | hnew
      · exact (h.refers_lt j rc hold).trans_le hl.length_le
      · exact (h.cache_lt rc hcache).trans_le hl.length_le
      · exact hnew.2
    · exact (h.refers_lt j rc ((hrefers j hj rc).mp hrc)).trans_le hl.length_le
  · intro rc hrc
    rcases hl.cache with hsame | ⟨rc', hrc', hknown⟩
    · exact (h.cache_lt rc (hsame ▸ hrc)).trans_le hl.length_le
    · obtain rfl : rc' = rc := Option.some_inj.mp (hrc'.symm.trans hrc)
      exact (h.refers_lt i rc' hknown).trans_le hl.length_le
  · intro j rc hrc
    rcases eq_or_ne j i with rfl | hj
    · -- the call itself: what it holds is new, or was unknown to the others before
      obtain ⟨hold, hcache⟩ := hl.holds rc hrc
      refine ⟨hcache, fun k hk hknown => ?_⟩
      rw [hrefers k hk] at hknown
      rcases hold with hold | rfl
      · exact (h.alone j rc hold).2 k hk hknown
      · exact Nat.lt_irrefl _ (h.refers_lt k _ hknown)
    · -- another call: what it holds could reach neither the cache nor call `i`
      rw [hholds j hj] at hrc
      obtain ⟨hcache, halone⟩ := h.alone j rc hrc
      refine ⟨fun hc => ?_, fun k hk hknown => ?_⟩
      · rcases hl.cache with hsame | ⟨rc', hrc', hknown⟩
        · exact hcache (hsame ▸ hc)
        · obtain rfl : rc' = rc := Option.some_inj.mp (hrc'.symm.trans hc)
          exact halone i (Ne.symm hj) hknown
      · rcases eq_or_ne k i with rfl | hki
        · rcases hl.refers rc hknown with hold | hc | ⟨rfl, -⟩
          · exact halone k hk hold
          · exact hcache hc
          · exact Nat.lt_irrefl _ (h.refers_lt j _ hrc.refers)
        · exact halone k hk ((hrefers k hki rc).mp hknown)

/-- A call that is not at its end has no tunnel. -/
theorem Inv.live_eq_none {i : ℕ} {s : State} {call : Call} (h : Inv s)
    (hi : s.calls i = some call) (hrole : ∀ t : Conn, call.role ≠ t.role) : s.live i = none := by
  cases hlive : s.live i with
  | none => rfl
  | some t =>
    obtain ⟨call', hi', hrole'⟩ := h.settled i t hlive
    obtain rfl : call = call' := Option.some_inj.mp (hi.symm.trans hi')
    exact absurd hrole' (hrole t)

/-! ## The steps of a call are local -/

theorem Role.conn_fail (role : Role) : role.fail.conn = role.conn := by
  cases role <;> rfl

theorem Role.fail_eq_owner_iff {role : Role} {rc : ℕ} :
    role.fail = .owner rc ↔ role = .owner rc := by
  cases role <;> simp [Role.fail]

/-- Only the last operation of a call is allowed once it has its tunnel. -/
theorem Role.Allows.ne_role {role : Role} {o : Op} (h : role.Allows o)
    (ho : ∀ rc, o ≠ .setCached rc) (t : Conn) : role ≠ t.role := by
  rintro rfl
  cases t <;> cases o <;> simp_all [Role.Allows, Role.Dials, Conn.role]

section Steps

variable {i : ℕ} {s t : State} {call : Call} {role : Role} {p : Prog Resp Result}

theorem eq_of_setCall {call' : Call} (h : (t.setCall i call).calls i = some call') :
    call = call' :=
  Option.some_inj.mp ((Function.update_self i _ _).symm.trans h)

/-- A step of a call that has no tunnel and gets none. -/
theorem local_of_role (hnone : s.live i = none) (hcalls : t.calls = s.calls)
    (hlive : t.live = s.live) (hlength : s.raws.length ≤ t.raws.length)
    (hp : Keeps (fun _ _ => True) role p)
    (hconn : ∀ rc, role.conn = some rc → s.Refers i rc ∨ s.cache = some rc ∨
      rc = s.raws.length ∧ rc < t.raws.length)
    (howner : ∀ rc, role = .owner rc → (s.Holds i rc ∨ rc = s.raws.length) ∧ t.cache ≠ some rc)
    (hcache : t.cache = s.cache) :
    Local i s (t.setCall i ⟨p, role⟩) where
  calls j hj := by
    rw [← hcalls]
    exact Function.update_of_ne hj _ _
  live j _ := congrFun hlive j
  length_le := hlength
  keeps call' h' := by
    obtain rfl := eq_of_setCall h'
    exact hp
  settled u hu := absurd ((congrFun hlive i).symm.trans hu) (by simp [hnone])
  refers rc := by
    rintro (⟨call', h', hrc⟩ | ⟨u, hu, -⟩)
    · obtain rfl := eq_of_setCall h'
      exact hconn rc hrc
    · exact absurd ((congrFun hlive i).symm.trans hu) (by simp [hnone])
  holds rc := by
    rintro (⟨call', h', hrc⟩ | hu)
    · obtain rfl := eq_of_setCall h'
      exact howner rc hrc
    · exact absurd ((congrFun hlive i).symm.trans hu) (by simp [hnone])
  cache := Or.inl hcache

/-- A step that leaves the role, or fails it. -/
theorem local_of_same (h : Inv s) (hi : s.calls i = some call) (hnone : s.live i = none)
    (hcalls : t.calls = s.calls) (hlive : t.live = s.live) (hcache : t.cache = s.cache)
    (hlength : t.raws.length = s.raws.length) (hp : Keeps (fun _ _ => True) role p)
    (hrole : role = call.role ∨ role = call.role.fail) :
    Local i s (t.setCall i ⟨p, role⟩) := by
  have hconn : role.conn = call.role.conn := by
    rcases hrole with rfl | rfl
    · rfl
    · exact call.role.conn_fail
  have howner : ∀ rc, role = .owner rc → call.role = .owner rc := by
    rcases hrole with rfl | rfl
    · exact fun _ => id
    · exact fun _ => Role.fail_eq_owner_iff.mp
  refine local_of_role hnone hcalls hlive hlength.ge hp ?_ ?_ hcache
  · intro rc hrc
    exact Or.inl (Or.inl ⟨call, hi, hconn ▸ hrc⟩)
  · intro rc hrc
    have hheld : s.Holds i rc := Or.inl ⟨call, hi, howner rc hrc⟩
    exact ⟨Or.inl hheld, hcache ▸ (h.alone i rc hheld).1⟩

/-- A step that makes a connection. -/
theorem local_of_dial (h : Inv s) (hnone : s.live i = none)
    (hp : Keeps (fun _ _ => True) (.owner s.raws.length) p) :
    Local i s (s.addRaw.setCall i ⟨p, .owner s.raws.length⟩) := by
  have hlength : s.addRaw.raws.length = s.raws.length + 1 := by simp [addRaw]
  refine local_of_role hnone rfl rfl (by omega) hp ?_ ?_ rfl
  · intro rc hrc
    obtain rfl : s.raws.length = rc := Option.some_inj.mp hrc
    exact Or.inr (Or.inr ⟨rfl, by omega⟩)
  · intro rc hrc
    obtain rfl : s.raws.length = rc := Role.owner.inj hrc
    exact ⟨Or.inr rfl, fun hc => Nat.lt_irrefl _ (h.cache_lt _ hc)⟩

/-- A step that makes a tunnel. -/
theorem local_of_tunnel (h : Inv s) (hi : s.calls i = some call) {u : Conn}
    (hconn : call.role.conn = some u.rawConn) (hraw : ∀ rc, u = .raw rc → call.role = .owner rc)
    (hp : Keeps (fun _ _ => True) u.role p) :
    Local i s ((s.addTunnel i u).setCall i ⟨p, u.role⟩) where
  calls j hj := Function.update_of_ne hj _ _
  live j hj := Function.update_of_ne hj _ _
  length_le := le_rfl
  keeps call' h' := by
    obtain rfl := eq_of_setCall h'
    exact hp
  settled v hv := by
    obtain rfl := Option.some_inj.mp ((Function.update_self i _ _).symm.trans hv)
    exact ⟨_, Function.update_self i _ _, rfl⟩
  refers rc := by
    rintro (⟨call', h', hrc⟩ | ⟨v, hv, hrc⟩)
    · obtain rfl := eq_of_setCall h'
      cases u with
      | raw rc' => cases hrc
      | http2 rc' =>
        cases hrc
        exact Or.inl (Or.inl ⟨call, hi, hconn⟩)
    · obtain rfl := Option.some_inj.mp ((Function.update_self i _ _).symm.trans hv)
      exact Or.inl (Or.inl ⟨call, hi, hrc ▸ hconn⟩)
  holds rc := by
    rintro (⟨call', h', hrc⟩ | hv)
    · obtain rfl := eq_of_setCall h'
      cases u <;> cases hrc
    · have hu := Option.some_inj.mp ((Function.update_self i _ _).symm.trans hv)
      have hheld : s.Holds i rc := Or.inl ⟨call, hi, hraw rc hu⟩
      exact ⟨Or.inl hheld, (h.alone i rc hheld).1⟩
  cache := Or.inl rfl

/-- The step that puts a connection into the cache. -/
theorem local_of_setCached (h : Inv s) (hi : s.calls i = some call) {rc : ℕ}
    (hrole : call.role = .published rc ∨ call.role = .owner rc)
    (hp : Keeps (fun _ _ => True) (.published rc) p) :
    Local i s (({ s with cache := some rc } : State).setCall i ⟨p, .published rc⟩) where
  calls j hj := Function.update_of_ne hj _ _
  live _ _ := rfl
  length_le := le_rfl
  keeps call' h' := by
    obtain rfl := eq_of_setCall h'
    exact hp
  settled u hu := by
    obtain ⟨call', hi', hu'⟩ := h.settled i u hu
    obtain rfl : call = call' := Option.some_inj.mp (hi.symm.trans hi')
    refine ⟨_, Function.update_self i _ _, ?_⟩
    rcases hrole with hrole | hrole
    · exact hrole.symm.trans hu'
    · cases u <;> cases hrole.symm.trans hu'
  refers rc' := by
    rintro (⟨call', h', hrc⟩ | hv)
    · obtain rfl := eq_of_setCall h'
      refine Or.inl (Or.inl ⟨call, hi, ?_⟩)
      rcases hrole with hrole | hrole <;> rw [hrole] <;> exact hrc
    · exact Or.inl (Or.inr hv)
  holds rc' := by
    rintro (⟨call', h', hrc⟩ | hv)
    · obtain rfl := eq_of_setCall h'
      cases hrc
    · obtain ⟨call', hi', hu'⟩ := h.settled i _ hv
      obtain rfl : call = call' := Option.some_inj.mp (hi.symm.trans hi')
      rcases hrole with hrole | hrole <;> cases hrole.symm.trans hu'
  cache := by
    refine Or.inr ⟨rc, rfl, Or.inl ⟨call, hi, ?_⟩⟩
    rcases hrole with hrole | hrole <;> rw [hrole] <;> rfl

end Steps

/-- An operation of a call is local. -/
theorem local_of_perform {i : ℕ} {s : State} {call : Call} {p : Prog Resp Result} (h : Inv s)
    (hi : s.calls i = some call) {o : Op} {r : Resp o} (hallows : call.role.Allows o)
    (hr : s.possible o r = true) (hp : Keeps (fun _ _ => True) (call.role.next o r) p) :
    Local i s ((s.effect i o r).setCall i ⟨p, call.role.next o r⟩) := by
  have hnone : (∀ rc, o ≠ .setCached rc) → s.live i = none := fun ho =>
    h.live_eq_none hi (hallows.ne_role ho)
  cases o with
  | cached =>
    rcases r with _ | ⟨rc, _ | _⟩
    · exact local_of_same h hi (hnone nofun) rfl rfl rfl rfl hp (Or.inl rfl)
    · exact local_of_same h hi (hnone nofun) rfl rfl rfl rfl hp (Or.inl rfl)
    · have hc : s.cache = some rc := (of_decide_eq_true hr).symm
      refine local_of_role (hnone nofun) rfl rfl le_rfl hp ?_ nofun rfl
      intro rc' hrc
      exact Or.inr (Or.inl (hc.trans hrc))
  | dial network host =>
    rcases r with err | rc
    · exact local_of_same h hi (hnone nofun) rfl rfl rfl rfl hp (Or.inl rfl)
    · obtain rfl : rc = s.raws.length := of_decide_eq_true hr
      exact local_of_dial h (hnone nofun) hp
  | dialTLS network host =>
    rcases r with err | ⟨rc, negotiatedProtocol⟩
    · exact local_of_same h hi (hnone nofun) rfl rfl rfl rfl hp (Or.inl rfl)
    · obtain rfl : rc = s.raws.length := of_decide_eq_true hr
      exact local_of_dial h (hnone nofun) hp
  | tlsDial network host =>
    rcases r with err | rc
    · exact local_of_same h hi (hnone nofun) rfl rfl rfl rfl hp (Or.inl rfl)
    · obtain rfl : rc = s.raws.length := of_decide_eq_true hr
      exact local_of_dial h (hnone nofun) hp
  | handshake rc => exact local_of_same h hi (hnone nofun) rfl rfl rfl rfl hp (Or.inl rfl)
  | negotiated rc => exact local_of_same h hi (hnone nofun) rfl rfl rfl rfl hp (Or.inl rfl)
  | newClientConn rc => exact local_of_same h hi (hnone nofun) rfl rfl rfl rfl hp (Or.inl rfl)
  | roundTrip rc req =>
    rcases r with err | resp
    · exact local_of_same h hi (hnone nofun) rfl rfl rfl rfl hp (Or.inr rfl)
    · simp only [effect, Role.next] at hp ⊢
      by_cases hresp : resp.statusCode = 200
      · rw [if_pos hresp] at hp ⊢
        rw [if_pos hresp]
        refine local_of_tunnel (u := .http2 rc) h hi ?_ nofun hp
        rcases hallows with hrole | hrole <;> rw [hrole] <;> rfl
      · rw [if_neg hresp] at hp ⊢
        rw [if_neg hresp]
        exact local_of_same h hi (hnone nofun) rfl rfl rfl rfl hp (Or.inr rfl)
  | write rc req => exact local_of_same h hi (hnone nofun) rfl rfl rfl rfl hp (Or.inl rfl)
  | readResponse rc =>
    rcases r with err | resp
    · exact local_of_same h hi (hnone nofun) rfl rfl rfl rfl hp (Or.inl rfl)
    · simp only [effect, Role.next] at hp ⊢
      have hrole : call.role = .owner rc := hallows
      by_cases hresp : resp.statusCode = 200
      · rw [if_pos hresp] at hp ⊢
        rw [if_pos hresp]
        refine local_of_tunnel (u := .raw rc) h hi (by rw [hrole]; rfl) ?_ hp
        rintro rc' ⟨⟩
        exact hrole
      · rw [if_neg hresp] at hp ⊢
        rw [if_neg hresp]
        exact local_of_same h hi (hnone nofun) rfl rfl rfl rfl hp (Or.inl rfl)
  | close rc =>
    exact local_of_same h hi (hnone nofun) rfl rfl rfl (List.length_set ..) hp (Or.inl rfl)
  | setCached rc => exact local_of_setCached h hi hallows hp

theorem local_of_call {i : ℕ} {s : State} (h : Inv s) (hi : s.calls i = none)
    {p : Prog Resp Result} (hp : Keeps (fun _ _ => True) .start p) :
    Local i s (s.setCall i ⟨p, .start⟩) := by
  have hnone : s.live i = none := by
    cases hlive : s.live i with
    | none => rfl
    | some t =>
      obtain ⟨call, hcall, -⟩ := h.settled i t hlive
      exact absurd (hi.symm.trans hcall) (by simp)
  exact local_of_role hnone rfl rfl le_rfl hp nofun nofun rfl

theorem local_of_closeTunnel (i : ℕ) {s : State} (h : Inv s) (t : Conn) :
    Local i s (s.closeTunnel i t) := by
  have hcalls : (s.closeTunnel i t).calls = s.calls := by cases t <;> rfl
  have hcache : (s.closeTunnel i t).cache = s.cache := by cases t <;> rfl
  have hlive : (s.closeTunnel i t).live = Function.update s.live i none := by cases t <;> rfl
  have hnone : (s.closeTunnel i t).live i = none := by rw [hlive, Function.update_self]
  have hlength : (s.closeTunnel i t).raws.length = s.raws.length := by
    cases t
    · exact List.length_set ..
    · rfl
  refine ⟨fun j _ => congrFun hcalls j, ?_, hlength.ge, ?_, ?_, ?_, ?_, Or.inl hcache⟩
  · intro j hj
    rw [hlive, Function.update_of_ne hj]
  · intro call hcall
    exact h.keeps i call (hcalls ▸ hcall)
  · intro u hu
    exact absurd (hnone.symm.trans hu) (by simp)
  · rintro rc (⟨call, hcall, hrc⟩ | ⟨u, hu, -⟩)
    · exact Or.inl (Or.inl ⟨call, hcalls ▸ hcall, hrc⟩)
    · exact absurd (hnone.symm.trans hu) (by simp)
  · rintro rc (⟨call, hcall, hrc⟩ | hu)
    · have hheld : s.Holds i rc := Or.inl ⟨call, hcalls ▸ hcall, hrc⟩
      exact ⟨Or.inl hheld, hcache ▸ (h.alone i rc hheld).1⟩
    · exact absurd (hnone.symm.trans hu) (by simp)

/-- **Every step keeps the invariant.** -/
theorem inv_of_move {c : HTTPConnectDialer} {s s' : State} {e : Event} (h : Inv s)
    (hm : Move c s e s') : Inv s' := by
  cases hm with
  | call hi => exact h.of_local (local_of_call h hi (keeps_dialContext c _ _ _))
  | perform hi hp hr =>
    obtain ⟨hallows, hkeeps⟩ := (h.keeps _ _ hi).advance hp
    exact h.of_local (local_of_perform h hi hallows hr hkeeps)
  | closeTunnel hi => exact h.of_local (local_of_closeTunnel _ h _)

theorem inv_init : Inv {} where
  keeps := nofun
  settled := nofun
  refers_lt := by rintro i rc (⟨_, ⟨⟩, _⟩ | ⟨_, ⟨⟩, _⟩)
  cache_lt := nofun
  alone := by
    rintro i rc (⟨_, ⟨⟩, _⟩ | hlive)
    exact absurd hlive (by simp)

/-! ## Isolation -/

/-- The raw connection of every live tunnel is open. -/
def LiveOpen (s : State) : Prop := ∀ i t, s.live i = some t → s.Open t.rawConn

/-- No tunnel is live on the connection. -/
def Unused (s : State) (rc : ℕ) : Prop := ∀ i t, s.live i = some t → t.rawConn ≠ rc

/-- The step is not the one of a call that, its attempt on the cached connection having failed,
closes that connection under a live tunnel. -/
def Harmless (s : State) : Event → Prop
  | .perform i ⟨.close rc, _⟩ =>
    (∃ call, s.calls i = some call ∧ call.role = .failed rc) → Unused s rc
  | _ => True

section Isolation

variable {c : HTTPConnectDialer} {s s' : State} {e : Event}

/-- Closing a connection is felt by the tunnels on it, and by no others. -/
theorem liveOpen_closeRaw_iff (hopen : LiveOpen s) (rc : ℕ) :
    LiveOpen (s.closeRaw rc) ↔ Unused s rc := by
  constructor
  · rintro h i t hi rfl
    have hclosed : (s.raws.set t.rawConn false)[t.rawConn]? = some true := h i t hi
    obtain ⟨hlt, -⟩ := List.getElem?_eq_some_iff.mp (hopen i t hi)
    rw [List.getElem?_set_self hlt] at hclosed
    cases hclosed
  · intro h i t hi
    exact (List.getElem?_set_ne (h i t hi).symm).trans (hopen i t hi)

/-- An owner has its connection for itself. -/
theorem unused_of_owner (h : Inv s) {i rc : ℕ} {call : Call} (hi : s.calls i = some call)
    (hrole : call.role = .owner rc) : Unused s rc := by
  rintro j t hj rfl
  have hnone : s.live i = none := by
    refine h.live_eq_none hi fun t => ?_
    rw [hrole]
    cases t <;> nofun
  rcases eq_or_ne j i with rfl | hji
  · exact absurd (hnone.symm.trans hj) (by simp)
  · exact (h.alone i t.rawConn (Or.inl ⟨call, hi, hrole⟩)).2 j hji (Or.inr ⟨t, hj, rfl⟩)

theorem liveOpen_addRaw (hopen : LiveOpen s) : LiveOpen s.addRaw := by
  intro i t hi
  obtain ⟨hlt, -⟩ := List.getElem?_eq_some_iff.mp (hopen i t hi)
  exact (List.getElem?_append_left hlt).trans (hopen i t hi)

theorem liveOpen_addTunnel (hopen : LiveOpen s) (i : ℕ) {t : Conn} (ht : s.Open t.rawConn) :
    LiveOpen (s.addTunnel i t) := by
  intro j u hu
  rcases eq_or_ne j i with rfl | hj
  · obtain rfl := Option.some_inj.mp ((Function.update_self j _ _).symm.trans hu)
    exact ht
  · exact hopen j u ((Function.update_of_ne hj _ _).symm.trans hu)

/-- Only a `Close` can close anything. -/
theorem liveOpen_effect (hopen : LiveOpen s) (i : ℕ) {o : Op} {r : Resp o}
    (hr : s.possible o r = true) (ho : ∀ rc, o ≠ .close rc) : LiveOpen (s.effect i o r) := by
  cases o with
  | dial network host => cases r <;> [exact hopen; exact liveOpen_addRaw hopen]
  | dialTLS network host => cases r <;> [exact hopen; exact liveOpen_addRaw hopen]
  | tlsDial network host => cases r <;> [exact hopen; exact liveOpen_addRaw hopen]
  | roundTrip rc req =>
    rcases r with err | resp
    · exact hopen
    · simp only [effect]
      split_ifs
      · exact liveOpen_addTunnel hopen i (of_decide_eq_true hr)
      · exact hopen
  | readResponse rc =>
    rcases r with err | resp
    · exact hopen
    · simp only [effect]
      split_ifs
      · exact liveOpen_addTunnel hopen i (of_decide_eq_true hr)
      · exact hopen
  | close rc => exact absurd rfl (ho rc)
  | _ => exact hopen

/-- Closing a tunnel leaves the others alone. -/
theorem liveOpen_closeTunnel (h : Inv s) (hopen : LiveOpen s) {i : ℕ} {t : Conn}
    (hi : s.live i = some t) : LiveOpen (s.closeTunnel i t) := by
  have hlive : (s.closeTunnel i t).live = Function.update s.live i none := by cases t <;> rfl
  intro j u hu
  rw [hlive] at hu
  rcases eq_or_ne j i with rfl | hj
  · rw [Function.update_self] at hu
    cases hu
  · rw [Function.update_of_ne hj] at hu
    cases t with
    | http2 rc => exact hopen j u hu
    | raw rc =>
      have hne : rc ≠ u.rawConn := by
        rintro rfl
        exact (h.alone i _ (Or.inr hi)).2 j hj (Or.inr ⟨u, hu, rfl⟩)
      exact (List.getElem?_set_ne hne).trans (hopen j u hu)

/-- **One step.**  It closes the connection of a live tunnel exactly when it is not harmless. -/
theorem liveOpen_iff_of_move (h : Inv s) (hopen : LiveOpen s) (hm : Move c s e s') :
    LiveOpen s' ↔ Harmless s e := by
  cases hm with
  | call hi => exact iff_of_true hopen trivial
  | closeTunnel hi => exact iff_of_true (liveOpen_closeTunnel h hopen hi) trivial
  | @perform i o r call p hi hp hr =>
    obtain ⟨hallows, -⟩ := (h.keeps _ _ hi).advance hp
    by_cases ho : ∃ rc, o = .close rc
    · obtain ⟨rc, rfl⟩ := ho
      have hiff : LiveOpen (s.closeRaw rc) ↔ Unused s rc := liveOpen_closeRaw_iff hopen rc
      rcases hallows with hrole | hrole
      · exact hiff.trans ⟨fun h _ => h, fun h => h ⟨call, hi, hrole⟩⟩
      · exact hiff.trans ⟨fun h _ => h, fun _ => unused_of_owner h hi hrole⟩
    · have hharmless : Harmless s (.perform i ⟨o, r⟩) := by
        cases o with
        | close rc => exact absurd ⟨rc, rfl⟩ ho
        | _ => trivial
      exact iff_of_true (liveOpen_effect hopen i hr fun rc hrc => ho ⟨rc, hrc⟩) hharmless

end Isolation

/-- **Tunnel isolation.**  In a run from a fresh dialer in which no call whose attempt on the
cached connection failed closes it under a live tunnel, the raw connection of every live tunnel
is open; and such a `Close` is the one step that ends this. -/
theorem tunnels_isolated (c : HTTPConnectDialer) {es : List Event} {s : State}
    (hg : Guarded (step c) Harmless {} es) (hrun : runFrom (step c) {} es = some s) :
    LiveOpen s ∧ ∀ e s', step c s e = some s' → (LiveOpen s' ↔ Harmless s e) := by
  have hinv : Inv s ∧ LiveOpen s := by
    refine runFrom_guarded (P := fun s => Inv s ∧ LiveOpen s) ?_ ⟨inv_init, nofun⟩ hg hrun
    rintro s e s' hharmless ⟨hi, hopen⟩ hs
    have hm := move_of_step hs
    exact ⟨inv_of_move hi hm, (liveOpen_iff_of_move hi hopen hm).mpr hharmless⟩
  exact ⟨hinv.2, fun e s' hs => liveOpen_iff_of_move hinv.1 hinv.2 (move_of_step hs)⟩

/-! ## A tunnel that is cut off -/

/-- A dialer for an HTTPS upstream. -/
def sharingDialer : HTTPConnectDialer :=
  { scheme := ascii "https", host := ascii "proxy:443", hasDialTLS := true }

/-- The HTTP/2 request of a call of `sharingDialer`. -/
def sharedRequest (address : GoString) : ConnectRequest :=
  { connectRequest sharingDialer address none with protoMajor := 2, protoMinor := 0 }

/-- Call 0 makes a connection, gets a tunnel on it, and puts it into the cache; call 1 finds it
there, and the upstream refuses its target. -/
def refusedOnShared : List Event :=
  [.call 0 (ascii "tcp") (ascii "a:80") none,
    .perform 0 ⟨.cached, none⟩,
    .perform 0 ⟨.dialTLS (ascii "tcp") (ascii "proxy:443"), .ok (0, ascii "h2")⟩,
    .perform 0 ⟨.newClientConn 0, none⟩,
    .perform 0 ⟨.roundTrip 0 (sharedRequest (ascii "a:80")), .ok ⟨200, ascii "200 OK"⟩⟩,
    .perform 0 ⟨.setCached 0, ()⟩,
    .call 1 (ascii "tcp") (ascii "b:80") none,
    .perform 1 ⟨.cached, some (0, true)⟩,
    .perform 1 ⟨.roundTrip 0 (sharedRequest (ascii "b:80")),
      .ok ⟨403, ascii "403 Forbidden"⟩⟩]

/-- The `Close` that follows. -/
def refusedClose : Event := .perform 1 ⟨.close 0, none⟩

theorem tunnels_isolated_refusedOnShared :
    ∃ s, runFrom (step sharingDialer) {} refusedOnShared = some s ∧ LiveOpen s ∧
      ∀ e s', step sharingDialer s e = some s' → (LiveOpen s' ↔ Harmless s e) := by
  have hrun : (runFrom (step sharingDialer) {} refusedOnShared).isSome = true := by
    decide +kernel
  obtain ⟨s, hs⟩ := Option.isSome_iff_exists.mp hrun
  have hg : Guarded (step sharingDialer) Harmless {} refusedOnShared := by
    simp only [refusedOnShared, Guarded, Harmless, implies_true, and_self]
  exact ⟨s, hs, tunnels_isolated sharingDialer hg hs⟩

/-- The refused call closes the raw connection of the tunnel that call 0 returned. -/
theorem sharedTunnel_cut :
    (runFrom (step sharingDialer) {} (refusedOnShared ++ [refusedClose])).map
      (fun s => (s.live 0, s.raws)) = some (some (.http2 0), [false]) := by
  decide +kernel

end HttpClient
end ForwardProxy
