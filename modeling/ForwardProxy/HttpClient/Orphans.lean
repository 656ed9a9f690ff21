import ForwardProxy.HttpClient.Attendance
import ForwardProxy.HttpClient.Isolation

/-!
# Upstream connections that nobody closes

An HTTP/2 connection to the upstream outlives its tunnels, because closing a tunnel closes a stream
and nothing else.  As long as the connection is the cached one, a later call can use it.  A
connection that is neither cached nor carries a tunnel is out of reach: no call will find it again,
and nothing closes it.

Here the machine of `HttpClient.Tunnels` is watched.  Along with its state go the connections on
which HTTP/2 was started, and what each call has in its charge.  No call returns with a connection
in its charge (`HttpClient.Attendance`), so it is not the calls that lose connections.  Two steps
do: the `Close` of the last tunnel of a connection that is not the cached one, and the replacement
of a cached connection that has no tunnel at the time.

## Main result

* `connections_kept_iff`: when no call is in progress, every open HTTP/2 connection is cached or
  carries a tunnel if and only if the run took no such step.
-/

namespace ForwardProxy
namespace HttpClient

open ForwardProxy.Core Prog State

/-! ## The machine, watched -/

/-- The connection on which HTTP/2 is started. -/
def started : Exchange → Option ℕ
  | ⟨.newClientConn rc, _⟩ => some rc
  | _ => none

/-- The connection that is put into the cache. -/
def replacing : Exchange → Option ℕ
  | ⟨.setCached rc, _⟩ => some rc
  | _ => none

/-- The state of the dialer, and what no step depends on. -/
structure Watched where
  state : State := {}
  charge : ℕ → Charge := fun _ => .start
  /-- The connections on which HTTP/2 was started. -/
  http2 : List ℕ := []

namespace Watched

/-- Call `i` has performed an operation, and has now this charge. -/
def moved (w : Watched) (i : ℕ) (x : Exchange) (charge : Charge) (s : State) : Watched :=
  { state := s
    charge := Function.update w.charge i charge
    http2 := (started x).toList ++ w.http2 }

/-- After a step of the machine. -/
def after (c : HTTPConnectDialer) (w : Watched) (e : Event) (s : State) : Watched :=
  match e with
  | .perform i x => w.moved i x ((w.charge i).next c x.1 x.2) s
  | _ => { w with state := s }

end Watched

/-- One step. -/
def watch (c : HTTPConnectDialer) (w : Watched) (e : Event) : Option Watched :=
  (step c w.state e).map (w.after c e)

/-- Watching changes nothing. -/
theorem map_state_runFrom_watch (c : HTTPConnectDialer) (w : Watched) (es : List Event) :
    (runFrom (watch c) w es).map Watched.state = runFrom (step c) w.state es := by
  induction es generalizing w with
  | nil => rfl
  | cons e es ih =>
    rw [runFrom_cons, runFrom_cons, watch]
    cases step c w.state e with
    | none => rfl
    | some s =>
      have hstate : (w.after c e s).state = s := by cases e <;> rfl
      rw [Option.map_some, Option.bind_some, Option.bind_some, ih, hstate]

/-! ## The operations of a call -/

/-- What an operation of call `i` does: the exchange, the charge before and after, and the state
after. -/
inductive Act (s : State) (i : ℕ) : Exchange → Charge → Charge → State → Prop
  | nothing {x : Exchange} {charge : Charge} (hstarted : started x = none)
      (hreplacing : replacing x = none) : Act s i x charge charge s
  | reuse {x : Exchange} {rc : ℕ} (hstarted : started x = none) (hreplacing : replacing x = none)
      (hcache : s.cache = some rc) : Act s i x .start (.reusing rc) s
  | dial {x : Exchange} (hstarted : started x = none) (hreplacing : replacing x = none) :
      Act s i x .start (.dialled s.raws.length) s.addRaw
  | begins {rc : ℕ} {r : Resp (.newClientConn rc)} :
      Act s i ⟨.newClientConn rc, r⟩ (.dialled rc) (.http2 rc) s
  | tunnel {x : Exchange} {rc : ℕ} {charge charge' : Charge} (hstarted : started x = none)
      (hreplacing : replacing x = none) (hopen : s.Open rc)
      (hcharge : charge = .reusing rc ∨ charge = .http2 rc)
      (hcharge' : charge' = .caching rc ∨ charge' = .over) :
      Act s i x charge charge' (s.addTunnel i (.http2 rc))
  | handOver {x : Exchange} {rc : ℕ} (hstarted : started x = none) (hreplacing : replacing x = none)
      (hopen : s.Open rc) : Act s i x (.dialled rc) .over (s.addTunnel i (.raw rc))
  | close {x : Exchange} {rc : ℕ} {charge : Charge} (hstarted : started x = none)
      (hreplacing : replacing x = none) (hcharge : charge.Allows (.close rc)) :
      Act s i x charge charge.close (s.closeRaw rc)
  | cache {rc : ℕ} {charge : Charge} (hcharge : charge = .caching rc ∨ charge = .closed rc) :
      Act s i ⟨.setCached rc, ()⟩ charge .over { s with cache := some rc }

theorem act_of_perform (c : HTTPConnectDialer) {s : State} (i : ℕ) {charge : Charge} {o : Op}
    {r : Resp o} (hallows : charge.Allows o) (hr : s.possible o r = true) :
    Act s i ⟨o, r⟩ charge (charge.next c o r) (s.effect i o r) := by
  cases o with
  | cached =>
    rcases r with _ | ⟨rc, _ | _⟩
    · exact .nothing rfl rfl
    · exact .nothing rfl rfl
    · obtain rfl : charge = .start := hallows
      exact .reuse rfl rfl (of_decide_eq_true hr).symm
  | dial network host =>
    rcases r with err | rc
    · exact .nothing rfl rfl
    · obtain rfl : charge = .start := hallows
      obtain rfl : rc = s.raws.length := of_decide_eq_true hr
      exact .dial rfl rfl
  | dialTLS network host =>
    rcases r with err | ⟨rc, negotiatedProtocol⟩
    · exact .nothing rfl rfl
    · obtain rfl : charge = .start := hallows
      obtain rfl : rc = s.raws.length := of_decide_eq_true hr
      exact .dial rfl rfl
  | tlsDial network host =>
    rcases r with err | rc
    · exact .nothing rfl rfl
    · obtain rfl : charge = .start := hallows
      obtain rfl : rc = s.raws.length := of_decide_eq_true hr
      exact .dial rfl rfl
  | handshake rc => exact .nothing rfl rfl
  | negotiated rc => exact .nothing rfl rfl
  | newClientConn rc =>
    obtain rfl : charge = .dialled rc := hallows
    exact .begins
  | roundTrip rc req =>
    rcases r with err | resp
    · exact .nothing rfl rfl
    · simp only [effect, Charge.next]
      split_ifs
      · refine .tunnel rfl rfl (of_decide_eq_true hr) hallows ?_
        rcases hallows with rfl | rfl
        · exact Or.inr rfl
        · rw [Charge.tunnel]
          split_ifs
          · exact Or.inl rfl
          · exact Or.inr rfl
      · exact .nothing rfl rfl
  | write rc req => exact .nothing rfl rfl
  | readResponse rc =>
    obtain rfl : charge = .dialled rc := hallows
    rcases r with err | resp
    · exact .nothing rfl rfl
    · simp only [effect, Charge.next]
      split_ifs
      · exact .handOver rfl rfl (of_decide_eq_true hr)
      · exact .nothing rfl rfl
  | close rc => exact .close rfl rfl hallows
  | setCached rc => exact .cache hallows

/-! ## The charges and the connections -/

/-- The charges of the calls are right. -/
structure Sound (w : Watched) : Prop where
  live : ∀ i t, w.state.live i = some t →
    (w.charge i = .caching t.rawConn ∨ w.charge i = .over) ∧ t.rawConn < w.state.raws.length
  dialled : ∀ i rc, w.charge i = .dialled rc → rc < w.state.raws.length ∧ rc ∉ w.http2 ∧
    (∀ j, w.state.live j ≠ some (.raw rc)) ∧ ∀ j, w.charge j = .dialled rc → j = i
  http2 : ∀ rc ∈ w.http2, rc < w.state.raws.length ∧ ∀ j, w.state.live j ≠ some (.raw rc)
  started : ∀ i rc, w.charge i = .http2 rc → rc ∈ w.http2
  closed : ∀ i rc, w.charge i = .closed rc → w.state.raws[rc]? = some false

/-- What a step of call `i` may do: the call dials a new connection, and starts HTTP/2 on it or
makes it a tunnel, but not both. -/
structure Footprint (i : ℕ) (w w' : Watched) : Prop where
  charge : ∀ j, j ≠ i → w'.charge j = w.charge j
  live : ∀ j, j ≠ i → w'.state.live j = w.state.live j
  length_le : w.state.raws.length ≤ w'.state.raws.length
  closed : ∀ rc : ℕ, w.state.raws[rc]? = some false → w'.state.raws[rc]? = some false
  http2 : ∀ rc, rc ∈ w.http2 → rc ∈ w'.http2
  /-- A tunnel of the call is settled. -/
  live_self : ∀ t, w'.state.live i = some t →
    (w'.charge i = .caching t.rawConn ∨ w'.charge i = .over) ∧ t.rawConn < w'.state.raws.length
  /-- An HTTP/1 tunnel of the call was there, or is the connection it had dialled. -/
  raw_self : ∀ rc, w'.state.live i = some (.raw rc) → w.state.live i = some (.raw rc) ∨
    w.charge i = .dialled rc ∧ w'.charge i ≠ .dialled rc
  dialled_self : ∀ rc, w'.charge i = .dialled rc → w.charge i = .dialled rc ∨
    rc = w.state.raws.length ∧ rc < w'.state.raws.length
  /-- HTTP/2 is started on the connection the call had dialled. -/
  http2_self : ∀ rc, rc ∈ w'.http2 → rc ∈ w.http2 ∨
    (w.charge i = .dialled rc ∧ w'.charge i ≠ .dialled rc) ∧ w'.state.live i = w.state.live i
  started_self : ∀ rc, w'.charge i = .http2 rc → rc ∈ w'.http2
  closed_self : ∀ rc, w'.charge i = .closed rc → w'.state.raws[rc]? = some false

section Footprint

variable {i : ℕ} {w w' : Watched}

/-- A connection that another call has dialled does not become a tunnel of this one. -/
theorem Footprint.live_ne_raw (hf : Footprint i w w') {rc : ℕ}
    (hlive : ∀ j, w.state.live j ≠ some (.raw rc))
    (hcharge : w.charge i = .dialled rc → w'.charge i = .dialled rc) (j : ℕ) :
    w'.state.live j ≠ some (.raw rc) := by
  intro hj
  rcases eq_or_ne j i with rfl | hji
  · rcases hf.raw_self rc hj with hold | ⟨hd, hd'⟩
    · exact hlive j hold
    · exact hd' (hcharge hd)
  · exact hlive j (hf.live j hji ▸ hj)

/-- **The frame rule.** -/
theorem Sound.of_footprint (h : Sound w) (hf : Footprint i w w') : Sound w' := by
  constructor
  case live =>
    intro j t ht
    rcases eq_or_ne j i with rfl | hj
    · exact hf.live_self t ht
    · rw [hf.live j hj] at ht
      rw [hf.charge j hj]
      obtain ⟨hcharge, hlt⟩ := h.live j t ht
      exact ⟨hcharge, hlt.trans_le hf.length_le⟩
  case dialled =>
    intro j rc hj
    rcases eq_or_ne j i with rfl | hji
    · rcases hf.dialled_self rc hj with hold | ⟨rfl, hlt⟩
      · obtain ⟨hlt, hnot, hlive, hone⟩ := h.dialled j rc hold
        refine ⟨hlt.trans_le hf.length_le, fun hmem => ?_, hf.live_ne_raw hlive fun _ => hj, ?_⟩
        · exact (hf.http2_self rc hmem).elim hnot fun hd => hd.1.2 hj
        · intro k hk
          by_contra hkj
          exact hkj (hone k (hf.charge k hkj ▸ hk))
      · -- the new number is nobody's
        have hfresh : w.charge j ≠ .dialled w.state.raws.length := fun hd =>
          (h.dialled j _ hd).1.false
        refine ⟨hlt, fun hmem => ?_, hf.live_ne_raw (fun k hk => ?_) fun _ => hj, fun k hk => ?_⟩
        · rcases hf.http2_self _ hmem with hold | hd
          · exact (h.http2 _ hold).1.false
          · exact hfresh hd.1.1
        · exact (h.live k _ hk).2.false
        · by_contra hkj
          exact (h.dialled k _ (hf.charge k hkj ▸ hk)).1.false
    · rw [hf.charge j hji] at hj
      obtain ⟨hlt, hnot, hlive, hone⟩ := h.dialled j rc hj
      have hi : w.charge i ≠ .dialled rc := fun hd => hji (hone i hd).symm
      refine ⟨hlt.trans_le hf.length_le, fun hmem => ?_,
        hf.live_ne_raw hlive fun hd => absurd hd hi, fun k hk => ?_⟩
      · exact (hf.http2_self rc hmem).elim hnot fun hd => hi hd.1.1
      · rcases eq_or_ne k i with rfl | hki
        · rcases hf.dialled_self rc hk with hold | ⟨rfl, -⟩
          · exact absurd hold hi
          · exact absurd hlt (lt_irrefl _)
        · exact hone k (hf.charge k hki ▸ hk)
  case http2 =>
    intro rc hmem
    rcases hf.http2_self rc hmem with hold | ⟨⟨hd, -⟩, hsame⟩
    · obtain ⟨hlt, hlive⟩ := h.http2 rc hold
      refine ⟨hlt.trans_le hf.length_le, hf.live_ne_raw hlive fun hd => ?_⟩
      exact absurd hold (h.dialled i rc hd).2.1
    · obtain ⟨hlt, -, hlive, -⟩ := h.dialled i rc hd
      refine ⟨hlt.trans_le hf.length_le, fun j => ?_⟩
      rcases eq_or_ne j i with rfl | hj
      · exact hsame ▸ hlive j
      · exact hf.live j hj ▸ hlive j
  case started =>
    intro j rc hj
    rcases eq_or_ne j i with rfl | hji
    · exact hf.started_self rc hj
    · exact hf.http2 rc (h.started j rc (hf.charge j hji ▸ hj))
  case closed =>
    intro j rc hj
    rcases eq_or_ne j i with rfl | hji
    · exact hf.closed_self rc hj
    · exact hf.closed rc (h.closed j rc (hf.charge j hji ▸ hj))

end Footprint

section Acts

variable {i : ℕ} {w : Watched} {x : Exchange} {charge charge' : Charge} {s' : State}

/-- A call that is neither caching nor over has no tunnel. -/
theorem Sound.live_eq_none (h : Sound w) (hover : w.charge i ≠ .over)
    (hcaching : ∀ rc, w.charge i ≠ .caching rc) : w.state.live i = none := by
  cases hlive : w.state.live i with
  | none => rfl
  | some t => exact ((h.live i t hlive).1.elim (hcaching _) hover).elim

/-- An exchange that makes no tunnel. -/
theorem footprint_of_quiet (h : Sound w) (hlive : s'.live = w.state.live)
    (hlength : w.state.raws.length ≤ s'.raws.length)
    (hclosed : ∀ rc : ℕ, w.state.raws[rc]? = some false → s'.raws[rc]? = some false)
    (hsettled : ∀ t, w.state.live i = some t → charge' = .caching t.rawConn ∨ charge' = .over)
    (hdialled : ∀ rc, charge' = .dialled rc → w.charge i = .dialled rc ∨
      rc = w.state.raws.length ∧ rc < s'.raws.length)
    (hhttp2 : ∀ rc, started x = some rc → w.charge i = .dialled rc ∧ charge' ≠ .dialled rc)
    (hstarted : ∀ rc, charge' = .http2 rc → started x = some rc ∨ rc ∈ w.http2)
    (hshut : ∀ rc, charge' = .closed rc → s'.raws[rc]? = some false) :
    Footprint i w (w.moved i x charge' s') := by
  have hself : (w.moved i x charge' s').charge i = charge' := Function.update_self ..
  constructor
  case charge => exact fun j hj => Function.update_of_ne hj ..
  case live => exact fun j _ => congrFun hlive j
  case length_le => exact hlength
  case closed => exact hclosed
  case http2 => exact fun rc hrc => List.mem_append_right _ hrc
  case live_self =>
    intro t ht
    rw [hself]
    have ht' : w.state.live i = some t := hlive ▸ ht
    exact ⟨hsettled t ht', (h.live i t ht').2.trans_le hlength⟩
  case raw_self => exact fun rc hrc => Or.inl (hlive ▸ hrc)
  case dialled_self => exact fun rc hrc => hdialled rc (hself ▸ hrc)
  case http2_self =>
    intro rc hrc
    rw [hself]
    rcases List.mem_append.mp hrc with hnew | hold
    · exact Or.inr ⟨hhttp2 rc (Option.mem_toList.mp hnew), congrFun hlive i⟩
    · exact Or.inl hold
  case started_self =>
    intro rc hrc
    rw [hself] at hrc
    refine List.mem_append.mpr ((hstarted rc hrc).imp_left fun hx => Option.mem_toList.mpr hx)
  case closed_self => exact fun rc hrc => hshut rc (hself ▸ hrc)

/-- An exchange that makes a tunnel. -/
theorem footprint_of_tunnel {t : Conn} (hstarted : started x = none)
    (hopen : w.state.Open t.rawConn) (hraw : ∀ rc, t = .raw rc → w.charge i = .dialled rc)
    (hcharge' : charge' = .caching t.rawConn ∨ charge' = .over) :
    Footprint i w (w.moved i x charge' (w.state.addTunnel i t)) := by
  have hself : (w.moved i x charge' (w.state.addTunnel i t)).charge i = charge' :=
    Function.update_self ..
  have hlive : (w.state.addTunnel i t).live i = some t := Function.update_self ..
  have hne : ∀ rc, charge' ≠ .dialled rc ∧ charge' ≠ .http2 rc ∧ charge' ≠ .closed rc := by
    rcases hcharge' with rfl | rfl <;> simp
  constructor
  case charge => exact fun j hj => Function.update_of_ne hj ..
  case live => exact fun j hj => Function.update_of_ne hj ..
  case length_le => exact le_rfl
  case closed => exact fun _ hrc => hrc
  case http2 => exact fun rc hrc => List.mem_append_right _ hrc
  case live_self =>
    intro u hu
    obtain rfl : t = u := Option.some.inj (hlive.symm.trans hu)
    rw [hself]
    exact ⟨hcharge', (List.getElem?_eq_some_iff.mp hopen).1⟩
  case raw_self =>
    intro rc hrc
    rw [hself]
    exact Or.inr ⟨hraw rc (Option.some.inj (hlive.symm.trans hrc)), (hne rc).1⟩
  case dialled_self => exact fun rc hrc => absurd (hself ▸ hrc) (hne rc).1
  case http2_self =>
    intro rc hrc
    rw [Watched.moved, hstarted] at hrc
    exact Or.inl hrc
  case started_self => exact fun rc hrc => absurd (hself ▸ hrc) (hne rc).2.1
  case closed_self => exact fun rc hrc => absurd (hself ▸ hrc) (hne rc).2.2

theorem getElem?_closeRaw_of_eq {s : State} {rc rc' : ℕ} (h : s.raws[rc]? = some false) :
    (s.closeRaw rc').raws[rc]? = some false := by
  rcases eq_or_ne rc' rc with rfl | hne
  · exact List.getElem?_set_self (List.getElem?_eq_some_iff.mp h).1
  · exact (List.getElem?_set_ne hne).trans h

theorem footprint_of_act (h : Sound w) (hi : w.charge i = charge)
    (ha : Act w.state i x charge charge' s') : Footprint i w (w.moved i x charge' s') := by
  cases ha with
  | nothing hstarted hreplacing =>
    subst hi
    refine footprint_of_quiet h rfl le_rfl (fun _ => id) (fun t ht => (h.live i t ht).1)
      (fun rc hrc => Or.inl hrc) (fun rc hrc => ?_) (fun rc hrc => Or.inr (h.started i rc hrc))
      (h.closed i)
    exact absurd (hstarted.symm.trans hrc) (by simp)
  | reuse hstarted hreplacing hcache =>
    have hnone : w.state.live i = none := h.live_eq_none (by simp [hi]) (by simp [hi])
    refine footprint_of_quiet h rfl le_rfl (fun _ => id) ?_ (by simp) (by simp [hstarted]) (by simp)
      (by simp)
    simp [hnone]
  | dial hstarted hreplacing =>
    have hnone : w.state.live i = none := h.live_eq_none (by simp [hi]) (by simp [hi])
    have hlength : w.state.addRaw.raws.length = w.state.raws.length + 1 := List.length_append
    refine footprint_of_quiet h rfl (by omega) ?_ (by simp [hnone]) ?_ (by simp [hstarted])
      (by simp) (by simp)
    · intro rc hrc
      exact (List.getElem?_append_left (List.getElem?_eq_some_iff.mp hrc).1).trans hrc
    · rintro rc ⟨⟩
      exact Or.inr ⟨rfl, by omega⟩
  | begins =>
    have hnone : w.state.live i = none := h.live_eq_none (by simp [hi]) (by simp [hi])
    refine footprint_of_quiet h rfl le_rfl (fun _ => id) (by simp [hnone]) (by simp) ?_ ?_ (by simp)
    · rintro rc' ⟨⟩
      exact ⟨hi, by simp⟩
    · rintro rc' ⟨⟩
      exact Or.inl rfl
  | tunnel hstarted hreplacing hopen hcharge hcharge' =>
    exact footprint_of_tunnel hstarted hopen (by simp) hcharge'
  | handOver hstarted hreplacing hopen =>
    refine footprint_of_tunnel hstarted hopen ?_ (Or.inr rfl)
    rintro rc' ⟨⟩
    exact hi
  | @close x rc charge hstarted hreplacing hcharge =>
    have hnone : w.state.live i = none := by
      rcases hcharge with rfl | rfl | rfl | rfl <;>
        exact h.live_eq_none (by simp [hi]) (by simp [hi])
    refine footprint_of_quiet h rfl (List.length_set ..).ge (fun _ => getElem?_closeRaw_of_eq)
      (by simp [hnone]) (fun rc' hrc' => ?_) (by simp [hstarted]) (fun rc' hrc' => ?_)
      (fun rc' hrc' => ?_)
    · rcases hcharge with rfl | rfl | rfl | rfl <;> cases hrc'
      exact Or.inl hi
    · rcases hcharge with rfl | rfl | rfl | rfl <;> cases hrc'
    · rcases hcharge with rfl | rfl | rfl | rfl <;> cases hrc'
      · have hlt := (h.http2 rc (h.started i rc hi)).1
        exact List.getElem?_set_self hlt
      · exact getElem?_closeRaw_of_eq (h.closed i rc hi)
  | cache hcharge =>
    exact footprint_of_quiet h rfl le_rfl (fun _ => id) (fun _ _ => Or.inr rfl) (by simp)
      (by simp [started]) (by simp) (by simp)

end Acts

/-- Nobody has the connection: HTTP/2 was started on it and it is open, but it is not the cached
one, it carries no tunnel, and no call has it in its charge. -/
structure Orphan (w : Watched) (rc : ℕ) : Prop where
  http2 : rc ∈ w.http2
  isOpen : w.state.Open rc
  cache : w.state.cache ≠ some rc
  live : ∀ i, w.state.live i ≠ some (.http2 rc)
  charge : ∀ i, (w.charge i).conn ≠ some rc

/-- The step takes the last hold on the connection: the last tunnel of one that is not cached is
closed, or a cached one without a tunnel is replaced; and no call has the connection in its
charge. -/
def Abandons (w : Watched) (e : Event) (rc : ℕ) : Prop :=
  rc ∈ w.http2 ∧ w.state.Open rc ∧ (∀ i, (w.charge i).conn ≠ some rc) ∧
    ((∃ i, e = .closeTunnel i ∧ w.state.cache ≠ some rc ∧ w.state.live i = some (.http2 rc) ∧
        ∀ j, j ≠ i → w.state.live j ≠ some (.http2 rc)) ∨
      ∃ i rc', e = .perform i ⟨.setCached rc', ()⟩ ∧ rc' ≠ rc ∧ w.state.cache = some rc ∧
        ∀ j, w.state.live j ≠ some (.http2 rc))

theorem not_abandons_of_perform {w : Watched} {i : ℕ} {x : Exchange} (hx : replacing x = none)
    (rc : ℕ) : ¬ Abandons w (.perform i x) rc := by
  rintro ⟨-, -, -, ⟨j, hj, -⟩ | ⟨j, rc', hj, -⟩⟩
  · cases hj
  · cases hj
    cases hx

theorem open_closeRaw_iff (s : State) (rc rc' : ℕ) :
    (s.closeRaw rc').Open rc ↔ s.Open rc ∧ rc' ≠ rc := by
  constructor
  · intro h
    have hne : rc' ≠ rc := by
      rintro rfl
      have hlt : rc' < s.raws.length := by
        have := (List.getElem?_eq_some_iff.mp h).1
        rwa [closeRaw, List.length_set] at this
      rw [Open, closeRaw, List.getElem?_set_self hlt] at h
      cases h
    exact ⟨(List.getElem?_set_ne hne).symm.trans h, hne⟩
  · rintro ⟨h, hne⟩
    exact (List.getElem?_set_ne hne).trans h

/-! ### How a connection is lost -/

section Lost

variable {i : ℕ} {w : Watched} {x : Exchange} {charge charge' : Charge} {s' : State} {rc : ℕ}

/-- The charges of all calls, when one of them has moved on. -/
theorem charge_moved_iff :
    (∀ j, ((w.moved i x charge' s').charge j).conn ≠ some rc) ↔
      charge'.conn ≠ some rc ∧ ∀ j, j ≠ i → (w.charge j).conn ≠ some rc :=
  Function.forall_update_iff w.charge fun _ charge => charge.conn ≠ some rc

/-- The connection is nobody's before an exchange of a call that does not have it in its charge. -/
theorem charge_iff (hi : w.charge i = charge) :
    (∀ j, (w.charge j).conn ≠ some rc) ↔
      charge.conn ≠ some rc ∧ ∀ j, j ≠ i → (w.charge j).conn ≠ some rc := by
  constructor
  · exact fun h => ⟨hi ▸ h i, fun j _ => h j⟩
  · rintro ⟨hself, hothers⟩ j
    rcases eq_or_ne j i with rfl | hj
    · exact hi ▸ hself
    · exact hothers j hj

theorem orphan_iff :
    Orphan w rc ↔ rc ∈ w.http2 ∧ w.state.Open rc ∧ w.state.cache ≠ some rc ∧
      (∀ i, w.state.live i ≠ some (.http2 rc)) ∧ ∀ i, (w.charge i).conn ≠ some rc :=
  ⟨fun h => ⟨h.http2, h.isOpen, h.cache, h.live, h.charge⟩,
    fun ⟨hhttp2, hopen, hcache, hlive, hcharge⟩ => ⟨hhttp2, hopen, hcache, hlive, hcharge⟩⟩

/-- A call gets a tunnel: the connection it had in its charge, if any, carries that tunnel. -/
theorem orphan_addTunnel_iff {t : Conn} (hi : w.charge i = charge)
    (hstarted : started x = none) (hnone : w.state.live i = none)
    (hcharge : ∀ rc, charge.conn = some rc → t = .http2 rc)
    (hcharge' : ∀ rc, charge'.conn = some rc → t = .http2 rc)
    (hhttp2 : ∀ rc, t = .http2 rc → charge.conn = some rc) :
    Orphan (w.moved i x charge' (w.state.addTunnel i t)) rc ↔ Orphan w rc := by
  have hlive : (∀ j, (w.state.addTunnel i t).live j ≠ some (.http2 rc)) ↔
      some t ≠ some (.http2 rc) ∧ ∀ j, j ≠ i → w.state.live j ≠ some (.http2 rc) :=
    Function.forall_update_iff w.state.live fun _ u => u ≠ some (.http2 rc)
  rw [orphan_iff, orphan_iff, charge_moved_iff, charge_iff hi, Watched.moved, hstarted, hlive]
  constructor
  · rintro ⟨hmem, hopen, hcache, ⟨ht, hl⟩, -, hothers⟩
    refine ⟨hmem, hopen, hcache, fun j => ?_, fun hc => ht (congrArg some (hcharge rc hc)), hothers⟩
    rcases eq_or_ne j i with rfl | hj
    · simp [hnone]
    · exact hl j hj
  · rintro ⟨hmem, hopen, hcache, hl, hc, hothers⟩
    have ht : t ≠ .http2 rc := fun ht => hc (hhttp2 rc ht)
    exact ⟨hmem, hopen, hcache, ⟨fun heq => ht (Option.some.inj heq), fun j _ => hl j⟩,
      fun hc' => ht (hcharge' rc hc'), hothers⟩

/-- A call closes a connection: one of its own, or one that it has in its charge. -/
theorem orphan_closeRaw_iff {rc' : ℕ} (h : Sound w) (hi : w.charge i = charge)
    (hstarted : started x = none) (hcharge : charge.Allows (.close rc')) :
    Orphan (w.moved i x charge.close (w.state.closeRaw rc')) rc ↔ Orphan w rc := by
  have hconn : charge.close.conn = none ∧ (charge.conn = some rc → rc' = rc) := by
    rcases hcharge with rfl | rfl | rfl | rfl <;> simp [Charge.close, Charge.conn]
  rw [orphan_iff, orphan_iff, charge_moved_iff, charge_iff hi, Watched.moved, hstarted]
  dsimp only
  rw [open_closeRaw_iff, hconn.1]
  constructor
  · rintro ⟨hmem, ⟨hopen, hne⟩, hcache, hl, -, hothers⟩
    exact ⟨hmem, hopen, hcache, hl, fun hc => hne (hconn.2 hc), hothers⟩
  · rintro ⟨hmem, hopen, hcache, hl, hc, hothers⟩
    refine ⟨hmem, ⟨hopen, ?_⟩, hcache, hl, by simp, hothers⟩
    rintro rfl
    rcases hcharge with rfl | rfl | rfl | rfl
    · exact hc rfl
    · exact (h.dialled i rc' hi).2.1 hmem
    · exact hc rfl
    · exact absurd ((h.closed i rc' hi).symm.trans hopen) (by simp)

/-- A call puts its connection into the cache: the one that was there may be lost. -/
theorem orphan_cache_iff {rc' : ℕ} (h : Sound w) (hi : w.charge i = charge)
    (hcharge : charge = .caching rc' ∨ charge = .closed rc') :
    Orphan (w.moved i ⟨.setCached rc', ()⟩ .over { w.state with cache := some rc' }) rc ↔
      Orphan w rc ∨ Abandons w (.perform i ⟨.setCached rc', ()⟩) rc := by
  have hconn : rc' ≠ rc → charge.conn ≠ some rc := by
    rcases hcharge with rfl | rfl <;> simp [Charge.conn]
  constructor
  · intro ho
    have hne : rc' ≠ rc := fun heq => ho.cache (congrArg some heq)
    have hothers := (charge_iff hi).mpr ⟨hconn hne, (charge_moved_iff.mp ho.charge).2⟩
    by_cases hcache : w.state.cache = some rc
    · exact Or.inr ⟨ho.http2, ho.isOpen, hothers, Or.inr ⟨i, rc', rfl, hne, hcache, ho.live⟩⟩
    · exact Or.inl ⟨ho.http2, ho.isOpen, hcache, ho.live, hothers⟩
  · rintro (ho | ⟨hmem, hopen, hothers, ⟨j, hj, -⟩ | ⟨j, rc'', hj, hne, -, hl⟩⟩)
    · have hne : rc' ≠ rc := by
        rintro rfl
        rcases hcharge with rfl | rfl
        · exact ho.charge i (hi ▸ rfl)
        · exact absurd ((h.closed i rc' hi).symm.trans ho.isOpen) (by simp)
      exact ⟨ho.http2, ho.isOpen, fun heq => hne (Option.some.inj heq), ho.live,
        charge_moved_iff.mpr ⟨by simp [Charge.conn], fun j _ => ho.charge j⟩⟩
    · cases hj
    · cases hj
      exact ⟨hmem, hopen, fun heq => hne (Option.some.inj heq), hl,
        charge_moved_iff.mpr ⟨by simp [Charge.conn], fun j _ => hothers j⟩⟩

/-- **One operation.** -/
theorem orphan_moved_iff (h : Sound w) (hi : w.charge i = charge)
    (ha : Act w.state i x charge charge' s') :
    Orphan (w.moved i x charge' s') rc ↔ Orphan w rc ∨ Abandons w (.perform i x) rc := by
  cases ha with
  | nothing hstarted hreplacing =>
    rw [or_iff_left (not_abandons_of_perform hreplacing rc), Watched.moved, hstarted, ← hi,
      Function.update_eq_self]
    rfl
  | reuse hstarted hreplacing hcache =>
    rw [or_iff_left (not_abandons_of_perform hreplacing rc), orphan_iff, orphan_iff,
      charge_moved_iff, charge_iff hi, Watched.moved, hstarted]
    constructor
    · rintro ⟨hmem, hopen, hc, hl, -, hothers⟩
      exact ⟨hmem, hopen, hc, hl, by simp [Charge.conn], hothers⟩
    · rintro ⟨hmem, hopen, hc, hl, -, hothers⟩
      exact ⟨hmem, hopen, hc, hl, fun heq => hc (hcache.trans heq), hothers⟩
  | dial hstarted hreplacing =>
    have hopen : rc ∈ w.http2 → (w.state.addRaw.Open rc ↔ w.state.Open rc) := by
      intro hmem
      rw [Open, addRaw, List.getElem?_append_left (h.http2 rc hmem).1]
    rw [or_iff_left (not_abandons_of_perform hreplacing rc), orphan_iff, orphan_iff,
      charge_moved_iff, charge_iff hi, Watched.moved, hstarted]
    exact and_congr_right fun hmem => and_congr_left fun _ => hopen hmem
  | @begins rc' r =>
    have hnot := (h.dialled i rc' hi).2.1
    rw [or_iff_left (not_abandons_of_perform rfl rc), orphan_iff, orphan_iff, charge_moved_iff,
      charge_iff hi]
    constructor
    · rintro ⟨hmem, hopen, hc, hl, hself, hothers⟩
      refine ⟨(List.mem_cons.mp hmem).resolve_left fun heq => ?_, hopen, hc,
        hl, by simp [Charge.conn], hothers⟩
      exact hself (congrArg some heq.symm)
    · rintro ⟨hmem, hopen, hc, hl, -, hothers⟩
      refine ⟨List.mem_cons_of_mem _ hmem, hopen, hc, hl, fun heq => ?_, hothers⟩
      exact hnot (Option.some.inj heq ▸ hmem)
  | tunnel hstarted hreplacing hopen hcharge hcharge' =>
    rw [or_iff_left (not_abandons_of_perform hreplacing rc)]
    have hnone : w.state.live i = none := by
      rcases hcharge with rfl | rfl <;> exact h.live_eq_none (by simp [hi]) (by simp [hi])
    refine orphan_addTunnel_iff hi hstarted hnone ?_ ?_ ?_
    · rcases hcharge with rfl | rfl <;> simp [Charge.conn]
    · rcases hcharge' with rfl | rfl <;> simp [Charge.conn]
    · rcases hcharge with rfl | rfl <;> simp [Charge.conn]
  | handOver hstarted hreplacing hopen =>
    rw [or_iff_left (not_abandons_of_perform hreplacing rc)]
    exact orphan_addTunnel_iff hi hstarted (h.live_eq_none (by simp [hi]) (by simp [hi]))
      (by simp [Charge.conn]) (by simp [Charge.conn]) (by simp)
  | close hstarted hreplacing hcharge =>
    rw [or_iff_left (not_abandons_of_perform hreplacing rc)]
    exact orphan_closeRaw_iff h hi hstarted hcharge
  | cache hcharge => exact orphan_cache_iff h hi hcharge

/-- **The `Close` of a tunnel.** -/
theorem orphan_closeTunnel_iff {t : Conn} (h : Sound w) (ht : w.state.live i = some t) :
    Orphan { w with state := w.state.closeTunnel i t } rc ↔
      Orphan w rc ∨ Abandons w (.closeTunnel i) rc := by
  have hlive : (∀ j, (w.state.closeTunnel i t).live j ≠ some (.http2 rc)) ↔
      ∀ j, j ≠ i → w.state.live j ≠ some (.http2 rc) := by
    have hupdate : (w.state.closeTunnel i t).live = Function.update w.state.live i none := by
      cases t <;> rfl
    rw [hupdate, Function.forall_update_iff w.state.live fun _ u => u ≠ some (.http2 rc)]
    exact and_iff_right (by simp)
  have hcache : (w.state.closeTunnel i t).cache = w.state.cache := by cases t <;> rfl
  have hopen : rc ∈ w.http2 → ((w.state.closeTunnel i t).Open rc ↔ w.state.Open rc) := by
    intro hmem
    cases t with
    | http2 rc' => exact Iff.rfl
    | raw rc' =>
      refine (open_closeRaw_iff w.state rc rc').trans (and_iff_left ?_)
      rintro rfl
      exact (h.http2 rc' hmem).2 i ht
  constructor
  · intro ho
    have hold := hlive.mp ho.live
    have hopen' := (hopen ho.http2).mp ho.isOpen
    have hcache' : w.state.cache ≠ some rc := hcache ▸ ho.cache
    by_cases hself : t = .http2 rc
    · exact Or.inr ⟨ho.http2, hopen', ho.charge, Or.inl ⟨i, rfl, hcache', hself ▸ ht, hold⟩⟩
    · refine Or.inl ⟨ho.http2, hopen', hcache', fun j => ?_, ho.charge⟩
      rcases eq_or_ne j i with rfl | hj
      · rw [ht]
        exact fun heq => hself (Option.some.inj heq)
      · exact hold j hj
  · rintro (ho | ⟨hmem, hopen', hothers, ⟨j, hj, hcache', -, hl⟩ | ⟨j, rc', hj, -⟩⟩)
    · exact ⟨ho.http2, (hopen ho.http2).mpr ho.isOpen, fun hc => ho.cache (hcache ▸ hc),
        hlive.mpr fun j _ => ho.live j, ho.charge⟩
    · cases hj
      exact ⟨hmem, (hopen hmem).mpr hopen', fun hc => hcache' (hcache ▸ hc), hlive.mpr hl, hothers⟩
    · cases hj

end Lost

/-! ## Whole runs -/

/-- The invariant of the machine. -/
structure Attended (c : HTTPConnectDialer) (w : Watched) : Prop where
  attends : ∀ i call, w.state.calls i = some call →
    Attends c (fun _ charge => charge.conn = none) (w.charge i) call.prog
  idle : ∀ i, w.state.calls i = none → w.charge i = .start
  sound : Sound w

theorem attended_init (c : HTTPConnectDialer) : Attended c {} where
  attends := by simp
  idle := fun _ _ => rfl
  sound := ⟨by simp, by simp, by simp, by simp, by simp⟩

section Runs

variable {c : HTTPConnectDialer} {w : Watched} {i : ℕ}

theorem calls_setCall_of_ne {s : State} {call : Call} {j : ℕ} (hj : j ≠ i) :
    (s.setCall i call).calls j = s.calls j :=
  Function.update_of_ne hj ..

theorem Act.calls {s s' : State} {x : Exchange} {charge charge' : Charge}
    (ha : Act s i x charge charge' s') : s'.calls = s.calls := by
  cases ha <;> rfl

theorem Attended.call (h : Attended c w) (hi : w.state.calls i = none) (network address : GoString)
    (ctxHeader : Option Header) :
    Attended c { w with
      state := w.state.setCall i ⟨dialContext c network address ctxHeader, .start⟩ } where
  attends j call hj := by
    rcases eq_or_ne j i with rfl | hji
    · rw [← eq_of_setCall hj, h.idle j hi]
      exact attends_dialContext c network address ctxHeader
    · exact h.attends j call ((calls_setCall_of_ne hji).symm.trans hj)
  idle j hj := by
    rcases eq_or_ne j i with rfl | hji
    · exact h.idle j hi
    · exact h.idle j ((calls_setCall_of_ne hji).symm.trans hj)
  sound := ⟨h.sound.live, h.sound.dialled, h.sound.http2, h.sound.started, h.sound.closed⟩

theorem Attended.moved (h : Attended c w) {x : Exchange} {charge' : Charge} {s' : State}
    {p : Prog Resp Result} {role : Role} (ha : Act w.state i x (w.charge i) charge' s')
    (hp : Attends c (fun _ charge => charge.conn = none) charge' p) :
    Attended c (w.moved i x charge' (s'.setCall i ⟨p, role⟩)) := by
  have hsound := h.sound.of_footprint (footprint_of_act h.sound rfl ha)
  have hcalls : ∀ {j}, j ≠ i → (s'.setCall i ⟨p, role⟩).calls j = w.state.calls j := fun hj =>
    (calls_setCall_of_ne hj).trans (congrFun ha.calls _)
  have hcharge : ∀ {j}, j ≠ i →
      (w.moved i x charge' (s'.setCall i ⟨p, role⟩)).charge j = w.charge j := fun hj =>
    Function.update_of_ne hj ..
  constructor
  case attends =>
    intro j call' hj
    rcases eq_or_ne j i with rfl | hji
    · have hself : (w.moved j x charge' (s'.setCall j ⟨p, role⟩)).charge j = charge' :=
        Function.update_self ..
      rw [hself, ← eq_of_setCall hj]
      exact hp
    · rw [hcharge hji]
      exact h.attends j call' ((hcalls hji).symm.trans hj)
  case idle =>
    intro j hj
    rcases eq_or_ne j i with rfl | hji
    · have hself : (s'.setCall j ⟨p, role⟩).calls j = some ⟨p, role⟩ := Function.update_self ..
      exact absurd (hself.symm.trans hj) (by simp)
    · rw [hcharge hji]
      exact h.idle j ((hcalls hji).symm.trans hj)
  case sound =>
    exact ⟨hsound.live, hsound.dialled, hsound.http2, hsound.started, hsound.closed⟩

theorem Attended.closeTunnel (h : Attended c w) (t : Conn) :
    Attended c { w with state := w.state.closeTunnel i t } := by
  have hcalls : (w.state.closeTunnel i t).calls = w.state.calls := by cases t <;> rfl
  have hlive : (w.state.closeTunnel i t).live = Function.update w.state.live i none := by
    cases t <;> rfl
  have hnone : (w.state.closeTunnel i t).live i = none := by rw [hlive, Function.update_self]
  have hraws : w.state.raws.length ≤ (w.state.closeTunnel i t).raws.length ∧
      ∀ rc : ℕ, w.state.raws[rc]? = some false →
        (w.state.closeTunnel i t).raws[rc]? = some false := by
    cases t with
    | http2 rc => exact ⟨le_rfl, fun _ => id⟩
    | raw rc => exact ⟨(List.length_set ..).ge, fun _ => getElem?_closeRaw_of_eq⟩
  refine ⟨fun j call hj => h.attends j call (hcalls ▸ hj), fun j hj => h.idle j (hcalls ▸ hj),
    h.sound.of_footprint (i := i) ?_⟩
  constructor
  case charge => exact fun _ _ => rfl
  case live =>
    intro j hj
    exact (congrFun hlive j).trans (Function.update_of_ne hj ..)
  case length_le => exact hraws.1
  case closed => exact hraws.2
  case http2 => exact fun _ => id
  case live_self => exact fun u hu => absurd (hnone.symm.trans hu) (by simp)
  case raw_self => exact fun rc hu => absurd (hnone.symm.trans hu) (by simp)
  case dialled_self => exact fun _ => Or.inl
  case http2_self => exact fun _ => Or.inl
  case started_self => exact h.sound.started i
  case closed_self => exact fun rc hrc => hraws.2 rc (h.sound.closed i rc hrc)

/-- **One step** keeps the invariant, and loses a connection exactly when it abandons it. -/
theorem attended_of_watch {w' : Watched} {e : Event} (h : Attended c w)
    (hs : watch c w e = some w') :
    Attended c w' ∧ ∀ rc, Orphan w' rc ↔ Orphan w rc ∨ Abandons w e rc := by
  obtain ⟨s', hs', rfl⟩ := Option.map_eq_some_iff.mp hs
  cases move_of_step hs' with
  | @call i network address ctxHeader hi =>
    refine ⟨h.call hi network address ctxHeader, fun rc => ?_⟩
    have hnot : ¬ Abandons w (.call i network address ctxHeader) rc := by
      rintro ⟨-, -, -, ⟨j, hj, -⟩ | ⟨j, rc', hj, -⟩⟩ <;> cases hj
    rw [or_iff_left hnot, orphan_iff, orphan_iff]
    rfl
  | @perform i o r call p hi hp hr =>
    obtain ⟨hallows, hattends⟩ := (h.attends _ _ hi).advance hp
    have ha := act_of_perform c i (r := r) hallows hr
    refine ⟨h.moved ha hattends, fun rc => ?_⟩
    rw [← orphan_moved_iff h.sound rfl ha, orphan_iff, orphan_iff]
    rfl
  | closeTunnel hi => exact ⟨h.closeTunnel _, fun rc => orphan_closeTunnel_iff h.sound hi⟩

end Runs

/-- No call is in progress. -/
def Quiet (s : State) : Prop := ∀ i call, s.calls i = some call → ∃ result, call.prog = .ret result

/-- When no call is in progress, none has anything in its charge. -/
theorem Attended.conn_ne {c : HTTPConnectDialer} {w : Watched} (h : Attended c w)
    (hquiet : Quiet w.state) (i rc : ℕ) : (w.charge i).conn ≠ some rc := by
  cases hi : w.state.calls i with
  | none =>
    rw [h.idle i hi]
    simp [Charge.conn]
  | some call =>
    obtain ⟨result, hret⟩ := hquiet i call hi
    have hnone := h.attends i call hi
    rw [hret] at hnone
    simp [follows_ret.mp hnone]

/-- When no call is in progress, the orphans are the open connections that are neither cached nor
carry a tunnel. -/
theorem Attended.kept_iff {c : HTTPConnectDialer} {w : Watched} (h : Attended c w)
    (hquiet : Quiet w.state) :
    (∀ rc ∈ w.http2, w.state.Open rc →
      w.state.cache = some rc ∨ ∃ i, w.state.live i = some (.http2 rc)) ↔ ¬ ∃ rc, Orphan w rc := by
  constructor
  · rintro hkept ⟨rc, ho⟩
    rcases hkept rc ho.http2 ho.isOpen with hcache | ⟨i, hi⟩
    · exact ho.cache hcache
    · exact ho.live i hi
  · intro hnone rc hmem hopen
    by_contra hlost
    obtain ⟨hcache, hlive⟩ := not_or.mp hlost
    exact hnone ⟨rc, hmem, hopen, hcache, fun i hi => hlive ⟨i, hi⟩, fun i => h.conn_ne hquiet i rc⟩

/-- **The upstream connections.**  When no call is in progress, every open HTTP/2 connection is the
cached one or carries a tunnel, if and only if no step of the run abandoned a connection. -/
theorem connections_kept_iff {c : HTTPConnectDialer} {es : List Event} {w : Watched}
    (hrun : runFrom (watch c) {} es = some w) (hquiet : Quiet w.state) :
    (∀ rc ∈ w.http2, w.state.Open rc →
        w.state.cache = some rc ∨ ∃ i, w.state.live i = some (.http2 rc)) ↔
      Guarded (watch c) (fun w e => ∀ rc, ¬ Abandons w e rc) {} es := by
  have hinv : Attended c w := runFrom_invariant (fun _ _ _ h hs => (attended_of_watch h hs).1)
    (attended_init c) hrun
  rw [hinv.kept_iff hquiet]
  refine runFrom_defect_iff (P := Attended c) (B := fun w => ∃ rc, Orphan w rc) ?_
    (attended_init c) ?_ hrun
  · intro w e w' h hs
    obtain ⟨hinv', hiff⟩ := attended_of_watch h hs
    refine ⟨hinv', ?_⟩
    rw [exists_congr hiff, exists_or, not_forall_not]
  · rintro ⟨rc, ho⟩
    exact absurd ho.http2 (by simp)

/-! ## A connection that is lost -/

/-- The operations of call `i` that make a tunnel on a connection of its own. -/
def firstDial (i rc : ℕ) (address : GoString) : List Event :=
  [.perform i ⟨.dialTLS (ascii "tcp") (ascii "proxy:443"), .ok (rc, ascii "h2")⟩,
    .perform i ⟨.newClientConn rc, none⟩,
    .perform i ⟨.roundTrip rc (sharedRequest address), .ok ⟨200, ascii "200 OK"⟩⟩,
    .perform i ⟨.setCached rc, ()⟩]

/-- One call makes a connection, and its tunnel is closed. -/
def lonelyDial : List Event :=
  [.call 0 (ascii "tcp") (ascii "a:80") none, .perform 0 ⟨.cached, none⟩] ++
    firstDial 0 0 (ascii "a:80") ++ [.closeTunnel 0]

/-- The connection is cached, and nothing was abandoned. -/
theorem connections_kept_lonelyDial :
    ∃ w, runFrom (watch sharingDialer) {} lonelyDial = some w ∧ Quiet w.state ∧
      Guarded (watch sharingDialer) (fun w e => ∀ rc, ¬ Abandons w e rc) {} lonelyDial := by
  have hrun : ∃ w, runFrom (watch sharingDialer) {} lonelyDial = some w ∧ Quiet w.state ∧
      w.http2 = [0] ∧ w.state.cache = some 0 := by
    refine ⟨_, rfl, ?_, rfl, rfl⟩
    rintro (_ | i) call ⟨⟩
    exact ⟨_, rfl⟩
  obtain ⟨w, hrun, hquiet, hhttp2, hcache⟩ := hrun
  refine ⟨w, hrun, hquiet, (connections_kept_iff hrun hquiet).mp fun rc hmem _ => Or.inl ?_⟩
  rw [hhttp2, List.mem_singleton] at hmem
  rw [hcache, hmem]

/-- Two calls find the cache empty, and both make a connection; the tunnel on the first one is
closed. -/
def racingDials : List Event :=
  [.call 0 (ascii "tcp") (ascii "a:80") none, .call 1 (ascii "tcp") (ascii "b:80") none,
    .perform 0 ⟨.cached, none⟩, .perform 1 ⟨.cached, none⟩] ++
    firstDial 0 0 (ascii "a:80") ++ firstDial 1 1 (ascii "b:80") ++ [.closeTunnel 0]

/-- The first connection is open, but the second one is cached. -/
theorem connections_lost : ¬ ∀ (c : HTTPConnectDialer) (es : List Event) (w : Watched),
    c.enableH2ConnReuse = true → runFrom (watch c) {} es = some w → Quiet w.state →
      ∀ rc ∈ w.http2, w.state.Open rc →
        w.state.cache = some rc ∨ ∃ i, w.state.live i = some (.http2 rc) := by
  have hrun : ∃ w, runFrom (watch sharingDialer) {} racingDials = some w ∧ Quiet w.state ∧
      0 ∈ w.http2 ∧ w.state.Open 0 ∧ w.state.cache = some 1 ∧
      ∀ i, w.state.live i ≠ some (.http2 0) := by
    refine ⟨_, rfl, ?_, by decide, rfl, rfl, ?_⟩
    · rintro (_ | _ | i) call ⟨⟩
      · exact ⟨_, rfl⟩
      · exact ⟨_, rfl⟩
    · rintro (_ | _ | i) ⟨⟩
  obtain ⟨w, hrun, hquiet, hmem, hopen, hcache, hlive⟩ := hrun
  intro h
  rcases h sharingDialer racingDials w rfl hrun hquiet 0 hmem hopen with hc | ⟨i, hi⟩
  · rw [hcache] at hc
    cases hc
  · exact hlive i hi

end HttpClient
end ForwardProxy
