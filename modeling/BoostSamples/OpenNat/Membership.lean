import BoostSamples.OpenNat.Server

/-!
# Who is registered at the server

The part of the server that decides which connection is registered where. A
member is a connection with its id, its type and the number of operations
outstanding on it; the two registries map ids to connections. Messages, timers
and queues are left out: the actions below are all that can happen to the
registries, and the server refines this system.

A connection that is in `Receive` has no relay outstanding, and a session in a
pair has the id and the type of its place there. These facts (`WellPlaced`) hold
in every run.
-/

namespace OpenNat

open Registry Transition

structure Member where
  id : Uuid := nilUuid
  type : SessionType := .unknown
  accepted : Bool := false
  /-- Outstanding reads of `Receive`. -/
  receives : Nat := 0
  /-- Outstanding reads of `ReceiveProxy`. -/
  proxyReceives : Nat := 0
  /-- Outstanding relays of `SendProxy`. -/
  relays : Nat := 0
  /-- The failure handler of `Receive` has run. -/
  failed : Bool := false
  deriving DecidableEq, Repr

namespace Member

def proxied (x : Member) : Nat := x.proxyReceives + x.relays

end Member

inductive Request
  | stun (c : ConnId) (id : Uuid)
  | proxy (c : ConnId) (d : Side) (id : Uuid)
  deriving DecidableEq, Repr

def Request.conn : Request → ConnId
  | .stun c _ => c
  | .proxy c _ _ => c

structure Membership where
  member : ConnId → Member := fun _ => {}
  /-- The socket of the connection is open. -/
  isOpen : ConnId → Bool := fun _ => true
  stunMgr : SessionMgr ConnId := .empty
  proxyMgr : ProxyMgr ConnId := .empty

namespace Membership

def modify (m : Membership) (c : ConnId) (f : Member → Member) : Membership :=
  { m with member := Function.update m.member c (f (m.member c)) }

def stop (m : Membership) (c : ConnId) : Membership :=
  { m with isOpen := Function.update m.isOpen c false }

/-- Stops the session a pointer names, if it is not null. -/
def stopHalf (m : Membership) (half : Option ConnId) : Membership :=
  match half with
  | none => m
  | some c => m.stop c

def removeStun (m : Membership) (id : Uuid) : Membership :=
  match m.stunMgr.find id with
  | none => m
  | some c => { m.stop c with stunMgr := m.stunMgr.removeSession id }

def removeProxy (m : Membership) (id : Uuid) : Membership :=
  match m.proxyMgr.findPair id with
  | none => m
  | some pair =>
      { (m.stopHalf pair.down).stopHalf pair.up with
        proxyMgr := m.proxyMgr.removeSession id }

def takeReceive (m : Membership) (c : ConnId) : Membership :=
  m.modify c fun x => { x with receives := x.receives - 1 }

def takeReceiveProxy (m : Membership) (c : ConnId) : Membership :=
  m.modify c fun x => { x with proxyReceives := x.proxyReceives - 1 }

def takeRelay (m : Membership) (c : ConnId) : Membership :=
  m.modify c fun x => { x with relays := x.relays - 1 }

def postReceive (m : Membership) (c : ConnId) : Membership :=
  m.modify c fun x => { x with receives := x.receives + 1 }

def postReceiveProxy (m : Membership) (c : ConnId) : Membership :=
  m.modify c fun x => { x with proxyReceives := x.proxyReceives + 1 }

/-- A refused session loses the id it has just taken and is stopped. -/
def refuse (m : Membership) (c : ConnId) : Membership :=
  (m.modify c fun x => { x with id := nilUuid }).stop c

def connectStun (m : Membership) (c : ConnId) (id : Uuid) : Membership :=
  let m := m.modify c fun x => { x with id := id, type := .stun }
  match m.stunMgr.addSession id c with
  | (_, false) => m.refuse c
  | (mgr, true) => { m with stunMgr := mgr }

/-- A proxy request; the flag says whether the connection stays with `Receive`. -/
def connectProxy (m : Membership) (c : ConnId) (d : Side) (id : Uuid) : Membership × Bool :=
  let m := m.modify c fun x => { x with id := id, type := proxyType d }
  match m.proxyMgr.addSession id (proxyType d) c with
  | (_, false) => (m.refuse c, true)
  | (mgr, true) => ({ m with proxyMgr := mgr }, false)

def connect (m : Membership) : Request → Membership
  | .stun c id => (m.connectStun c id).postReceive c
  | .proxy c d id =>
      match m.connectProxy c d id with
      | (m, true) => m.postReceive c
      | (m, false) => m.postReceiveProxy c

def receiveCatch (m : Membership) (c : ConnId) : Membership :=
  (m.removeStun (m.member c).id).modify c fun x => { x with failed := true }

def receiveProxyCatch (m : Membership) (c : ConnId) : Membership :=
  m.removeProxy (m.member c).id

/-- The sender and the destination of a relay from a connection, if neither
pointer is null. -/
def relayEnds (m : Membership) (c : ConnId) : Option (ConnId × ConnId) :=
  (m.proxyMgr.findPair (m.member c).id).bind fun pair =>
    (m.member c).type.side.bind fun d =>
      (pair.get d).bind fun sender => (pair.get d.other).map fun dest => (sender, dest)

/-- What can happen to the registries. `idle` stands for everything that leaves
them and the outstanding operations alone, `lost` for the read whose handler
ends the process, `timeout` for a STUN timeout that has expired too often. -/
inductive Action
  | idle
  | accept (c : ConnId)
  | connect (r : Request)
  | receiveFail (c : ConnId)
  | receiveProxyFail (c : ConnId)
  | relay (c sender : ConnId)
  | lost (c : ConnId)
  | relayDone (c : ConnId) (ok : Bool)
  | timeout (id : Uuid)
  deriving DecidableEq, Repr

def Action.request : Action → Option Request
  | .connect r => some r
  | _ => none

/-- The relay that an action starts: the connection whose handler runs, and the
sender. -/
def Action.starts : Action → Option (ConnId × ConnId)
  | .relay c sender => some (c, sender)
  | _ => none

def Action.ends : Action → Option ConnId
  | .relayDone c _ => some c
  | _ => none

theorem Action.eq_connect {a : Action} {r : Request} (h : a.request = some r) :
    a = .connect r := by
  cases a with
  | connect r' => rw [Option.some.inj h]
  | _ => cases h

def Enabled (m : Membership) : Action → Prop
  | .idle => True
  | .accept c => (m.member c).accepted = false
  | .connect r => 0 < (m.member r.conn).receives
  | .receiveFail c => 0 < (m.member c).receives
  | .receiveProxyFail c => 0 < (m.member c).proxyReceives
  | .relay c sender =>
      0 < (m.member c).proxyReceives ∧ (m.relayEnds c).map Prod.fst = some sender
  | .lost c => 0 < (m.member c).proxyReceives
  | .relayDone c _ => 0 < (m.member c).relays
  | .timeout id => (m.stunMgr.find id).isSome

instance (m : Membership) (a : Action) : Decidable (m.Enabled a) := by
  cases a <;> unfold Enabled <;> infer_instance

def perform (m : Membership) : Action → Membership
  | .idle => m
  | .accept c => m.modify c fun x => { x with accepted := true, receives := 1 }
  | .connect r => (m.takeReceive r.conn).connect r
  | .receiveFail c => (m.takeReceive c).receiveCatch c
  | .receiveProxyFail c => (m.takeReceiveProxy c).receiveProxyCatch c
  | .relay c sender =>
      (m.takeReceiveProxy c).modify sender fun x => { x with relays := x.relays + 1 }
  | .lost c => m.takeReceiveProxy c
  | .relayDone c ok =>
      if ok then (m.takeRelay c).postReceiveProxy c else m.takeRelay c
  | .timeout id =>
      match m.stunMgr.find id with
      | none => m
      | some c => m.removeStun (m.member c).id

def system : System Membership Action where
  init m := m = {}
  step m a := if m.Enabled a then some (m.perform a) else none

theorem step_eq_some_iff {m m' : Membership} {a : Action} :
    system.step m a = some m' ↔ m.Enabled a ∧ m.perform a = m' := by
  simp [system]

/-- A condition on the requests of a run. -/
def Admits (Q : Membership → Request → Prop) (m : Membership) (a : Action) : Prop :=
  ∀ r, a.request = some r → Q m r

section Operations

variable (m : Membership)

theorem member_modify (c c' : ConnId) (f : Member → Member) :
    (m.modify c f).member c' = if c' = c then f (m.member c) else m.member c' :=
  Function.update_apply m.member c (f (m.member c)) c'

@[simp] theorem member_modify_self (c : ConnId) (f : Member → Member) :
    (m.modify c f).member c = f (m.member c) := by simp [member_modify]

theorem member_modify_of_ne {c c' : ConnId} (h : c' ≠ c) (f : Member → Member) :
    (m.modify c f).member c' = m.member c' := by simp [member_modify, h]

theorem proj_modify {β : Type*} (g : Member → β) {c c' : ConnId} {f : Member → Member}
    (h : c = c' → ∀ x, g (f x) = g x) :
    g ((m.modify c f).member c') = g (m.member c') := by
  rw [member_modify]
  split
  · next hc => rw [h hc.symm, hc]
  · rfl

@[simp] theorem isOpen_modify (c : ConnId) (f : Member → Member) :
    (m.modify c f).isOpen = m.isOpen := rfl

@[simp] theorem stunMgr_modify (c : ConnId) (f : Member → Member) :
    (m.modify c f).stunMgr = m.stunMgr := rfl

@[simp] theorem proxyMgr_modify (c : ConnId) (f : Member → Member) :
    (m.modify c f).proxyMgr = m.proxyMgr := rfl

theorem modify_modify (c : ConnId) (f g : Member → Member) :
    (m.modify c f).modify c g = m.modify c fun x => g (f x) := by
  simp [modify]

theorem modify_eq_self {c : ConnId} {f : Member → Member}
    (h : f (m.member c) = m.member c) : m.modify c f = m := by
  simp [modify, h]

@[simp] theorem id_takeReceive (c : ConnId) :
    ((m.takeReceive c).member c).id = (m.member c).id := by simp [takeReceive]

@[simp] theorem id_takeReceiveProxy (c : ConnId) :
    ((m.takeReceiveProxy c).member c).id = (m.member c).id := by simp [takeReceiveProxy]

theorem takeReceive_postReceive {m : Membership} {c : ConnId}
    (h : 0 < (m.member c).receives) : (m.takeReceive c).postReceive c = m := by
  rw [takeReceive, postReceive, modify_modify]
  refine m.modify_eq_self ?_
  have hreceives : (m.member c).receives - 1 + 1 = (m.member c).receives :=
    Nat.sub_add_cancel h
  simp [hreceives]

theorem isOpen_stop (c c' : ConnId) :
    (m.stop c).isOpen c' = if c' = c then false else m.isOpen c' :=
  Function.update_apply m.isOpen c false c'

@[simp] theorem member_stop (c : ConnId) : (m.stop c).member = m.member := rfl

@[simp] theorem stunMgr_stop (c : ConnId) : (m.stop c).stunMgr = m.stunMgr := rfl

@[simp] theorem proxyMgr_stop (c : ConnId) : (m.stop c).proxyMgr = m.proxyMgr := rfl

@[simp] theorem member_stopHalf (half : Option ConnId) :
    (m.stopHalf half).member = m.member := by cases half <;> rfl

@[simp] theorem stunMgr_stopHalf (half : Option ConnId) :
    (m.stopHalf half).stunMgr = m.stunMgr := by cases half <;> rfl

theorem isOpen_stopHalf {half : Option ConnId} {c : ConnId} (h : half ≠ some c) :
    (m.stopHalf half).isOpen c = m.isOpen c := by
  cases half with
  | none => rfl
  | some c' =>
      have hne : c ≠ c' := fun heq => h (by rw [heq])
      simp [stopHalf, isOpen_stop, hne]

@[simp] theorem member_removeStun (id : Uuid) : (m.removeStun id).member = m.member := by
  unfold removeStun
  cases m.stunMgr.find id <;> rfl

@[simp] theorem proxyMgr_removeStun (id : Uuid) :
    (m.removeStun id).proxyMgr = m.proxyMgr := by
  unfold removeStun
  cases m.stunMgr.find id <;> rfl

theorem find_removeStun (id id' : Uuid) :
    (m.removeStun id).stunMgr.find id' =
      if id' = id then none else m.stunMgr.find id' := by
  unfold removeStun
  cases hfind : m.stunMgr.find id with
  | none =>
      by_cases hid : id' = id
      · simp [hid, hfind]
      · simp [hid]
  | some c => exact m.stunMgr.find_removeSession id id'

/-- A removal stops at most the session that was registered. -/
theorem isOpen_removeStun {id : Uuid} {c : ConnId} (h : m.stunMgr.find id ≠ some c) :
    (m.removeStun id).isOpen c = m.isOpen c := by
  unfold removeStun
  cases hfind : m.stunMgr.find id with
  | none => rfl
  | some c' =>
      have hne : c ≠ c' := fun heq => h (by rw [hfind, heq])
      simp [isOpen_stop, hne]

@[simp] theorem member_removeProxy (id : Uuid) : (m.removeProxy id).member = m.member := by
  unfold removeProxy
  cases m.proxyMgr.findPair id <;> simp

@[simp] theorem stunMgr_removeProxy (id : Uuid) :
    (m.removeProxy id).stunMgr = m.stunMgr := by
  unfold removeProxy
  cases m.proxyMgr.findPair id <;> simp

theorem find_removeProxy (id id' : Uuid) :
    (m.removeProxy id).proxyMgr.find id' =
      if id' = id then none else m.proxyMgr.find id' := by
  unfold removeProxy ProxyMgr.findPair
  cases hfind : m.proxyMgr.find id with
  | none =>
      by_cases hid : id' = id
      · simp [hid, hfind]
      · simp [hid]
  | some p => exact m.proxyMgr.find_remove id id'

theorem isOpen_removeProxy {id : Uuid} {c : ConnId}
    (h : ∀ p, m.proxyMgr.find id = some p → ¬ p.Contains c) :
    (m.removeProxy id).isOpen c = m.isOpen c := by
  unfold removeProxy ProxyMgr.findPair
  cases hfind : m.proxyMgr.find id with
  | none => rfl
  | some p =>
      have hdown : p.down ≠ some c := fun hp => h p hfind ⟨.down, hp⟩
      have hup : p.up ≠ some c := fun hp => h p hfind ⟨.up, hp⟩
      simp only [isOpen_stopHalf _ hup, isOpen_stopHalf _ hdown]

end Operations

def Refused (m : Membership) : Request → Prop
  | .stun _ id => (m.stunMgr.find id).isSome
  | .proxy c d id => m.proxyMgr.add id (some d) c = none

/-- A request registers the connection in one of the registries, or leaves both
as they are and stops it without an id. -/
theorem connect_cases {m : Membership} {r : Request}
    (h : 0 < (m.member r.conn).receives) :
    (∃ c id, r = .stun c id ∧ m.stunMgr.find id = none ∧
      (m.takeReceive r.conn).connect r =
        { m.modify c fun x => { x with id := id, type := .stun } with
          stunMgr := ⟨Function.update m.stunMgr.sessionMap id (some c)⟩ }) ∨
    (∃ c d id mgr, r = .proxy c d id ∧ m.proxyMgr.add id (some d) c = some mgr ∧
      (m.takeReceive r.conn).connect r =
        { m.modify c fun x =>
            { x with
              id := id
              type := proxyType d
              receives := x.receives - 1
              proxyReceives := x.proxyReceives + 1 } with
          proxyMgr := mgr }) ∨
    (m.Refused r ∧ ∃ type, (m.takeReceive r.conn).connect r =
      (m.modify r.conn fun x => { x with id := nilUuid, type := type }).stop r.conn) := by
  cases r with
  | stun c id =>
      have hreceives : (m.member c).receives - 1 + 1 = (m.member c).receives :=
        Nat.sub_add_cancel h
      rcases m.stunMgr.addSession_cases id c with ⟨hfind, hadd⟩ | ⟨⟨other, hfind⟩, hadd⟩
      · refine .inl ⟨c, id, rfl, hfind, ?_⟩
        simp only [connect, connectStun, takeReceive, Request.conn, stunMgr_modify, hadd,
          postReceive, modify_modify]
        simp [modify, hreceives]
      · refine .inr (.inr ⟨by simp [Refused, hfind], .stun, ?_⟩)
        simp only [connect, connectStun, takeReceive, Request.conn, stunMgr_modify, hadd,
          postReceive, refuse, modify_modify]
        simp [modify, stop, hreceives]
  | proxy c d id =>
      have hreceives : (m.member c).receives - 1 + 1 = (m.member c).receives :=
        Nat.sub_add_cancel h
      cases hadd : m.proxyMgr.add id (some d) c with
      | none =>
          refine .inr (.inr ⟨hadd, proxyType d, ?_⟩)
          simp only [connect, connectProxy, takeReceive, Request.conn, proxyMgr_modify,
            ProxyMgr.addSession, side_proxyType, hadd, postReceive, refuse, modify_modify]
          simp [modify, stop, hreceives]
      | some mgr =>
          refine .inr (.inl ⟨c, d, id, mgr, rfl, hadd, ?_⟩)
          simp only [connect, connectProxy, takeReceive, Request.conn, proxyMgr_modify,
            ProxyMgr.addSession, side_proxyType, hadd, postReceiveProxy, modify_modify]
          simp [modify]

theorem placed_of_relayEnds {m : Membership} {c sender : ConnId}
    (h : (m.relayEnds c).map Prod.fst = some sender) :
    ∃ p d, m.proxyMgr.find (m.member c).id = some p ∧ (m.member c).type.side = some d ∧
      p.get d = some sender ∧ (p.get d.other).isSome := by
  obtain ⟨⟨f, t⟩, hends, rfl⟩ := Option.map_eq_some_iff.1 h
  obtain ⟨p, hp, hends⟩ := Option.bind_eq_some_iff.1 hends
  obtain ⟨d, hd, hends⟩ := Option.bind_eq_some_iff.1 hends
  obtain ⟨f', hf, hends⟩ := Option.bind_eq_some_iff.1 hends
  obtain ⟨t', ht, heq⟩ := Option.map_eq_some_iff.1 hends
  obtain ⟨rfl, rfl⟩ := Prod.mk.inj heq
  exact ⟨p, d, hp, hd, hf, by simp [ht]⟩

theorem find_of_find_removeStun {m : Membership} {id id' : Uuid} {c : ConnId}
    (h : (m.removeStun id).stunMgr.find id' = some c) :
    id' ≠ id ∧ m.stunMgr.find id' = some c := by
  rw [find_removeStun] at h
  by_cases hid : id' = id
  · simp [hid] at h
  · exact ⟨hid, by simpa [hid] using h⟩

theorem find_of_find_removeProxy {m : Membership} {id id' : Uuid} {p : Pair ConnId}
    (h : (m.removeProxy id).proxyMgr.find id' = some p) :
    id' ≠ id ∧ m.proxyMgr.find id' = some p := by
  rw [find_removeProxy] at h
  by_cases hid : id' = id
  · simp [hid] at h
  · exact ⟨hid, by simpa [hid] using h⟩

inductive Connected (m : Membership) : Request → Membership → Prop
  | stun {c : ConnId} {id : Uuid} {m' : Membership} :
      m.stunMgr.find id = none →
      m'.member c = { m.member c with id := id, type := .stun } →
      (∀ c', c' ≠ c → m'.member c' = m.member c') →
      (∀ key, m'.stunMgr.find key = if key = id then some c else m.stunMgr.find key) →
      m'.proxyMgr = m.proxyMgr → Connected m (.stun c id) m'
  | proxy {c : ConnId} {d : Side} {id : Uuid} {m' : Membership} :
      m.proxyMgr.add id (some d) c = some m'.proxyMgr →
      m'.member c = { m.member c with
        id := id
        type := proxyType d
        receives := (m.member c).receives - 1
        proxyReceives := (m.member c).proxyReceives + 1 } →
      (∀ c', c' ≠ c → m'.member c' = m.member c') →
      m'.stunMgr = m.stunMgr → Connected m (.proxy c d id) m'
  | refused {r : Request} {m' : Membership} :
      m.Refused r →
      (∃ type, m'.member r.conn = { m.member r.conn with id := nilUuid, type := type }) →
      (∀ c', c' ≠ r.conn → m'.member c' = m.member c') →
      m'.stunMgr = m.stunMgr → m'.proxyMgr = m.proxyMgr → Connected m r m'

theorem connected {m : Membership} {r : Request} (h : 0 < (m.member r.conn).receives) :
    m.Connected r ((m.takeReceive r.conn).connect r) := by
  rcases connect_cases h with
    ⟨c, id, rfl, hfind, heq⟩ | ⟨c, d, id, mgr, rfl, hadd, heq⟩ | ⟨hrefused, type, heq⟩
  · rw [heq]
    exact .stun hfind (Function.update_self c _ m.member)
      (fun c' hc => Function.update_of_ne hc _ m.member)
      (fun key => m.stunMgr.find_update id key (some c)) rfl
  · rw [heq]
    exact .proxy hadd (Function.update_self c _ m.member)
      (fun c' hc => Function.update_of_ne hc _ m.member) rfl
  · rw [heq]
    exact .refused hrefused ⟨type, Function.update_self r.conn _ m.member⟩
      (fun c' hc => Function.update_of_ne hc _ m.member) rfl rfl

/-- What the other actions leave alone: a part `g` of a member that does not
depend on the counters they change. -/
theorem perform_proj {β : Type*} (g : Member → β) {m : Membership} {a : Action}
    (ha : a.request = none) (c : ConnId)
    (haccept : a = .accept c → ∀ x, g { x with accepted := true, receives := 1 } = g x)
    (hfail : a = .receiveFail c → ∀ x n, g { x with receives := n } = g x ∧
      g { x with failed := true } = g x)
    (hproxy : a = .receiveProxyFail c ∨ a = .lost c ∨ (∃ f, a = .relay c f) ∨
      a = .relayDone c true → ∀ x n, g { x with proxyReceives := n } = g x)
    (hrelays : (∃ c', a = .relay c' c) ∨ (∃ ok, a = .relayDone c ok) →
      ∀ x n, g { x with relays := n } = g x) :
    g ((m.perform a).member c) = g (m.member c) := by
  cases a with
  | idle => rfl
  | accept c' => exact m.proj_modify g fun hc => haccept (by rw [hc])
  | connect r => cases ha
  | receiveFail c' =>
      have hcatch : g ((m.perform (.receiveFail c')).member c) =
          g ((m.takeReceive c').member c) := by
        simp only [perform, receiveCatch]
        rw [proj_modify _ g fun hc x => (hfail (by rw [hc]) x 0).2, member_removeStun]
      exact hcatch.trans (m.proj_modify g fun hc x => (hfail (by rw [hc]) x _).1)
  | receiveProxyFail c' =>
      simp only [perform, receiveProxyCatch, member_removeProxy]
      exact m.proj_modify g fun hc x => hproxy (.inl (by rw [hc])) x _
  | relay c' sender =>
      exact (proj_modify _ g fun hc x => hrelays (.inl ⟨c', by rw [hc]⟩) x _).trans
        (m.proj_modify g fun hc x => hproxy (.inr (.inr (.inl ⟨sender, by rw [hc]⟩))) x _)
  | lost c' => exact m.proj_modify g fun hc x => hproxy (.inr (.inl (by rw [hc]))) x _
  | relayDone c' ok =>
      have htake : g ((m.takeRelay c').member c) = g (m.member c) :=
        m.proj_modify g fun hc x => hrelays (.inr ⟨ok, by rw [hc]⟩) x _
      cases ok with
      | false => exact htake
      | true =>
          exact (proj_modify _ g fun hc x =>
            hproxy (.inr (.inr (.inr (by rw [hc])))) x _).trans htake
  | timeout id =>
      simp only [perform]
      split
      · rfl
      · rw [member_removeStun]

theorem perform_id {m : Membership} {a : Action} (ha : a.request = none) (c : ConnId) :
    ((m.perform a).member c).id = (m.member c).id :=
  perform_proj Member.id ha c (fun _ _ => rfl) (fun _ _ _ => ⟨rfl, rfl⟩) (fun _ _ _ => rfl)
    fun _ _ _ => rfl

theorem perform_failed {m : Membership} {a : Action} (ha : a.request = none) {c : ConnId}
    (hc : a ≠ .receiveFail c) :
    ((m.perform a).member c).failed = (m.member c).failed :=
  perform_proj Member.failed ha c (fun _ _ => rfl) (fun he => absurd he hc)
    (fun _ _ _ => rfl) fun _ _ _ => rfl

theorem perform_relays {m : Membership} {a : Action} (ha : a.request = none) (c : ConnId) :
    ((m.perform a).member c).relays =
      (m.member c).relays + (if a.starts.map Prod.snd = some c then 1 else 0) -
        (if a.ends = some c then 1 else 0) := by
  cases a with
  | relay c' sender =>
      have htake : ((m.takeReceiveProxy c').member c).relays = (m.member c).relays :=
        m.proj_modify Member.relays fun _ _ => rfl
      by_cases hc : c = sender
      · subst hc
        simp [perform, Action.starts, Action.ends, htake]
      · rw [perform, member_modify_of_ne _ hc, htake]
        simp [Action.starts, Action.ends, Ne.symm hc]
  | relayDone c' ok =>
      have hdone : ((m.perform (.relayDone c' ok)).member c).relays =
          ((m.takeRelay c').member c).relays := by
        cases ok with
        | false => rfl
        | true =>
            exact (m.takeRelay c').proj_modify Member.relays
              (f := fun x => { x with proxyReceives := x.proxyReceives + 1 }) fun _ _ => rfl
      rw [hdone]
      by_cases hc : c = c'
      · subst hc
        simp [takeRelay, Action.starts, Action.ends]
      · rw [takeRelay, member_modify_of_ne _ hc]
        simp [Action.starts, Action.ends, Ne.symm hc]
  | connect r => cases ha
  | _ =>
      refine (perform_proj Member.relays ha c (fun _ _ => rfl) (fun _ _ _ => ⟨rfl, rfl⟩)
        (fun _ _ _ => rfl) ?_).trans (by simp [Action.starts, Action.ends])
      rintro (⟨c', hc⟩ | ⟨ok, hc⟩) <;> cases hc

/-- Other actions do not start a `Receive` on a connection that is a member. -/
theorem perform_receives {m : Membership} {a : Action} (henabled : m.Enabled a)
    (ha : a.request = none) {c : ConnId} (h : 0 < ((m.perform a).member c).receives) :
    0 < (m.member c).receives ∨ a = .accept c := by
  by_cases haccept : a = .accept c
  · exact .inr haccept
  · by_cases hfail : a = .receiveFail c
    · subst hfail
      exact .inl henabled
    · rw [perform_proj Member.receives ha c (fun he => absurd he haccept)
        (fun he => absurd he hfail) (fun _ _ _ => rfl) fun _ _ _ => rfl] at h
      exact .inl h

/-- Other actions start an operation in proxy mode only for a connection that
has one outstanding or is the sender of a relay. -/
theorem perform_proxied {m : Membership} {a : Action} (henabled : m.Enabled a)
    (ha : a.request = none) {c : ConnId} (h : 0 < ((m.perform a).member c).proxied) :
    0 < (m.member c).proxied ∨ ∃ c', a = .relay c' c := by
  by_contra hnot
  obtain ⟨hzero, hrelay⟩ := not_or.1 hnot
  have hproxy : ¬ 0 < (m.member c).proxyReceives :=
    fun hp => hzero (Nat.add_pos_left hp _)
  have hrelays : ¬ 0 < (m.member c).relays := fun hp => hzero (Nat.add_pos_right _ hp)
  rw [perform_proj Member.proxied ha c (fun _ _ => rfl) (fun _ _ _ => ⟨rfl, rfl⟩)] at h
  · exact hzero h
  · rintro (rfl | rfl | ⟨f, rfl⟩ | rfl)
    · exact absurd henabled hproxy
    · exact absurd henabled hproxy
    · exact absurd henabled.1 hproxy
    · exact absurd henabled hrelays
  · rintro (hr | ⟨ok, rfl⟩)
    · exact absurd hr hrelay
    · exact absurd henabled hrelays

/-- A relay whose sender is the connection that handles it keeps the number of
operations in proxy mode. -/
theorem perform_proxied_le {m : Membership} {a : Action} (henabled : m.Enabled a)
    (ha : a.request = none) (hself : ∀ c sender, a.starts = some (c, sender) → sender = c)
    (c : ConnId) : ((m.perform a).member c).proxied ≤ (m.member c).proxied := by
  cases a with
  | connect r => cases ha
  | relay c' sender =>
      obtain rfl := hself c' sender rfl
      by_cases hc : c = sender
      · subst hc
        have hpos : 0 < (m.member c).proxyReceives := henabled.1
        simp only [perform, takeReceiveProxy, modify_modify, member_modify_self, Member.proxied]
        omega
      · simp [perform, takeReceiveProxy, modify_modify, member_modify_of_ne _ hc]
  | relayDone c' ok =>
      have hpos : 0 < (m.member c').relays := henabled
      by_cases hc : c = c'
      · subst hc
        cases ok with
        | true =>
            simp only [perform, if_true, takeRelay, postReceiveProxy, modify_modify,
              member_modify_self, Member.proxied]
            omega
        | false =>
            simp only [perform, Bool.false_eq_true, if_false, takeRelay, member_modify_self,
              Member.proxied]
            omega
      · cases ok <;>
          simp [perform, takeRelay, postReceiveProxy, modify_modify, member_modify_of_ne _ hc]
  | receiveProxyFail c' =>
      simp only [perform, receiveProxyCatch, member_removeProxy, takeReceiveProxy]
      by_cases hc : c = c'
      · subst hc
        simp only [member_modify_self, Member.proxied]
        omega
      · rw [member_modify_of_ne _ hc]
  | lost c' =>
      simp only [perform, takeReceiveProxy]
      by_cases hc : c = c'
      · subst hc
        simp only [member_modify_self, Member.proxied]
        omega
      · rw [member_modify_of_ne _ hc]
  | _ =>
      refine Nat.le_of_eq (perform_proj Member.proxied ha c (fun _ _ => rfl)
        (fun _ _ _ => ⟨rfl, rfl⟩) ?_ ?_)
      · rintro (hc | hc | ⟨f, hc⟩ | hc) <;> cases hc
      · rintro (⟨c', hc⟩ | ⟨ok, hc⟩) <;> cases hc

theorem perform_stun {m : Membership} {a : Action} (ha : a.request = none) {id : Uuid}
    {c : ConnId} (h : (m.perform a).stunMgr.find id = some c) :
    m.stunMgr.find id = some c := by
  cases a with
  | idle => exact h
  | accept c' => exact h
  | connect r => cases ha
  | receiveFail c' => exact (find_of_find_removeStun h).2
  | receiveProxyFail c' => simpa [perform, receiveProxyCatch, takeReceiveProxy] using h
  | relay c' sender => exact h
  | lost c' => exact h
  | relayDone c' ok => cases ok <;> exact h
  | timeout id' =>
      simp only [perform] at h
      split at h
      · exact h
      · exact (find_of_find_removeStun h).2

theorem perform_proxy {m : Membership} {a : Action} (ha : a.request = none) {id : Uuid}
    {p : Pair ConnId} (h : (m.perform a).proxyMgr.find id = some p) :
    m.proxyMgr.find id = some p := by
  cases a with
  | idle => exact h
  | accept c' => exact h
  | connect r => cases ha
  | receiveFail c' => simpa [perform, receiveCatch, takeReceive] using h
  | receiveProxyFail c' => exact (find_of_find_removeProxy h).2
  | relay c' sender => exact h
  | lost c' => exact h
  | relayDone c' ok => cases ok <;> exact h
  | timeout id' =>
      simp only [perform] at h
      split at h
      · exact h
      · simpa using h

/-- A connection that is not a member yet is as new, one is in one mode at a
time, and a session in a pair has the id and the type of its place and has left
`Receive`. -/
structure WellPlaced (m : Membership) : Prop where
  fresh : ∀ c, (m.member c).accepted = false → m.member c = {}
  single : ∀ c, (m.member c).receives ≤ 1
  mode : ∀ c, 0 < (m.member c).receives → (m.member c).proxied = 0
  failed : ∀ c, (m.member c).failed = true → (m.member c).receives = 0
  proxy : ∀ c, 0 < (m.member c).proxied → ∃ d, (m.member c).type = proxyType d
  placed : ∀ id p d c, m.proxyMgr.find id = some p → p.get d = some c →
    (m.member c).id = id ∧ (m.member c).type = proxyType d ∧
      (m.member c).receives = 0 ∧ (m.member c).accepted = true

namespace WellPlaced

theorem init : WellPlaced {} where
  fresh _ _ := rfl
  single _ := Nat.zero_le 1
  mode _ h := absurd h (Nat.lt_irrefl 0)
  failed _ h := by cases h
  proxy _ h := absurd h (Nat.lt_irrefl 0)
  placed id p d c h := by simp at h

variable {m : Membership}

theorem not_placed (hm : m.WellPlaced) {c : ConnId} (hc : 0 < (m.member c).receives)
    {id : Uuid} {p : Pair ConnId} {d : Side} (hp : m.proxyMgr.find id = some p) :
    p.get d ≠ some c := by
  intro hd
  have hzero := (hm.placed id p d c hp hd).2.2.1
  omega

theorem accepted (hm : m.WellPlaced) {c : ConnId} (hc : 0 < (m.member c).receives) :
    (m.member c).accepted = true := by
  by_contra hnot
  have hfresh := hm.fresh c (by simpa using hnot)
  simp [hfresh] at hc

theorem accepted_of_proxied (hm : m.WellPlaced) {c : ConnId}
    (hc : 0 < (m.member c).proxied) : (m.member c).accepted = true := by
  by_contra hnot
  have hfresh := hm.fresh c (by simpa using hnot)
  simp [hfresh, Member.proxied] at hc

/-- The facts only depend on the members and the pairs, and the pairs may
shrink. -/
theorem of_shrink (hm : m.WellPlaced) {m' : Membership} (hmember : m'.member = m.member)
    (hfind : ∀ id p, m'.proxyMgr.find id = some p → m.proxyMgr.find id = some p) :
    m'.WellPlaced where
  fresh := hmember ▸ hm.fresh
  single := hmember ▸ hm.single
  mode := hmember ▸ hm.mode
  failed := hmember ▸ hm.failed
  proxy := hmember ▸ hm.proxy
  placed id p d c hp hd := hmember ▸ hm.placed id p d c (hfind id p hp) hd

/-- A change of one member that is in no pair, or keeps what its place needs. -/
theorem of_modify (hm : m.WellPlaced) {c : ConnId} {f : Member → Member}
    (hfresh : (f (m.member c)).accepted = true)
    (hsingle : (f (m.member c)).receives ≤ 1)
    (hmode : 0 < (f (m.member c)).receives → (f (m.member c)).proxied = 0)
    (hfailed : (f (m.member c)).failed = true → (f (m.member c)).receives = 0)
    (hproxy : 0 < (f (m.member c)).proxied → ∃ d, (f (m.member c)).type = proxyType d)
    (hplaced : ∀ id p d, m.proxyMgr.find id = some p → p.get d = some c →
      (f (m.member c)).id = id ∧ (f (m.member c)).type = proxyType d ∧
        (f (m.member c)).receives = 0) :
    (m.modify c f).WellPlaced := by
  constructor
  all_goals intro c'
  · rw [member_modify]
    split
    · simp [hfresh]
    · exact hm.fresh c'
  · rw [member_modify]
    split
    · exact hsingle
    · exact hm.single c'
  · rw [member_modify]
    split
    · exact hmode
    · exact hm.mode c'
  · rw [member_modify]
    split
    · exact hfailed
    · exact hm.failed c'
  · rw [member_modify]
    split
    · exact hproxy
    · exact hm.proxy c'
  · intro p d c'' hp hd
    rw [member_modify]
    split
    · next heq =>
        subst heq
        obtain ⟨hid, htype, hreceives⟩ := hplaced c' p d hp hd
        exact ⟨hid, htype, hreceives, hfresh⟩
    · exact hm.placed c' p d c'' hp hd

/-- A session that has the id and the type of its place can be added there. -/
theorem of_add (hm : m.WellPlaced) {c : ConnId} {d : Side} {id : Uuid}
    {mgr : ProxyMgr ConnId} (hadd : m.proxyMgr.add id (some d) c = some mgr)
    (hc : (m.member c).id = id ∧ (m.member c).type = proxyType d ∧
      (m.member c).receives = 0 ∧ (m.member c).accepted = true) :
    WellPlaced { m with proxyMgr := mgr } where
  fresh := hm.fresh
  single := hm.single
  mode := hm.mode
  failed := hm.failed
  proxy := hm.proxy
  placed id' p' d' c' hp' hd' := by
    obtain ⟨⟨p, hp, hd, hother⟩, hrest⟩ := PairMap.find_of_add hadd
    by_cases hid : id' = id
    · subst hid
      obtain rfl : p = p' := Option.some.inj (hp.symm.trans hp')
      rcases d.eq_or_eq_other d' with rfl | rfl
      · obtain rfl : c = c' := Option.some.inj (hd.symm.trans hd')
        exact hc
      · rw [hd', eq_comm, Option.bind_eq_some_iff] at hother
        obtain ⟨q, hq, hqd⟩ := hother
        exact hm.placed id' q d.other c' hq hqd
    · exact hm.placed id' p' d' c' (hrest id' hid ▸ hp') hd'

theorem rename (hm : m.WellPlaced) {c : ConnId} (hc : 0 < (m.member c).receives)
    (id : Uuid) (type : SessionType) :
    (m.modify c fun x => { x with id := id, type := type }).WellPlaced := by
  have hmode := hm.mode c hc
  refine hm.of_modify (hm.accepted hc) (hm.single c) (fun _ => hmode) (hm.failed c)
    (fun hp => ?_) fun id' p d hp hd => (hm.not_placed hc hp hd).elim
  exact absurd hmode (Nat.pos_iff_ne_zero.1 hp)

theorem connect (hm : m.WellPlaced) {r : Request} (h : 0 < (m.member r.conn).receives) :
    ((m.takeReceive r.conn).connect r).WellPlaced := by
  rcases connect_cases h with
    ⟨c, id, rfl, -, heq⟩ | ⟨c, d, id, mgr, rfl, hadd, heq⟩ | ⟨-, type, heq⟩
  · rw [heq]
    exact (hm.rename h id .stun).of_shrink rfl fun _ _ hp => hp
  · rw [heq]
    change 0 < (m.member c).receives at h
    have hreceives : (m.member c).receives - 1 = 0 := by
      have hle := hm.single c
      omega
    refine of_add (hm.of_modify (hm.accepted h) ((Nat.sub_le _ _).trans (hm.single c))
      (fun hp => ?_) (fun _ => hreceives) (fun _ => ⟨d, rfl⟩)
      fun id' p d' hp hd => (hm.not_placed h hp hd).elim) hadd ?_
    · exact absurd hreceives (Nat.pos_iff_ne_zero.1 hp)
    · rw [member_modify_self]
      exact ⟨rfl, rfl, hreceives, hm.accepted h⟩
  · rw [heq]
    exact (hm.rename h nilUuid type).of_shrink rfl fun _ _ hp => hp

theorem of_take (hm : m.WellPlaced) {c : ConnId} {f : Member → Member}
    (hc : 0 < (m.member c).proxied)
    (hid : (f (m.member c)).id = (m.member c).id)
    (htype : (f (m.member c)).type = (m.member c).type)
    (haccepted : (f (m.member c)).accepted = (m.member c).accepted)
    (hreceives : (f (m.member c)).receives = (m.member c).receives) :
    (m.modify c f).WellPlaced := by
  have hzero : (m.member c).receives = 0 := by
    by_contra hne
    have hmode := hm.mode c (Nat.pos_iff_ne_zero.2 hne)
    omega
  refine hm.of_modify (haccepted ▸ hm.accepted_of_proxied hc) (hreceives ▸ hm.single c)
    (fun hp => ?_) (fun _ => hreceives ▸ hzero) (fun _ => htype ▸ hm.proxy c hc)
    fun id p d hp hd => ?_
  · omega
  · obtain ⟨hid', htype', -, -⟩ := hm.placed id p d c hp hd
    exact ⟨hid ▸ hid', htype ▸ htype', hreceives ▸ hzero⟩

theorem step (hm : m.WellPlaced) {m' : Membership} {a : Action}
    (h : system.step m a = some m') : m'.WellPlaced := by
  obtain ⟨henabled, rfl⟩ := step_eq_some_iff.1 h
  cases a with
  | idle => exact hm
  | accept c =>
      have hnew : m.member c = {} := hm.fresh c henabled
      simp only [perform]
      refine hm.of_modify rfl (Nat.le_refl 1) (fun _ => ?_) (fun hf => ?_) (fun hp => ?_)
        fun id p d hp hd => ?_
      · simp [hnew, Member.proxied]
      · simp [hnew] at hf
      · simp [hnew, Member.proxied] at hp
      · have haccepted := (hm.placed id p d c hp hd).2.2.2
        simp [hnew] at haccepted
  | connect r => exact hm.connect henabled
  | receiveFail c =>
      have hreceives : (m.member c).receives - 1 = 0 := by
        have hle := hm.single c
        omega
      have hmode := hm.mode c henabled
      have htake : (m.modify c fun x =>
          { x with receives := x.receives - 1, failed := true }).WellPlaced := by
        refine hm.of_modify (hm.accepted henabled) ((Nat.sub_le _ _).trans (hm.single c))
          (fun _ => hmode) (fun _ => hreceives) (fun hp => ?_)
          fun id' p d' hp hd => (hm.not_placed henabled hp hd).elim
        exact absurd hmode (Nat.pos_iff_ne_zero.1 hp)
      refine htake.of_shrink ?_ fun id p hp => ?_
      · simp [perform, receiveCatch, takeReceive, modify]
      · simpa [perform, receiveCatch, takeReceive] using hp
  | receiveProxyFail c =>
      have hproxied : 0 < (m.member c).proxied := Nat.add_pos_left henabled _
      refine (hm.of_take hproxied rfl rfl rfl rfl).of_shrink
        (member_removeProxy (m.takeReceiveProxy c) _) fun id p hp => ?_
      exact (find_of_find_removeProxy hp).2
  | relay c sender =>
      obtain ⟨p, d, hp, -, hd, -⟩ := placed_of_relayEnds henabled.2
      have hproxied : 0 < (m.member c).proxied := Nat.add_pos_left henabled.1 _
      have htake : (m.takeReceiveProxy c).WellPlaced := hm.of_take hproxied rfl rfl rfl rfl
      obtain ⟨-, htype, hreceives, haccepted⟩ := htake.placed _ p d sender hp hd
      simp only [perform]
      refine htake.of_modify haccepted (htake.single sender) (fun hr => ?_)
        (fun _ => hreceives) (fun _ => ⟨d, htype⟩) fun id' p' d' hp' hd' => ?_
      · exact absurd hreceives (Nat.pos_iff_ne_zero.1 hr)
      · obtain ⟨hid, htype', hreceives', -⟩ := htake.placed id' p' d' sender hp' hd'
        exact ⟨hid, htype', hreceives'⟩
  | lost c =>
      have hproxied : 0 < (m.member c).proxied := Nat.add_pos_left henabled _
      simp only [perform, takeReceiveProxy]
      exact hm.of_take hproxied rfl rfl rfl rfl
  | relayDone c ok =>
      have hproxied : 0 < (m.member c).proxied := Nat.add_pos_right _ henabled
      cases ok with
      | false =>
          simp only [perform, Bool.false_eq_true, if_false, takeRelay]
          exact hm.of_take hproxied rfl rfl rfl rfl
      | true =>
          simp only [perform, if_true, takeRelay, postReceiveProxy, modify_modify]
          exact hm.of_take hproxied rfl rfl rfl rfl
  | timeout id =>
      simp only [perform]
      split
      · exact hm
      · exact hm.of_shrink (member_removeStun m _) fun _ _ hp => by simpa using hp

theorem of_reachable (h : system.Reachable m) : m.WellPlaced :=
  h.invariant (fun _ hm => hm ▸ init) fun _ _ _ hm _ ht => hm.step ht

end WellPlaced

end Membership

end OpenNat
