import BoostSamples.OpenNat.Membership

/-!
# The server refines its membership

Each step of the server is, on the connections and the registries, one action
of `Membership`, and the only steps that are connect requests are the reads of a
frame that holds one.
-/

namespace OpenNat

open Registry Transition

def Conn.member (x : Conn) : Member :=
  ⟨x.session.id, x.session.type, x.accepted, x.receives, x.proxyReceives, x.relays, x.failed⟩

def Command.request (c : ConnId) (cmd : Command) : Option Request :=
  match cmd.protocol, cmd.connect with
  | .connect, some ⟨.request, .stun, some id, _, _, _⟩ => some (.stun c id)
  | .connect, some ⟨.request, .proxyUp, some id, _, _, _⟩ => some (.proxy c .up id)
  | .connect, some ⟨.request, .proxyDown, some id, _, _, _⟩ => some (.proxy c .down id)
  | _, _ => none

namespace Server

def membership (s : Server) : Membership where
  member c := (s.conns c).member
  isOpen c := (s.conns c).session.isOpen
  stunMgr := s.stunMgr
  proxyMgr := s.proxyMgr

def request (s : Server) : Event → Option Request
  | .receive c => ((s.conns c).inbox.head?.bind Frame.command).bind (Command.request c)
  | _ => none

section Frames

variable (s : Server)

/-- A change of a connection is seen as the change of its member. -/
theorem membership_modify (c : ConnId) {f : Conn → Conn} {g : Member → Member}
    (hmember : (f (s.conns c)).member = g (s.conns c).member)
    (hopen : (f (s.conns c)).session.isOpen = (s.conns c).session.isOpen) :
    (s.modify c f).membership = s.membership.modify c g := by
  simp only [membership, modify, Membership.modify, Membership.mk.injEq, and_true]
  constructor
  · funext c'
    by_cases hc : c' = c
    · subst hc
      simp [hmember]
    · simp [hc]
  · funext c'
    by_cases hc : c' = c
    · subst hc
      simp [hopen]
    · simp [hc]

theorem membership_modify_eq (c : ConnId) {f : Conn → Conn}
    (hmember : (f (s.conns c)).member = (s.conns c).member)
    (hopen : (f (s.conns c)).session.isOpen = (s.conns c).session.isOpen) :
    (s.modify c f).membership = s.membership := by
  rw [s.membership_modify c (g := id) hmember hopen]
  exact Membership.modify_eq_self _ rfl

theorem membership_modifySession_eq (c : ConnId) {f : Session → Session}
    (hid : (f (s.conns c).session).id = (s.conns c).session.id)
    (htype : (f (s.conns c).session).type = (s.conns c).session.type)
    (hopen : (f (s.conns c).session).isOpen = (s.conns c).session.isOpen) :
    (s.modifySession c f).membership = s.membership :=
  s.membership_modify_eq c (by simp [Conn.member, hid, htype]) hopen

@[simp] theorem membership_send (id : Uuid) (type : SessionType) (cmd : Command) :
    (s.send id type cmd).membership = s.membership := by
  unfold send
  split
  · simp only
    split <;> rfl
  · rfl

@[simp] theorem membership_write (c : ConnId) (frame : Frame) :
    (s.write c frame).membership = s.membership := by
  refine s.membership_modify_eq c ?_ ?_
  · by_cases hopen : (s.conns c).session.isOpen <;> simp [hopen, Conn.member]
  · by_cases hopen : (s.conns c).session.isOpen <;> simp [hopen]

@[simp] theorem membership_onNotify (subscriber subscription : Uuid) (online : Bool) :
    (s.onNotify subscriber subscription online).membership = s.membership := by
  simp only [onNotify, membership_send]
  rfl

@[simp] theorem membership_notify (subscription : Uuid) (online : Bool) :
    (s.notify subscription online).membership = s.membership := by
  unfold notify
  induction s.subscribeList subscription generalizing s with
  | nil => rfl
  | cons subscriber list ih => rw [List.foldl_cons, ih, membership_onNotify]

@[simp] theorem membership_subscribe (subscription subscriber : Uuid) (online : Bool) :
    (s.subscribe subscription subscriber online).membership = s.membership := by
  simp only [subscribe, membership_onNotify]
  rfl

@[simp] theorem membership_processHeartbeat (c : ConnId) (h : Heartbeat) :
    (s.processHeartbeat c h).membership = s.membership := by
  unfold processHeartbeat
  split
  · exact s.membership_modify_eq c rfl rfl
  · split
    · rw [membership_send]
      exact s.membership_modify_eq c rfl rfl
    · rfl

@[simp] theorem membership_postReceive (c : ConnId) :
    (s.postReceive c).membership = s.membership.postReceive c :=
  s.membership_modify c rfl rfl

@[simp] theorem membership_postReceiveProxy (c : ConnId) :
    (s.postReceiveProxy c).membership = s.membership.postReceiveProxy c :=
  s.membership_modify c rfl rfl

@[simp] theorem membership_takeReceive (c : ConnId) :
    (s.takeReceive c).membership = s.membership.takeReceive c :=
  s.membership_modify c rfl rfl

@[simp] theorem membership_takeReceiveProxy (c : ConnId) :
    (s.takeReceiveProxy c).membership = s.membership.takeReceiveProxy c :=
  s.membership_modify c rfl rfl

@[simp] theorem membership_takeRelay (c : ConnId) :
    (s.takeRelay c).membership = s.membership.takeRelay c :=
  s.membership_modify c rfl rfl

@[simp] theorem membership_takeFrame (c : ConnId) :
    (s.takeFrame c).membership = s.membership :=
  s.membership_modify_eq c rfl rfl

theorem membership_takeWait (c : ConnId) (i : Nat) :
    (s.takeWait c i).membership = s.membership :=
  s.membership_modifySession_eq c rfl rfl rfl

@[simp] theorem membership_sendP2P (sender : ConnId) (clientId : Uuid) (frame : Frame) :
    (s.sendP2P sender clientId frame).membership = s.membership.postReceive sender := by
  unfold sendP2P
  split
  · simp only [membership_postReceive]
    congr 1
    exact s.membership_write _ frame
  · simp

@[simp] theorem membership_drain : s.drain.membership = s.membership := by
  unfold drain
  split
  · rfl
  · split <;> rfl

theorem membership_stop (c : ConnId) :
    (s.stop c).membership = s.membership.stop c := by
  simp only [membership, stop, modifySession, modify, Membership.stop, Membership.mk.injEq,
    and_true]
  constructor
  · funext c'
    by_cases hc : c' = c
    · subst hc
      by_cases hopen : (s.conns c').session.isOpen <;>
        simp [Session.stop, Session.cancelTimer, hopen, Conn.member]
    · simp [hc]
  · funext c'
    by_cases hc : c' = c
    · subst hc
      by_cases hopen : (s.conns c').session.isOpen <;>
        simp [Session.stop, hopen]
    · simp [hc]

theorem membership_stopHalf (half : Option ConnId) :
    (s.stopHalf half).membership = s.membership.stopHalf half := by
  cases half with
  | none => rfl
  | some c => exact s.membership_stop c

theorem membership_setStun (mgr : SessionMgr ConnId) :
    ({ s with stunMgr := mgr } : Server).membership =
      { s.membership with stunMgr := mgr } := rfl

theorem membership_setProxy (mgr : ProxyMgr ConnId) :
    ({ s with proxyMgr := mgr } : Server).membership =
      { s.membership with proxyMgr := mgr } := rfl

@[simp] theorem membership_stunMgr : s.membership.stunMgr = s.stunMgr := rfl

@[simp] theorem membership_proxyMgr : s.membership.proxyMgr = s.proxyMgr := rfl

theorem membership_removeStun (id : Uuid) :
    (s.removeStun id).membership = s.membership.removeStun id := by
  cases hfind : s.stunMgr.find id with
  | none => simp only [removeStun, Membership.removeStun, membership_stunMgr, hfind]
  | some c =>
      simp only [removeStun, Membership.removeStun, membership_stunMgr, hfind]
      rw [membership_setStun, membership_stop]

theorem membership_removeProxy (id : Uuid) :
    (s.removeProxy id).membership = s.membership.removeProxy id := by
  cases hfind : s.proxyMgr.findPair id with
  | none => simp only [removeProxy, Membership.removeProxy, membership_proxyMgr, hfind]
  | some pair =>
      simp only [removeProxy, Membership.removeProxy, membership_proxyMgr, hfind]
      rw [membership_setProxy, membership_stopHalf, membership_stopHalf]

theorem membership_connectStun (c : ConnId) (id : Uuid) :
    (s.connectStun c id).membership = s.membership.connectStun c id := by
  unfold connectStun Membership.connectStun
  have hname : (s.modifySession c fun x =>
      (Session.expiresFromNow { x with id := id, type := .stun } s.now 5).asyncWait
        id).membership = s.membership.modify c fun x => { x with id := id, type := .stun } :=
    s.membership_modify c rfl rfl
  rcases s.stunMgr.addSession_cases id c with ⟨-, hadd⟩ | ⟨-, hadd⟩
  · have hadd' : s.membership.stunMgr.addSession id c = _ := hadd
    simp only [modifySession, modify, hadd, Membership.stunMgr_modify, hadd',
      membership_send, membership_notify]
    rw [← hname]
    rfl
  · have hadd' : s.membership.stunMgr.addSession id c = _ := hadd
    simp only [Membership.stunMgr_modify, hadd', Membership.refuse]
    rw [show (s.modifySession c fun x => (Session.expiresFromNow
      { x with id := id, type := .stun } s.now 5).asyncWait id).stunMgr = s.stunMgr from rfl,
      hadd, membership_stop, ← hname]
    congr 1
    exact membership_modify _ c rfl rfl

theorem membership_connectProxy (c : ConnId) (d : Side) (id : Uuid) :
    ((s.connectProxy c d id).1.membership, (s.connectProxy c d id).2) =
      s.membership.connectProxy c d id := by
  unfold connectProxy Membership.connectProxy
  have hname : (s.modifySession c fun x => { x with id := id, type := proxyType d }).membership =
      s.membership.modify c fun x => { x with id := id, type := proxyType d } :=
    s.membership_modify c rfl rfl
  simp only [Membership.proxyMgr_modify]
  rw [show (s.modifySession c fun x => { x with id := id, type := proxyType d }).proxyMgr =
    s.proxyMgr from rfl, show s.membership.proxyMgr = s.proxyMgr from rfl]
  rcases s.proxyMgr.addSession id (proxyType d) c with ⟨mgr, _ | _⟩
  · simp only [Membership.refuse, ← hname, membership_stop, Prod.mk.injEq, and_true]
    congr 1
    exact membership_modify _ c rfl rfl
  · simp only [membership_send, ← hname]
    rfl

/-- A heartbeat timeout leaves the registries alone, or removes a session that
has not answered for too long. -/
theorem membership_handleStunTimeout (id : Uuid) :
    (s.handleStunTimeout id).membership = s.membership ∨
      ∃ c, s.stunMgr.find id = some c ∧
        (s.handleStunTimeout id).membership =
          s.membership.removeStun (s.membership.member c).id := by
  unfold handleStunTimeout
  cases hfind : s.stunMgr.find id with
  | none => exact .inl rfl
  | some c =>
      simp only
      split
      · split
        · exact .inr ⟨c, rfl, s.membership_removeStun _⟩
        · refine .inl ?_
          split
          · exact s.membership_modify_eq c rfl rfl
          · rw [membership_modifySession_eq, membership_send, membership_modifySession_eq]
            all_goals rfl
      · exact .inl (s.membership_modify_eq c rfl rfl)

end Frames

variable {s s' t : Server}

/-- The registries after a command: those after its connect request, if it holds
one, and the next read posted. -/
theorem process_ok {c : ConnId} {cmd : Command} {more : Bool}
    (h : s.process c cmd = .ok (s', more)) :
    (∃ r, cmd.request c = some r ∧ r.conn = c ∧
      (if more then s'.membership.postReceive c else s'.membership.postReceiveProxy c) =
        s.membership.connect r) ∨
    (more = true ∧ s'.membership = s.membership) := by
  unfold process at h
  split at h
  · next hprotocol =>
      split at h
      · cases h
        exact .inr ⟨rfl, rfl⟩
      · next connectIn hconnect =>
          have hproxy : ∀ d id, s.connectProxy c d id = (s', more) →
              (if more then s'.membership.postReceive c
                else s'.membership.postReceiveProxy c) =
                s.membership.connect (.proxy c d id) := by
            intro d id hd
            have hmembership := s.membership_connectProxy c d id
            rw [hd] at hmembership
            rw [Membership.connect, ← hmembership]
            cases more <;> rfl
          obtain ⟨protocol, kind, clientId, initialized, ready, external⟩ := connectIn
          cases protocol with
          | reply =>
              cases h
              exact .inr ⟨rfl, rfl⟩
          | request =>
              cases kind with
              | direct =>
                  cases h
                  exact .inr ⟨rfl, rfl⟩
              | stun =>
                  cases clientId with
                  | none => cases h
                  | some id =>
                      cases h
                      refine .inl ⟨.stun c id, ?_, rfl, ?_⟩
                      · simp [Command.request, hprotocol, hconnect]
                      · simp [Membership.connect, membership_connectStun]
              | proxyUp =>
                  cases clientId with
                  | none => cases h
                  | some id =>
                      refine .inl ⟨.proxy c .up id, ?_, rfl, hproxy .up id (Except.ok.inj h)⟩
                      simp [Command.request, hprotocol, hconnect]
              | proxyDown =>
                  cases clientId with
                  | none => cases h
                  | some id =>
                      refine .inl ⟨.proxy c .down id, ?_, rfl,
                        hproxy .down id (Except.ok.inj h)⟩
                      simp [Command.request, hprotocol, hconnect]
  · cases h
    exact .inr ⟨rfl, membership_processHeartbeat _ _ _⟩
  · split at h
    · cases h
      exact .inr ⟨rfl, membership_subscribe _ _ _ _⟩
    · cases h
    · cases h
      exact .inr ⟨rfl, rfl⟩
  · cases h
    exact .inr ⟨rfl, rfl⟩
  · cases h
    exact .inr ⟨rfl, rfl⟩

theorem process_error {c : ConnId} {cmd : Command} (h : s.process c cmd = .error s') :
    s' = s := by
  unfold process at h
  split at h
  · split at h
    · cases h
    · split at h <;> first | cases h; rfl | cases h
  · cases h
  · split at h <;> first | cases h; rfl | cases h
  · cases h
  · cases h

theorem handleReceive_ok {c : ConnId} {frame : Frame}
    (h : s.handleReceive c frame = .ok t) :
    (∃ r, frame.command.bind (Command.request c) = some r ∧ r.conn = c ∧
      t.membership = s.membership.connect r) ∨
    t.membership = s.membership.postReceive c := by
  unfold handleReceive at h
  split at h
  · cases h
  · next cmd hcmd =>
      split at h
      · split at h
        · cases h
        · cases h
          exact .inr (membership_sendP2P _ _ _ _)
      · split at h
        · cases h
        · next s' hprocess =>
            cases h
            rcases process_ok hprocess with ⟨r, hr, hconn, heq⟩ | ⟨-, heq⟩
            · refine .inl ⟨r, by simp [hcmd, hr], hconn, ?_⟩
              simpa using heq
            · exact .inr (by rw [membership_postReceive, heq])
        · next s' hprocess =>
            cases h
            rcases process_ok hprocess with ⟨r, hr, hconn, heq⟩ | ⟨hmore, -⟩
            · refine .inl ⟨r, by simp [hcmd, hr], hconn, ?_⟩
              simpa using heq
            · cases hmore

theorem handleReceive_error {c : ConnId} {frame : Frame}
    (h : s.handleReceive c frame = .error s') : s' = s := by
  unfold handleReceive at h
  split at h
  · cases h
    rfl
  · split at h
    · split at h
      · cases h
        rfl
      · cases h
    · split at h
      · next hprocess =>
          cases h
          exact process_error hprocess
      · cases h
      · cases h

theorem membership_receiveCatch (s : Server) (c : ConnId) :
    (s.receiveCatch c).membership = s.membership.receiveCatch c := by
  unfold receiveCatch Membership.receiveCatch
  rw [membership_modify _ c (f := fun x => { x with failed := true })
    (g := fun x => { x with failed := true }) rfl rfl, membership_notify,
    membership_removeStun]
  rfl

theorem membership_receiveProxyCatch (s : Server) (c : ConnId) :
    (s.receiveProxyCatch c).membership = s.membership.receiveProxyCatch c :=
  s.membership_removeProxy _

/-- A relay with both pointers is one more operation of its sender; one with a
null pointer ends the process. -/
theorem sendProxy_cases (s : Server) (c : ConnId) (frame : Frame)
    (sender dest : Option ConnId) :
    (∃ f t, sender = some f ∧ dest = some t ∧
      (s.sendProxy c frame sender dest).fault = s.fault ∧
      (s.sendProxy c frame sender dest).membership =
        s.membership.modify f fun x => { x with relays := x.relays + 1 }) ∨
    ((sender = none ∨ dest = none) ∧
      s.sendProxy c frame sender dest = { s with fault := true }) := by
  cases sender with
  | none => exact .inr ⟨.inl rfl, rfl⟩
  | some f =>
      cases dest with
      | none => exact .inr ⟨.inr rfl, rfl⟩
      | some t =>
          refine .inl ⟨f, t, rfl, rfl, rfl, ?_⟩
          simp only [sendProxy, membership_write]
          exact s.membership_modify f rfl rfl

/-- A frame that `ReceiveProxy` handles is relayed between the ends of the pair
that was found. -/
theorem handleReceiveProxy_ok {c : ConnId} {frame : Frame}
    (h : s.handleReceiveProxy c frame = .ok t) :
    ∃ p d, s.proxyMgr.find (s.conns c).session.id = some p ∧
      (s.conns c).session.type.side = some d ∧
      t = s.sendProxy c frame (p.get d) (p.get d.other) := by
  unfold handleReceiveProxy at h
  split at h
  · cases h
  · next p hp =>
      split at h
      · next htype =>
          cases h
          exact ⟨p, .down, hp, by rw [htype]; rfl, rfl⟩
      · next htype =>
          cases h
          exact ⟨p, .up, hp, by rw [htype]; rfl, rfl⟩
      · cases h

theorem handleReceiveProxy_error {c : ConnId} {frame : Frame}
    (h : s.handleReceiveProxy c frame = .error s') : s' = s := by
  unfold handleReceiveProxy at h
  split at h
  · cases h
    rfl
  · split at h
    · cases h
    · cases h
    · cases h
      rfl

/-- `ReceiveProxy` throws without a pair or on a session that is in no half. -/
theorem handleReceiveProxy_unpaired {c : ConnId} {frame : Frame}
    (h : s.handleReceiveProxy c frame = .error s') :
    s.proxyMgr.find (s.conns c).session.id = none ∨ (s.conns c).session.type.side = none := by
  unfold handleReceiveProxy at h
  split at h
  · next hp => exact .inl hp
  · split at h
    · cases h
    · cases h
    · next hdown hup =>
        refine .inr ?_
        cases htype : (s.conns c).session.type with
        | proxyDown => exact absurd htype hdown
        | proxyUp => exact absurd htype hup
        | _ => rfl

theorem handle_receive {c : ConnId} (h : s.handle (.receive c) = some t) :
    0 < (s.conns c).receives ∧ ∃ frame, (s.conns c).inbox.head? = some frame ∧
      (((s.takeReceive c).takeFrame c).handleReceive c frame = .ok t ∨
        ∃ s', ((s.takeReceive c).takeFrame c).handleReceive c frame = .error s' ∧
          t = s'.receiveCatch c) := by
  simp only [handle, Option.ite_none_left_eq_some, Option.map_eq_some_iff] at h
  obtain ⟨hreceives, frame, hframe, ht⟩ := h
  refine ⟨Nat.pos_iff_ne_zero.2 hreceives, frame, hframe, ?_⟩
  split at ht
  · next s' hs' => exact .inl (ht ▸ hs')
  · next s' hs' => exact .inr ⟨s', hs', ht.symm⟩

theorem handle_receiveProxy {c : ConnId} (h : s.handle (.receiveProxy c) = some t) :
    0 < (s.conns c).proxyReceives ∧ ∃ frame, (s.conns c).inbox.head? = some frame ∧
      (((s.takeReceiveProxy c).takeFrame c).handleReceiveProxy c frame = .ok t ∨
        ∃ s', ((s.takeReceiveProxy c).takeFrame c).handleReceiveProxy c frame = .error s' ∧
          t = s'.receiveProxyCatch c) := by
  simp only [handle, Option.ite_none_left_eq_some, Option.map_eq_some_iff] at h
  obtain ⟨hreceives, frame, hframe, ht⟩ := h
  refine ⟨Nat.pos_iff_ne_zero.2 hreceives, frame, hframe, ?_⟩
  split at ht
  · next s' hs' => exact .inl (ht ▸ hs')
  · next s' hs' => exact .inr ⟨s', hs', ht.symm⟩

/-- The relay that an event starts: the connection whose handler runs, and the
sender. -/
def starts (s : Server) : Event → Option (ConnId × ConnId)
  | .receiveProxy c => (s.membership.relayEnds c).map fun ends => (c, ends.1)
  | _ => none

def Event.ends : Event → Option ConnId
  | .relayDone c _ => some c
  | _ => none

theorem receive_refines {c : ConnId} (h : s.handle (.receive c) = some t) :
    ∃ a, Membership.system.step s.membership a = some t.membership ∧
      (∀ r, a.request = some r → s.request (.receive c) = some r) ∧
      a.starts = none ∧ a.ends = none := by
  obtain ⟨hreceives, frame, hframe, hok | ⟨s', herror, rfl⟩⟩ := handle_receive h
  · rcases handleReceive_ok hok with ⟨r, hr, rfl, heq⟩ | heq
    · refine ⟨.connect r, Membership.step_eq_some_iff.2 ⟨hreceives, ?_⟩, ?_, rfl, rfl⟩
      · rw [heq]
        simp [Membership.perform]
      · intro r' hr'
        obtain rfl := Option.some.inj hr'
        simp [request, hframe, hr]
    · refine ⟨.idle, Membership.step_eq_some_iff.2 ⟨trivial, ?_⟩, fun _ hr => (by cases hr),
        rfl, rfl⟩
      rw [heq, membership_takeFrame, membership_takeReceive]
      exact (Membership.takeReceive_postReceive hreceives).symm
  · obtain rfl := handleReceive_error herror
    refine ⟨.receiveFail c, Membership.step_eq_some_iff.2 ⟨hreceives, ?_⟩,
      fun _ hr => (by cases hr), rfl, rfl⟩
    simp [Membership.perform, membership_receiveCatch]

theorem receiveProxy_refines {c : ConnId} (h : s.handle (.receiveProxy c) = some t) :
    ∃ a, Membership.system.step s.membership a = some t.membership ∧ a.request = none ∧
      a.starts = s.starts (.receiveProxy c) ∧ a.ends = none := by
  have hconns : ∀ c', (((s.takeReceiveProxy c).takeFrame c).conns c').session =
      (s.conns c').session := by
    intro c'
    by_cases hc : c' = c
    · subst hc
      simp [takeReceiveProxy, takeFrame, modify]
    · simp [takeReceiveProxy, takeFrame, modify, hc]
  obtain ⟨hreceives, frame, hframe, hok | ⟨s', herror, rfl⟩⟩ := handle_receiveProxy h
  · obtain ⟨p, d, hp, hd, rfl⟩ := handleReceiveProxy_ok hok
    rw [hconns] at hp hd
    have hends : s.membership.relayEnds c =
        (p.get d).bind fun sender => (p.get d.other).map fun dest => (sender, dest) := by
      have hp' : s.proxyMgr.find (s.conns c).session.id = some p := hp
      simp [Membership.relayEnds, ProxyMgr.findPair, membership, Conn.member, hp', hd]
    rcases sendProxy_cases ((s.takeReceiveProxy c).takeFrame c) c frame (p.get d)
      (p.get d.other) with ⟨f, t, hf, ht, -, heq⟩ | ⟨hnone, heq⟩
    · have hends' : s.membership.relayEnds c = some (f, t) := by simp [hends, hf, ht]
      refine ⟨.relay c f, Membership.step_eq_some_iff.2 ⟨⟨hreceives, ?_⟩, ?_⟩, rfl, ?_, rfl⟩
      · rw [hends']
        rfl
      · rw [heq]
        simp [Membership.perform]
      · rw [starts, hends']
        rfl
    · refine ⟨.lost c, Membership.step_eq_some_iff.2 ⟨hreceives, ?_⟩, rfl, ?_, rfl⟩
      · rw [heq]
        exact (by simp : s.membership.takeReceiveProxy c =
          ((s.takeReceiveProxy c).takeFrame c).membership)
      · rw [starts, hends]
        rcases hnone with hnone | hnone
        · simp [hnone, Membership.Action.starts]
        · cases p.get d <;> simp [hnone, Membership.Action.starts]
  · have hends : s.membership.relayEnds c = none := by
      have herror' := handleReceiveProxy_unpaired herror
      rw [hconns] at herror'
      simp only [Membership.relayEnds, ProxyMgr.findPair, membership, Conn.member]
      rcases herror' with hnone | hnone
      · rw [show s.proxyMgr.find (s.conns c).session.id = none from hnone]
        rfl
      · cases s.proxyMgr.find (s.conns c).session.id <;> simp [hnone]
    obtain rfl := handleReceiveProxy_error herror
    refine ⟨.receiveProxyFail c, Membership.step_eq_some_iff.2 ⟨hreceives, ?_⟩, rfl, ?_, rfl⟩
    · simp [Membership.perform, membership_receiveProxyCatch]
    · rw [starts, hends]
      rfl

/-- Each step of the server is one action on its membership. -/
theorem step_refines {e : Event} (h : s.step e = some t) :
    ∃ a, Membership.system.step s.membership a = some t.membership ∧
      (∀ r, a.request = some r → s.request e = some r) ∧
      a.starts = s.starts e ∧ a.ends = e.ends := by
  have hidle : t.membership = s.membership →
      ∃ a, Membership.system.step s.membership a = some t.membership ∧
        (∀ r, a.request = some r → s.request e = some r) ∧ a.starts = none ∧ a.ends = none :=
    fun heq => ⟨.idle, Membership.step_eq_some_iff.2 ⟨trivial, heq.symm⟩,
      fun _ hr => (by cases hr), rfl, rfl⟩
  obtain ⟨-, h⟩ := Option.ite_none_left_eq_some.1 h
  cases e with
  | accept c =>
      obtain ⟨haccepted, h⟩ := Option.ite_none_left_eq_some.1 h
      obtain rfl := Option.some.inj h
      have hnew : (s.conns c).accepted = false := by simpa using haccepted
      refine ⟨.accept c, Membership.step_eq_some_iff.2 ⟨hnew, ?_⟩, fun _ hr => (by cases hr),
        rfl, rfl⟩
      rw [membership_modify s c (g := fun x => { x with accepted := true, receives := 1 })
        rfl rfl]
      rfl
  | arrive c frame =>
      obtain ⟨-, h⟩ := Option.ite_none_right_eq_some.1 h
      obtain rfl := Option.some.inj h
      exact hidle (s.membership_modify_eq c rfl rfl)
  | receive c => exact receive_refines h
  | receiveFail c =>
      obtain ⟨hreceives, h⟩ := Option.ite_none_left_eq_some.1 h
      obtain rfl := Option.some.inj h
      refine ⟨.receiveFail c, Membership.step_eq_some_iff.2
        ⟨Nat.pos_iff_ne_zero.2 hreceives, ?_⟩, fun _ hr => (by cases hr), rfl, rfl⟩
      simp [Membership.perform, membership_receiveCatch]
  | receiveProxy c =>
      obtain ⟨a, ha, hnone, hstarts, hends⟩ := receiveProxy_refines h
      exact ⟨a, ha, fun r hr => by simp [hnone] at hr, hstarts, hends⟩
  | receiveProxyFail c =>
      obtain ⟨hreceives, h⟩ := Option.ite_none_left_eq_some.1 h
      obtain rfl := Option.some.inj h
      refine ⟨.receiveProxyFail c, Membership.step_eq_some_iff.2
        ⟨Nat.pos_iff_ne_zero.2 hreceives, ?_⟩, fun _ hr => (by cases hr), rfl, rfl⟩
      simp [Membership.perform, membership_receiveProxyCatch]
  | doSend i =>
      obtain ⟨write, -, rfl⟩ := Option.map_eq_some_iff.1 h
      exact hidle (s.membership_write write.1 write.2)
  | sendDone i ok =>
      obtain ⟨write, -, rfl⟩ := Option.map_eq_some_iff.1 h
      exact hidle (membership_drain (s.pop i))
  | relayDone c ok =>
      obtain ⟨hrelays, h⟩ := Option.ite_none_left_eq_some.1 h
      obtain rfl := Option.some.inj h
      refine ⟨.relayDone c ok, Membership.step_eq_some_iff.2
        ⟨Nat.pos_iff_ne_zero.2 hrelays, ?_⟩, fun _ hr => (by cases hr), rfl, rfl⟩
      cases ok <;> simp [Membership.perform]
  | p2pDone i ok =>
      obtain ⟨⟨dest, sender⟩, -, rfl⟩ := Option.map_eq_some_iff.1 h
      refine hidle ?_
      simp only
      split
      · rfl
      · exact membership_send _ _ _ _
  | tick seconds =>
      obtain rfl := Option.some.inj h
      exact hidle rfl
  | expire c i =>
      simp only [handle] at h
      split at h
      · obtain ⟨-, h⟩ := Option.ite_none_right_eq_some.1 h
        obtain rfl := Option.some.inj h
        exact hidle (s.membership_modifySession_eq c rfl rfl rfl)
      · cases h
  | stunTimeout c i =>
      simp only [handle] at h
      split at h
      · next w hw =>
          obtain ⟨-, h⟩ := Option.ite_none_right_eq_some.1 h
          obtain rfl := Option.some.inj h
          rcases membership_handleStunTimeout (s.takeWait c i) w.sessionId with
            heq | ⟨c', hfind, heq⟩
          · exact hidle (heq.trans (s.membership_takeWait c i))
          · have hfind' : s.stunMgr.find w.sessionId = some c' := hfind
            refine ⟨.timeout w.sessionId, Membership.step_eq_some_iff.2
              ⟨by simp [Membership.Enabled, hfind'], ?_⟩, fun _ hr => (by cases hr), rfl, rfl⟩
            rw [heq, membership_takeWait]
            simp [Membership.perform, hfind']
      · cases h

/-- A condition on the requests of a run, on the registries as they are before
each. -/
def Admits (Q : Membership → Request → Prop) (s : Server) (e : Event) : Prop :=
  ∀ r, s.request e = some r → Q s.membership r

/-- The runs of the server are runs of its membership. -/
theorem membership_reachable {Q : Membership → Request → Prop}
    (h : system.ReachableWhile (Admits Q) s) :
    Membership.system.ReachableWhile (Membership.Admits Q) s.membership := by
  refine h.simulation membership (fun s hs => ?_) fun s e t hP hs => ?_
  · obtain rfl : s = {} := hs
    rfl
  · obtain ⟨a, ha, hrequest, -⟩ := step_refines hs
    exact ⟨a, ha, fun r hr => hP r (hrequest r hr)⟩

end Server

end OpenNat
