import BoostSamples.OpenNat.ServerMembership

/-!
# What a step of the server does

The handlers of the server taken apart: each way through a handler is one case,
with what it has found on the way, so that a property of the state is followed
through a step by one case analysis.
-/

namespace OpenNat

open Registry Transition

namespace Server

/-- What `Process` does with a command on which it does not throw; the flag says
whether the connection stays with `Receive`. -/
inductive Processed (s : Server) (c : ConnId) (cmd : Command) : Server → Bool → Prop
  | ignored : Processed s c cmd s true
  | stun {id : Uuid} : cmd.request c = some (.stun c id) →
      Processed s c cmd (s.connectStun c id) true
  | proxy {d : Side} {id : Uuid} : cmd.request c = some (.proxy c d id) →
      Processed s c cmd (s.connectProxy c d id).1 (s.connectProxy c d id).2
  | heartbeat {h : Heartbeat} : Processed s c cmd (s.processHeartbeat c h) true
  | subscribe {subscription : Uuid} :
      Processed s c cmd (s.subscribe subscription (s.conns c).session.id
        (0 < s.stunMgr.count subscription)) true

/-- The connection that `SendP2P` writes a frame to. -/
def p2pDestOf (s : Server) (frame : Frame) : Option ConnId :=
  match frame.command with
  | some cmd =>
      match cmd.protocol, cmd.p2p with
      | .p2p, some p2p => p2p.toId.bind s.stunMgr.find
      | _, _ => none
  | none => none

theorem p2pDestOf_of_p2p {s : Server} {frame : Frame} {cmd : Command} {p2p : P2P}
    {clientId : Uuid} (hcommand : frame.command = some cmd) (hprotocol : cmd.protocol = .p2p)
    (hp2p : cmd.p2p = some p2p) (hto : p2p.toId = some clientId) :
    s.p2pDestOf frame = s.stunMgr.find clientId := by
  simp [p2pDestOf, hcommand, hprotocol, hp2p, hto]

/-- What `Receive` does with a frame on which it does not throw. -/
inductive Received (s : Server) (c : ConnId) (frame : Frame) : Server → Prop
  | p2p {cmd : Command} {p2p : P2P} {clientId : Uuid} : frame.command = some cmd →
      cmd.protocol = .p2p → cmd.p2p = some p2p → p2p.toId = some clientId →
      Received s c frame (s.sendP2P c clientId frame)
  | more {cmd : Command} {t : Server} : frame.command = some cmd →
      s.Processed c cmd t true → Received s c frame (t.postReceive c)
  | proxied {cmd : Command} {t : Server} : frame.command = some cmd →
      s.Processed c cmd t false → Received s c frame (t.postReceiveProxy c)

variable {s t : Server}

theorem processed_of_ok {c : ConnId} {cmd : Command} {more : Bool}
    (h : s.process c cmd = .ok (t, more)) : s.Processed c cmd t more := by
  unfold process at h
  split at h
  · next hprotocol =>
      split at h
      · cases h
        exact .ignored
      · next connectIn hconnect =>
          obtain ⟨protocol, kind, clientId, initialized, ready, external⟩ := connectIn
          cases protocol with
          | reply =>
              cases h
              exact .ignored
          | request =>
              cases kind with
              | direct =>
                  cases h
                  exact .ignored
              | stun =>
                  cases clientId with
                  | none => cases h
                  | some id =>
                      cases h
                      exact .stun (by simp [Command.request, hprotocol, hconnect])
              | proxyUp =>
                  cases clientId with
                  | none => cases h
                  | some id =>
                      have hproxy : s.Processed c cmd (s.connectProxy c .up id).1
                          (s.connectProxy c .up id).2 :=
                        .proxy (by simp [Command.request, hprotocol, hconnect])
                      rwa [Except.ok.inj h] at hproxy
              | proxyDown =>
                  cases clientId with
                  | none => cases h
                  | some id =>
                      have hproxy : s.Processed c cmd (s.connectProxy c .down id).1
                          (s.connectProxy c .down id).2 :=
                        .proxy (by simp [Command.request, hprotocol, hconnect])
                      rwa [Except.ok.inj h] at hproxy
  · cases h
    exact .heartbeat
  · split at h
    · cases h
      exact .subscribe
    · cases h
    · cases h
      exact .ignored
  · cases h
    exact .ignored
  · cases h
    exact .ignored

theorem received_of_ok {c : ConnId} {frame : Frame} (h : s.handleReceive c frame = .ok t) :
    s.Received c frame t := by
  unfold handleReceive at h
  cases hcommand : frame.command with
  | none =>
      simp only [hcommand] at h
      cases h
  | some cmd =>
      simp only [hcommand] at h
      split at h
      · next p2p hprotocol hp2p =>
          split at h
          · cases h
          · next clientId hto =>
              cases h
              exact .p2p hcommand hprotocol hp2p hto
      · split at h
        · cases h
        · next t' hok =>
            cases h
            exact .more hcommand (processed_of_ok hok)
        · next t' hok =>
            cases h
            exact .proxied hcommand (processed_of_ok hok)

/-- A STUN request has set the id and the timer of its session. -/
def named (s : Server) (c : ConnId) (id : Uuid) : Server :=
  s.modifySession c fun x =>
    (Session.expiresFromNow { x with id := id, type := .stun } s.now 5).asyncWait id

/-- A request that is refused: its session loses its id and is stopped. -/
def refuse (s : Server) (c : ConnId) : Server :=
  (s.modifySession c fun x => { x with id := nilUuid }).stop c

/-- A STUN request is registered and its presence notified, or refused. -/
theorem connectStun_cases (s : Server) (c : ConnId) (id : Uuid) :
    (s.stunMgr.find id = none ∧ s.connectStun c id =
      ({ s.named c id with
          stunMgr := ⟨Function.update s.stunMgr.sessionMap id (some c)⟩ }.notify id true).send id
        .stun (connectReply .stun false true (some ((s.named c id).external c)))) ∨
    ((∃ other, s.stunMgr.find id = some other) ∧
      s.connectStun c id = (s.named c id).refuse c) := by
  have hmgr : (s.named c id).stunMgr = s.stunMgr := rfl
  rcases s.stunMgr.addSession_cases id c with ⟨hfind, hadd⟩ | ⟨hfind, hadd⟩
  · refine .inl ⟨hfind, ?_⟩
    rw [← hmgr] at hadd
    unfold named at hadd
    simp only [connectStun, hadd]
    rfl
  · refine .inr ⟨hfind, ?_⟩
    rw [← hmgr] at hadd
    unfold named at hadd
    simp only [connectStun, hadd]
    rfl

/-- A proxy request has set the id and the type of its session. -/
def proxyNamed (s : Server) (c : ConnId) (d : Side) (id : Uuid) : Server :=
  s.modifySession c fun x => { x with id := id, type := proxyType d }

/-- A proxy request is registered and a reply sent, or refused. -/
theorem connectProxy_cases (s : Server) (c : ConnId) (d : Side) (id : Uuid) :
    (∃ mgr, s.proxyMgr.add id (some d) c = some mgr ∧ s.connectProxy c d id =
      ({ s.proxyNamed c d id with proxyMgr := mgr }.send id (proxyType d)
        (connectReply (proxyKind d) true false), false)) ∨
    (s.proxyMgr.add id (some d) c = none ∧
      s.connectProxy c d id = ((s.proxyNamed c d id).refuse c, true)) := by
  have hmgr : (s.proxyNamed c d id).proxyMgr = s.proxyMgr := rfl
  cases hadd : s.proxyMgr.add id (some d) c with
  | some mgr =>
      refine .inl ⟨mgr, rfl, ?_⟩
      rw [← hmgr] at hadd
      unfold proxyNamed at hadd
      simp only [connectProxy, ProxyMgr.addSession, side_proxyType, hadd]
      rfl
  | none =>
      refine .inr ⟨rfl, ?_⟩
      rw [← hmgr] at hadd
      unfold proxyNamed at hadd
      simp only [connectProxy, ProxyMgr.addSession, side_proxyType, hadd]
      rfl

/-- A relation between servers that does not see the session objects, the queue
and the pairs, nor that an entry leaves the STUN registry. -/
structure Insensitive (R : Server → Server → Prop) : Prop where
  refl : ∀ s, R s s
  trans : ∀ {s t u}, R s t → R t u → R s u
  session : ∀ s c f, R s (s.modifySession c f)
  send : ∀ s id type cmd, R s (s.send id type cmd)
  paired : ∀ s mgr, R s { s with proxyMgr := mgr }
  removed : ∀ s id, R s { s with stunMgr := s.stunMgr.removeSession id }

namespace Insensitive

variable {R : Server → Server → Prop} (h : Insensitive R)

include h

theorem stopHalf (s : Server) (half : Option ConnId) : R s (s.stopHalf half) := by
  cases half with
  | none => exact h.refl s
  | some c => exact h.session s c _

theorem removeStun (s : Server) (id : Uuid) : R s (s.removeStun id) := by
  unfold Server.removeStun
  split
  · exact h.refl s
  · next c _ => exact h.trans (h.session s c _) (h.removed (s.stop c) id)

theorem removeProxy (s : Server) (id : Uuid) : R s (s.removeProxy id) := by
  unfold Server.removeProxy
  split
  · exact h.refl s
  · next p _ =>
      exact h.trans (h.trans (h.stopHalf s p.down) (h.stopHalf _ p.up)) (h.paired _ _)

theorem refuse (s : Server) (c : ConnId) : R s (s.refuse c) :=
  h.trans (h.session s c _) (h.session _ c _)

theorem connectProxy (s : Server) (c : ConnId) (d : Side) (id : Uuid) :
    R s (s.connectProxy c d id).1 := by
  have hnamed : R s (s.proxyNamed c d id) := h.session s c _
  rcases s.connectProxy_cases c d id with ⟨mgr, -, heq⟩ | ⟨-, heq⟩
  · rw [heq]
    exact h.trans (h.trans hnamed (h.paired _ mgr)) (h.send _ _ _ _)
  · rw [heq]
    exact h.trans hnamed (h.refuse _ c)

theorem processHeartbeat (s : Server) (c : ConnId) (b : Heartbeat) :
    R s (s.processHeartbeat c b) := by
  unfold Server.processHeartbeat
  split
  · exact h.session s c _
  · split
    · exact h.trans (h.session s c _) (h.send _ _ _ _)
    · exact h.refl s

theorem handleStunTimeout (s : Server) (id : Uuid) : R s (s.handleStunTimeout id) := by
  unfold Server.handleStunTimeout
  split
  · exact h.refl s
  · next c _ =>
      dsimp only
      split
      · split
        · exact h.removeStun s _
        · split
          · exact h.session s c _
          · exact h.trans (h.trans (h.session s c _) (h.send _ _ _ _)) (h.session _ c _)
      · exact h.session s c _

end Insensitive

/-- Nor does it see the notifications and the additions to the STUN registry. -/
structure Deaf (R : Server → Server → Prop) : Prop extends Insensitive R where
  told : ∀ s l, R s { s with notified := l }
  subscribed : ∀ s l, R s { s with subscribeList := l }
  added : ∀ s mgr, R s { s with stunMgr := mgr }

namespace Deaf

variable {R : Server → Server → Prop} (h : Deaf R)

include h

theorem onNotify (s : Server) (subscriber subscription : Uuid) (online : Bool) :
    R s (s.onNotify subscriber subscription online) :=
  h.trans (h.told s _) (h.send _ _ _ _)

theorem notify (s : Server) (subscription : Uuid) (online : Bool) :
    R s (s.notify subscription online) := by
  unfold Server.notify
  induction s.subscribeList subscription generalizing s with
  | nil => exact h.refl s
  | cons subscriber l ih => exact h.trans (h.onNotify s subscriber subscription online) (ih _)

theorem subscribe (s : Server) (subscription subscriber : Uuid) (online : Bool) :
    R s (s.subscribe subscription subscriber online) :=
  h.trans (h.subscribed s _) (h.onNotify _ _ _ _)

theorem connectStun (s : Server) (c : ConnId) (id : Uuid) : R s (s.connectStun c id) := by
  have hnamed : R s (s.named c id) := h.session s c _
  rcases s.connectStun_cases c id with ⟨-, heq⟩ | ⟨-, heq⟩
  · rw [heq]
    exact h.trans (h.trans (h.trans hnamed (h.added _ _)) (h.notify _ _ _)) (h.send _ _ _ _)
  · rw [heq]
    exact h.trans hnamed (h.refuse _ c)

theorem processed {s t : Server} {c : ConnId} {cmd : Command} {more : Bool}
    (hprocessed : s.Processed c cmd t more) : R s t := by
  cases hprocessed with
  | ignored => exact h.refl s
  | stun _ => exact h.connectStun s c _
  | proxy _ => exact h.connectProxy s c _ _
  | heartbeat => exact h.processHeartbeat s c _
  | subscribe => exact h.subscribe s _ _ _

end Deaf

inductive Effect (s : Server) : Event → Server → Prop
  | accept {c : ConnId} : (s.conns c).accepted = false →
      Effect s (.accept c) (s.modify c fun x => { x with accepted := true, receives := 1 })
  | arrive {c : ConnId} {frame : Frame} :
      (s.conns c).accepted = true → (s.conns c).session.isOpen = true →
      Effect s (.arrive c frame) (s.modify c fun x => { x with inbox := x.inbox ++ [frame] })
  | received {c : ConnId} {frame : Frame} {rest : List Frame} {t : Server} :
      0 < (s.conns c).receives → (s.conns c).inbox = frame :: rest →
      ((s.takeReceive c).takeFrame c).Received c frame t → Effect s (.receive c) t
  | rejected {c : ConnId} {frame : Frame} {rest : List Frame} :
      0 < (s.conns c).receives → (s.conns c).inbox = frame :: rest →
      Effect s (.receive c) (((s.takeReceive c).takeFrame c).receiveCatch c)
  | receiveFail {c : ConnId} : 0 < (s.conns c).receives →
      Effect s (.receiveFail c) ((s.takeReceive c).receiveCatch c)
  | relayed {c sender dest : ConnId} {frame : Frame} {rest : List Frame} {p : Pair ConnId}
      {d : Side} : 0 < (s.conns c).proxyReceives → (s.conns c).inbox = frame :: rest →
      s.proxyMgr.find (s.conns c).session.id = some p →
      (s.conns c).session.type.side = some d →
      p.get d = some sender → p.get d.other = some dest →
      Effect s (.receiveProxy c)
        ((((s.takeReceiveProxy c).takeFrame c).modify sender fun x =>
          { x with relays := x.relays + 1 }).write dest
            (if sender = c then frame else ⟨none, .stray⟩))
  | crashed {c : ConnId} {frame : Frame} {rest : List Frame} {p : Pair ConnId} {d : Side} :
      0 < (s.conns c).proxyReceives → (s.conns c).inbox = frame :: rest →
      s.proxyMgr.find (s.conns c).session.id = some p →
      (s.conns c).session.type.side = some d → p.get d = none ∨ p.get d.other = none →
      Effect s (.receiveProxy c)
        { (s.takeReceiveProxy c).takeFrame c with fault := true }
  | unpaired {c : ConnId} {frame : Frame} {rest : List Frame} :
      0 < (s.conns c).proxyReceives → (s.conns c).inbox = frame :: rest →
      Effect s (.receiveProxy c) (((s.takeReceiveProxy c).takeFrame c).receiveProxyCatch c)
  | receiveProxyFail {c : ConnId} : 0 < (s.conns c).proxyReceives →
      Effect s (.receiveProxyFail c) ((s.takeReceiveProxy c).receiveProxyCatch c)
  | doSend {before after : List (ConnId × Frame)} {w : ConnId × Frame} :
      s.posted = before ++ w :: after →
      Effect s (.doSend before.length) { s.write w.1 w.2 with
        posted := before ++ after
        inFlight := s.inFlight ++ [w] }
  | sendDone {before after : List (ConnId × Frame)} {w : ConnId × Frame} {ok : Bool} :
      s.inFlight = before ++ w :: after →
      Effect s (.sendDone before.length ok) { s with
        inFlight := before ++ after
        serverQueue := s.serverQueue.tail }.drain
  | relayDone {c : ConnId} {ok : Bool} : 0 < (s.conns c).relays →
      Effect s (.relayDone c ok) (if ok then (s.takeRelay c).postReceiveProxy c else s.takeRelay c)
  | p2pDone {before after : List (ConnId × ConnId)} {dest sender : ConnId} :
      s.p2pWrites = before ++ (dest, sender) :: after →
      Effect s (.p2pDone before.length true) { s with p2pWrites := before ++ after }
  | p2pFail {before after : List (ConnId × ConnId)} {dest sender : ConnId} :
      s.p2pWrites = before ++ (dest, sender) :: after →
      Effect s (.p2pDone before.length false)
        ({ s with p2pWrites := before ++ after }.send (s.conns sender).session.id .stun
          (unreachable (s.conns dest).session.id (s.conns sender).session.id))
  | tick {seconds : Nat} : Effect s (.tick seconds) { s with now := s.now + seconds }
  | expire {c : ConnId} {i : Nat} : Effect s (.expire c i) (s.completeWait c i)
  | stunTimeout {c : ConnId} {i : Nat} {w : Wait} : (s.conns c).session.waits[i]? = some w →
      w.completed = true →
      Effect s (.stunTimeout c i) ((s.takeWait c i).handleStunTimeout w.sessionId)

theorem inbox_of_head? {c : ConnId} {frame : Frame}
    (h : (s.conns c).inbox.head? = some frame) : ∃ rest, (s.conns c).inbox = frame :: rest :=
  List.head?_eq_some_iff.1 h

/-- A step is one of the ways through its handler, of a server that has not
crashed and whose strand is not blocked. -/
theorem effect_of_step {e : Event} (h : s.step e = some t) :
    s.fault = false ∧ (e.onStrand = true → s.hung = false) ∧ s.Effect e t := by
  obtain ⟨hrun, h⟩ := Option.ite_none_left_eq_some.1 h
  obtain ⟨hfault, hhung⟩ := not_or.1 hrun
  refine ⟨by simpa using hfault, fun hstrand => by simpa [hstrand] using hhung, ?_⟩
  cases e with
  | accept c =>
      obtain ⟨haccepted, h⟩ := Option.ite_none_left_eq_some.1 h
      obtain rfl := Option.some.inj h
      exact .accept (by simpa using haccepted)
  | arrive c frame =>
      obtain ⟨⟨haccepted, hopen⟩, h⟩ := Option.ite_none_right_eq_some.1 h
      obtain rfl := Option.some.inj h
      exact .arrive haccepted hopen
  | receive c =>
      obtain ⟨hreceives, frame, hframe, hok | ⟨s', herror, rfl⟩⟩ := handle_receive h
      · obtain ⟨rest, hrest⟩ := inbox_of_head? hframe
        exact .received hreceives hrest (received_of_ok hok)
      · obtain ⟨rest, hrest⟩ := inbox_of_head? hframe
        obtain rfl := handleReceive_error herror
        exact .rejected hreceives hrest
  | receiveFail c =>
      obtain ⟨hreceives, h⟩ := Option.ite_none_left_eq_some.1 h
      obtain rfl := Option.some.inj h
      exact .receiveFail (Nat.pos_iff_ne_zero.2 hreceives)
  | receiveProxy c =>
      obtain ⟨hreceives, frame, hframe, hok | ⟨s', herror, rfl⟩⟩ := handle_receiveProxy h
      · obtain ⟨rest, hrest⟩ := inbox_of_head? hframe
        obtain ⟨p, d, hp, hd, rfl⟩ := handleReceiveProxy_ok hok
        have hp' : s.proxyMgr.find (s.conns c).session.id = some p := by
          simpa [takeReceiveProxy, takeFrame, modify] using hp
        have hd' : (s.conns c).session.type.side = some d := by
          simpa [takeReceiveProxy, takeFrame, modify] using hd
        cases hsender : p.get d with
        | none => exact .crashed hreceives hrest hp' hd' (.inl hsender)
        | some sender =>
            cases hdest : p.get d.other with
            | none => exact .crashed hreceives hrest hp' hd' (.inr hdest)
            | some dest => exact .relayed hreceives hrest hp' hd' hsender hdest
      · obtain ⟨rest, hrest⟩ := inbox_of_head? hframe
        obtain rfl := handleReceiveProxy_error herror
        exact .unpaired hreceives hrest
  | receiveProxyFail c =>
      obtain ⟨hreceives, h⟩ := Option.ite_none_left_eq_some.1 h
      obtain rfl := Option.some.inj h
      exact .receiveProxyFail (Nat.pos_iff_ne_zero.2 hreceives)
  | doSend i =>
      obtain ⟨w, hw, rfl⟩ := Option.map_eq_some_iff.1 h
      obtain ⟨before, after, hlist, rfl, -, herase⟩ := exists_append_of_getElem? hw
      rw [herase]
      exact .doSend hlist
  | sendDone i ok =>
      obtain ⟨w, hw, rfl⟩ := Option.map_eq_some_iff.1 h
      obtain ⟨before, after, hlist, rfl, -, herase⟩ := exists_append_of_getElem? hw
      rw [pop, herase]
      exact .sendDone hlist
  | relayDone c ok =>
      obtain ⟨hrelays, h⟩ := Option.ite_none_left_eq_some.1 h
      obtain rfl := Option.some.inj h
      exact .relayDone (Nat.pos_iff_ne_zero.2 hrelays)
  | p2pDone i ok =>
      obtain ⟨⟨dest, sender⟩, hw, rfl⟩ := Option.map_eq_some_iff.1 h
      obtain ⟨before, after, hlist, rfl, -, herase⟩ := exists_append_of_getElem? hw
      rw [herase]
      cases ok with
      | true => exact .p2pDone hlist
      | false => exact .p2pFail hlist
  | tick seconds =>
      obtain rfl := Option.some.inj h
      exact .tick
  | expire c i =>
      simp only [handle] at h
      split at h
      · obtain ⟨-, h⟩ := Option.ite_none_right_eq_some.1 h
        obtain rfl := Option.some.inj h
        exact .expire
      · cases h
  | stunTimeout c i =>
      simp only [handle] at h
      split at h
      · next w hw =>
          obtain ⟨hcompleted, h⟩ := Option.ite_none_right_eq_some.1 h
          obtain rfl := Option.some.inj h
          exact .stunTimeout hw hcompleted
      · cases h

def Unread (s t : Server) : Prop := ∀ c, (t.conns c).inbox = (s.conns c).inbox

namespace Unread

variable {u : Server}

theorem trans (h : s.Unread t) (h' : t.Unread u) : s.Unread u := fun c =>
  (h' c).trans (h c)

theorem of_eq (h : t.conns = s.conns) : s.Unread t := fun c => by rw [h]

theorem modify (s : Server) (c : ConnId) {f : Conn → Conn}
    (h : (f (s.conns c)).inbox = (s.conns c).inbox) : s.Unread (s.modify c f) := by
  intro c'
  simp only [Server.modify, Function.update_apply]
  split
  · next hc => rw [h, hc]
  · rfl

theorem send (s : Server) (id : Uuid) (type : SessionType) (cmd : Command) :
    s.Unread (s.send id type cmd) := by
  unfold Server.send
  split
  · dsimp only
    split <;> exact of_eq rfl
  · exact of_eq rfl

theorem deaf : Deaf Unread where
  refl _ := of_eq rfl
  trans := trans
  session s c _ := modify s c rfl
  send := send
  paired _ _ := of_eq rfl
  removed _ _ := of_eq rfl
  told _ _ := of_eq rfl
  subscribed _ _ := of_eq rfl
  added _ _ := of_eq rfl

theorem write (s : Server) (c : ConnId) (frame : Frame) : s.Unread (s.write c frame) := by
  refine modify s c ?_
  split <;> rfl

theorem receiveCatch (s : Server) (c : ConnId) : s.Unread (s.receiveCatch c) := by
  unfold Server.receiveCatch
  have hnotify : s.Unread ((s.removeStun (s.conns c).session.id).notify
      (s.conns c).session.id false) :=
    (deaf.removeStun s _).trans (deaf.notify _ _ _)
  exact hnotify.trans (modify _ c rfl)

theorem drain (s : Server) : s.Unread s.drain := by
  unfold Server.drain
  split
  · exact of_eq rfl
  · split <;> exact of_eq rfl

theorem received {c : ConnId} {frame : Frame} (h : s.Received c frame t) : s.Unread t := by
  cases h with
  | p2p _ _ _ _ =>
      unfold sendP2P
      refine trans ?_ (modify _ c rfl)
      split
      · exact (write s _ frame).trans (of_eq rfl)
      · exact send s _ _ _
  | more _ hprocessed => exact (deaf.processed hprocessed).trans (modify _ c rfl)
  | proxied _ hprocessed => exact (deaf.processed hprocessed).trans (modify _ c rfl)

end Unread

def inboxAfter (s : Server) (c : ConnId) : Event → List Frame
  | .arrive c' frame => if c' = c then (s.conns c).inbox ++ [frame] else (s.conns c).inbox
  | .receive c' | .receiveProxy c' =>
      if c' = c then (s.conns c).inbox.tail else (s.conns c).inbox
  | _ => (s.conns c).inbox

theorem inbox_takeFrame {c c' : ConnId} {f : Conn → Conn}
    (hf : (f (s.conns c')).inbox = (s.conns c').inbox) :
    (((s.modify c' f).takeFrame c').conns c).inbox =
      if c' = c then (s.conns c).inbox.tail else (s.conns c).inbox := by
  by_cases hc : c' = c
  · subst hc
    simp [takeFrame, modify, hf]
  · simp [takeFrame, modify, hc, Ne.symm hc]

theorem inbox_of_effect {e : Event} (h : s.Effect e t) (c : ConnId) :
    (t.conns c).inbox = s.inboxAfter c e := by
  cases h with
  | @accept c' _ => exact Unread.modify s c' rfl c
  | @arrive c' frame _ _ =>
      by_cases hc : c' = c
      · subst hc
        simp [inboxAfter, modify]
      · simp [inboxAfter, modify, hc, Ne.symm hc]
  | @received c' frame rest t _ _ hreceived =>
      exact (Unread.received hreceived c).trans (inbox_takeFrame rfl)
  | @rejected c' frame rest _ _ =>
      exact (Unread.receiveCatch _ c' c).trans (inbox_takeFrame rfl)
  | @receiveFail c' _ => exact ((Unread.modify s c' rfl).trans (Unread.receiveCatch _ c')) c
  | @relayed c' sender dest frame rest p d _ _ _ _ _ _ =>
      exact (((Unread.modify _ sender rfl).trans (Unread.write _ dest _)) c).trans
        (inbox_takeFrame rfl)
  | @crashed c' frame rest p d _ _ _ _ _ => exact inbox_takeFrame rfl
  | @unpaired c' frame rest _ _ =>
      exact (Unread.deaf.removeProxy _ _ c).trans (inbox_takeFrame rfl)
  | @receiveProxyFail c' _ =>
      exact ((Unread.modify s c' rfl).trans (Unread.deaf.removeProxy _ _)) c
  | @doSend before after w _ => exact Unread.write s w.1 w.2 c
  | @sendDone before after w ok _ =>
      exact Unread.drain { s with
        inFlight := before ++ after
        serverQueue := s.serverQueue.tail } c
  | @relayDone c' ok _ =>
      show (((if ok then _ else _ : Server)).conns c).inbox = _
      split
      · exact ((Unread.modify s c' rfl).trans (Unread.modify _ c' rfl)) c
      · exact Unread.modify s c' rfl c
  | p2pDone _ => rfl
  | @p2pFail before after dest sender _ =>
      exact Unread.send { s with p2pWrites := before ++ after } _ _ _ c
  | tick => rfl
  | @expire c' i => exact Unread.deaf.session s c' _ c
  | @stunTimeout c' i w _ _ =>
      exact ((Unread.deaf.session s c' _).trans (Unread.deaf.handleStunTimeout _ _)) c

end Server

end OpenNat
