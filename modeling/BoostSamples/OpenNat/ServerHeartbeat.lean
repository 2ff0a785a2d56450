import BoostSamples.OpenNat.Presence
import BoostSamples.Watchdog.Counter

/-!
# The heartbeat of the server

Only three handlers touch what the heartbeat rests on: `Process` on a STUN
request, which starts the timer of its session, `Process` on a heartbeat, and
`HandleStunTimeout`. Every other handler is calm: it starts no wait, sets no
counter and registers nobody.
-/

namespace OpenNat

open Registry Transition

def Command.beats (cmd : Command) : Bool :=
  cmd.protocol = .heartbeat && ((cmd.heartbeat.getD {}).pong || (cmd.heartbeat.getD {}).ping)

theorem Command.request_of_beats {cmd : Command} (h : cmd.beats = true) (c : ConnId) :
    cmd.request c = none := by
  simp only [Command.beats, Bool.and_eq_true, decide_eq_true_eq] at h
  simp [Command.request, h.1]

theorem Command.request_conn {cmd : Command} {c : ConnId} {r : Request}
    (h : cmd.request c = some r) : r.conn = c := by
  unfold Command.request at h
  split at h <;> cases h <;> rfl

namespace Server

/-- The ids that the outstanding waits on the timer of a connection are bound
to. -/
def chain (s : Server) (c : ConnId) : List Uuid :=
  (s.conns c).session.waits.map Wait.sessionId

def counter (s : Server) (c : ConnId) : Nat := (s.conns c).session.timeout

theorem chain_modify (s : Server) (c : ConnId) (f : Conn → Conn) :
    (s.modify c f).chain =
      Function.update s.chain c ((f (s.conns c)).session.waits.map Wait.sessionId) := by
  funext d
  simp only [chain, modify, Function.update_apply]
  split <;> rfl

@[simp] theorem map_waits_expiresFromNow (x : Session) (now seconds : Nat) :
    (x.expiresFromNow now seconds).waits.map Wait.sessionId = x.waits.map Wait.sessionId := by
  simp [Session.expiresFromNow, Session.cancelTimer, Function.comp_def]

theorem chain_asyncWait (s : Server) (c : ConnId) (id : Uuid) {f : Session → Session}
    (hwaits : (f (s.conns c).session).waits.map Wait.sessionId = s.chain c) :
    (s.modifySession c fun x => (f x).asyncWait id).chain =
      Function.update s.chain c (s.chain c ++ [id]) := by
  rw [modifySession, chain_modify, ← hwaits]
  simp [Session.asyncWait]

theorem counter_modify (s : Server) (c : ConnId) (f : Conn → Conn) :
    (s.modify c f).counter = Function.update s.counter c (f (s.conns c)).session.timeout := by
  funext d
  simp only [counter, modify, Function.update_apply]
  split <;> rfl

/-- No wait has been started or handled, no counter set and nobody registered. -/
structure Calm (s t : Server) : Prop where
  chain : t.chain = s.chain
  counter : t.counter = s.counter
  find : ∀ id c, t.stunMgr.find id = some c → s.stunMgr.find id = some c

namespace Calm

variable {s t u : Server}

theorem refl (s : Server) : s.Calm s := ⟨rfl, rfl, fun _ _ h => h⟩

theorem trans (h : s.Calm t) (h' : t.Calm u) : s.Calm u where
  chain := h'.chain.trans h.chain
  counter := h'.counter.trans h.counter
  find id c hc := h.find id c (h'.find id c hc)

theorem of_eq (hconns : t.conns = s.conns) (hstun : t.stunMgr = s.stunMgr) : s.Calm t where
  chain := by funext c; rw [Server.chain, Server.chain, hconns]
  counter := by funext c; rw [Server.counter, Server.counter, hconns]
  find _ _ hc := hstun ▸ hc

theorem modify (s : Server) (c : ConnId) {f : Conn → Conn}
    (hwaits : (f (s.conns c)).session.waits.map Wait.sessionId =
      (s.conns c).session.waits.map Wait.sessionId)
    (htimeout : (f (s.conns c)).session.timeout = (s.conns c).session.timeout) :
    s.Calm (s.modify c f) where
  chain := by
    rw [chain_modify, hwaits]
    exact Function.update_eq_self c s.chain
  counter := by
    rw [counter_modify, htimeout]
    exact Function.update_eq_self c s.counter
  find _ _ hc := hc

theorem modifySession (s : Server) (c : ConnId) {f : Session → Session}
    (hwaits : (f (s.conns c).session).waits.map Wait.sessionId =
      (s.conns c).session.waits.map Wait.sessionId)
    (htimeout : (f (s.conns c).session).timeout = (s.conns c).session.timeout) :
    s.Calm (s.modifySession c f) :=
  modify s c hwaits htimeout

theorem stop (s : Server) (c : ConnId) : s.Calm (s.stop c) := by
  refine modifySession s c ?_ ?_
  · unfold Session.stop
    split
    · simp [Session.cancelTimer, Function.comp_def]
    · rfl
  · unfold Session.stop
    split <;> rfl

theorem stopHalf (s : Server) (half : Option ConnId) : s.Calm (s.stopHalf half) := by
  cases half with
  | none => exact refl s
  | some c => exact stop s c

theorem removeSession (s : Server) (id : Uuid) :
    s.Calm { s with stunMgr := s.stunMgr.removeSession id } where
  chain := rfl
  counter := rfl
  find key c hc := by
    rw [SessionMgr.find_removeSession] at hc
    split at hc
    · exact nomatch hc
    · exact hc

theorem removeStun (s : Server) (id : Uuid) : s.Calm (s.removeStun id) := by
  unfold Server.removeStun
  split
  · exact refl s
  · next c _ => exact (stop s c).trans (removeSession (s.stop c) id)

theorem removeProxy (s : Server) (id : Uuid) : s.Calm (s.removeProxy id) := by
  unfold Server.removeProxy
  split
  · exact refl s
  · next p _ =>
      exact ((stopHalf s p.down).trans (stopHalf _ p.up)).trans (of_eq rfl rfl)

theorem send (s : Server) (id : Uuid) (type : SessionType) (cmd : Command) :
    s.Calm (s.send id type cmd) := by
  unfold Server.send
  split
  · dsimp only
    split <;> exact of_eq rfl rfl
  · exact refl s

theorem onNotify (s : Server) (subscriber subscription : Uuid) (online : Bool) :
    s.Calm (s.onNotify subscriber subscription online) := by
  have htold : s.Calm { s with notified := s.notified ++ [(subscriber, subscription, online)] } :=
    of_eq rfl rfl
  exact htold.trans (send _ _ _ _)

theorem notify (s : Server) (subscription : Uuid) (online : Bool) :
    s.Calm (s.notify subscription online) := by
  unfold Server.notify
  induction s.subscribeList subscription generalizing s with
  | nil => exact refl s
  | cons subscriber l ih => exact (onNotify s subscriber subscription online).trans (ih _)

theorem subscribe (s : Server) (subscription subscriber : Uuid) (online : Bool) :
    s.Calm (s.subscribe subscription subscriber online) := by
  unfold Server.subscribe
  refine Calm.trans ?_ (onNotify _ _ _ _)
  exact of_eq rfl rfl

theorem write (s : Server) (c : ConnId) (frame : Frame) : s.Calm (s.write c frame) := by
  refine modify s c ?_ ?_ <;> split <;> rfl

theorem refuse (s : Server) (c : ConnId) : s.Calm (s.refuse c) :=
  (modifySession s c rfl rfl).trans (stop _ c)

theorem connectProxy (s : Server) (c : ConnId) (d : Side) (id : Uuid) :
    s.Calm (s.connectProxy c d id).1 := by
  have hnamed : s.Calm (s.proxyNamed c d id) := modifySession s c rfl rfl
  rcases s.connectProxy_cases c d id with ⟨mgr, -, heq⟩ | ⟨-, heq⟩
  · rw [heq]
    refine hnamed.trans (Calm.trans ?_ (send _ _ _ _))
    exact of_eq rfl rfl
  · rw [heq]
    exact hnamed.trans (refuse _ c)

theorem sendP2P (s : Server) (sender : ConnId) (clientId : Uuid) (frame : Frame) :
    s.Calm (s.sendP2P sender clientId frame) := by
  unfold Server.sendP2P
  refine Calm.trans ?_ (modify _ sender rfl rfl)
  split
  · next dest _ => exact (write s dest frame).trans (of_eq rfl rfl)
  · exact send _ _ _ _

theorem receiveCatch (s : Server) (c : ConnId) : s.Calm (s.receiveCatch c) := by
  unfold Server.receiveCatch
  exact ((removeStun s _).trans (notify _ _ _)).trans (modify _ c rfl rfl)

theorem drain (s : Server) : s.Calm s.drain := by
  unfold Server.drain
  split
  · exact refl s
  · split <;> exact of_eq rfl rfl

end Calm

/-- The command that a read of `Receive` is about to process. -/
def nextCommand (s : Server) (c : ConnId) : Option Command :=
  (s.conns c).inbox.head?.bind Frame.command

theorem map_modify_of_eq {α β : Type*} {f : α → β} {g : α → α} (h : ∀ x, f (g x) = f x)
    (l : List α) (i : Nat) : (l.modify i g).map f = l.map f := by
  induction l generalizing i with
  | nil => simp
  | cons x l ih =>
      cases i with
      | zero => simp [h]
      | succ i => simp [ih]

theorem request_of_beats {s : Server} {c : ConnId} {cmd : Command} (hnext : cmd ∈ s.nextCommand c)
    (hbeats : cmd.beats = true) : s.request (.receive c) = none :=
  Option.bind_eq_none_iff.2 fun cmd' hcmd' => by
    cases Option.mem_unique hnext hcmd'
    exact Command.request_of_beats hbeats c

inductive Move (s : Server) : Event → Server → Prop
  | calm {e : Event} {t : Server} : (∀ c i, e ≠ .stunTimeout c i) →
      (∀ c id, s.request e ≠ some (.stun c id)) →
      (∀ c, e = .receive c → ∀ cmd ∈ s.nextCommand c, cmd.beats = false) → s.Calm t → Move s e t
  | started {c : ConnId} {id : Uuid} {t : Server} :
      s.request (.receive c) = some (.stun c id) →
      t.chain = Function.update s.chain c (s.chain c ++ [id]) → t.counter = s.counter →
      (∀ key, t.stunMgr.find key =
        if key = id ∧ s.stunMgr.find id = none then some c else s.stunMgr.find key) →
      Move s (.receive c) t
  | heard {c : ConnId} {cmd : Command} {t : Server} : cmd ∈ s.nextCommand c →
      cmd.beats = true → t.chain = s.chain → t.counter = Function.update s.counter c 0 →
      t.stunMgr = s.stunMgr → Move s (.receive c) t
  | handled {c : ConnId} {i : Nat} {w : Wait} : (s.conns c).session.waits[i]? = some w →
      Move s (.stunTimeout c i) ((s.takeWait c i).handleStunTimeout w.sessionId)

section Moves

variable {s t : Server}

/-- A command that is neither a STUN request nor a ping or pong leaves the
heartbeat alone. -/
theorem calm_process {c : ConnId} {cmd : Command} {more : Bool}
    (h : s.process c cmd = .ok (t, more)) (hrequest : ∀ id, cmd.request c ≠ some (.stun c id))
    (hbeats : cmd.beats = false) : s.Calm t := by
  unfold process at h
  split at h
  · next hprotocol =>
      split at h
      · cases h
        exact .refl s
      · next connectIn hconnect =>
          obtain ⟨protocol, kind, clientId, initialized, ready, external⟩ := connectIn
          cases protocol with
          | reply =>
              cases h
              exact .refl s
          | request =>
              cases kind with
              | direct =>
                  cases h
                  exact .refl s
              | stun =>
                  cases clientId with
                  | none => cases h
                  | some id =>
                      exact absurd (by simp [Command.request, hprotocol, hconnect]) (hrequest id)
              | proxyUp =>
                  cases clientId with
                  | none => cases h
                  | some id =>
                      have hproxy := Calm.connectProxy s c .up id
                      rwa [Except.ok.inj h] at hproxy
              | proxyDown =>
                  cases clientId with
                  | none => cases h
                  | some id =>
                      have hproxy := Calm.connectProxy s c .down id
                      rwa [Except.ok.inj h] at hproxy
  · next hprotocol =>
      simp only [Command.beats, hprotocol, decide_true, Bool.true_and, Bool.or_eq_false_iff]
        at hbeats
      cases h
      simp only [processHeartbeat, hbeats]
      exact .refl s
  · split at h
    · cases h
      exact .subscribe s _ _ _
    · cases h
    · cases h
      exact .refl s
  · cases h
    exact .refl s
  · cases h
    exact .refl s

theorem stunMgr_send (id : Uuid) (type : SessionType) (cmd : Command) :
    (s.send id type cmd).stunMgr = s.stunMgr :=
  congrArg Membership.stunMgr (membership_send s id type cmd)

theorem stunMgr_notify (id : Uuid) (online : Bool) : (s.notify id online).stunMgr = s.stunMgr :=
  congrArg Membership.stunMgr (membership_notify s id online)

theorem started_connectStun (c : ConnId) (id : Uuid) :
    (s.connectStun c id).chain = Function.update s.chain c (s.chain c ++ [id]) ∧
      (s.connectStun c id).counter = s.counter ∧
      ∀ key, (s.connectStun c id).stunMgr.find key =
        if key = id ∧ s.stunMgr.find id = none then some c else s.stunMgr.find key := by
  have hchain : (s.named c id).chain = Function.update s.chain c (s.chain c ++ [id]) :=
    chain_asyncWait s c id (map_waits_expiresFromNow _ _ _)
  have hcounter : (s.named c id).counter = s.counter := by
    rw [named, modifySession, counter_modify]
    exact Function.update_eq_self c s.counter
  rcases s.connectStun_cases c id with ⟨hfree, heq⟩ | ⟨⟨other, hother⟩, heq⟩
  · rw [heq]
    have hadded : ∀ mgr : SessionMgr ConnId,
        ({ s.named c id with stunMgr := mgr } : Server).Calm
          (({ s.named c id with stunMgr := mgr } : Server).notify id true |>.send id .stun
            (connectReply .stun false true (some ((s.named c id).external c)))) := fun mgr =>
      (Calm.notify _ _ _).trans (Calm.send _ _ _ _)
    refine ⟨(hadded _).chain.trans hchain, (hadded _).counter.trans hcounter, fun key => ?_⟩
    rw [stunMgr_send, stunMgr_notify, SessionMgr.find_update]
    simp only [hfree, and_true]
  · rw [heq]
    have hcalm := Calm.refuse (s.named c id) c
    refine ⟨hcalm.chain.trans hchain, hcalm.counter.trans hcounter, fun key => ?_⟩
    rw [if_neg (by simp [hother])]
    rfl

theorem heard_processHeartbeat {c : ConnId} {h : Heartbeat} (hbeats : (h.pong || h.ping) = true) :
    (s.processHeartbeat c h).chain = s.chain ∧
      (s.processHeartbeat c h).counter = Function.update s.counter c 0 ∧
      (s.processHeartbeat c h).stunMgr = s.stunMgr := by
  have hreset {f : Session → Session} (hwaits : (f (s.conns c).session).waits.map Wait.sessionId =
      (s.conns c).session.waits.map Wait.sessionId)
      (htimeout : (f (s.conns c).session).timeout = 0) :
      (s.modifySession c f).chain = s.chain ∧
        (s.modifySession c f).counter = Function.update s.counter c 0 := by
    rw [modifySession, chain_modify, counter_modify, hwaits, htimeout]
    exact ⟨Function.update_eq_self c s.chain, rfl⟩
  unfold processHeartbeat
  split
  · obtain ⟨hchain, hcounter⟩ := hreset (f := fun x => { x with timeout := 0 }) rfl rfl
    exact ⟨hchain, hcounter, rfl⟩
  · next hpong =>
      rw [if_pos (by simpa [hpong] using hbeats)]
      obtain ⟨hchain, hcounter⟩ := hreset
        (f := fun x => { x.expiresFromNow s.now 10 with timeout := 0 })
        (map_waits_expiresFromNow _ s.now 10) rfl
      have hsend := Calm.send (s.modifySession c fun x =>
        { x.expiresFromNow s.now 10 with timeout := 0 })
      exact ⟨(hsend _ _ _).chain.trans hchain, (hsend _ _ _).counter.trans hcounter,
        stunMgr_send _ _ _⟩

theorem calm_take (s : Server) (c : ConnId) : s.Calm ((s.takeReceive c).takeFrame c) :=
  (Calm.modify s c rfl rfl).trans (Calm.modify _ c rfl rfl)

theorem calm_takeProxy (s : Server) (c : ConnId) :
    s.Calm ((s.takeReceiveProxy c).takeFrame c) :=
  (Calm.modify s c rfl rfl).trans (Calm.modify _ c rfl rfl)

theorem process_of_stun {c : ConnId} {cmd : Command} {id : Uuid}
    (h : cmd.request c = some (.stun c id)) : s.process c cmd = .ok (s.connectStun c id, true) := by
  unfold Command.request at h
  split at h
  · next hprotocol hconnect =>
      cases h
      simp only [process, hprotocol, hconnect]
  · cases h
  · cases h
  · cases h

theorem process_of_beats {c : ConnId} {cmd : Command} (h : cmd.beats = true) :
    s.process c cmd = .ok (s.processHeartbeat c (cmd.heartbeat.getD {}), true) := by
  have hprotocol : cmd.protocol = .heartbeat := by
    simp only [Command.beats, Bool.and_eq_true, decide_eq_true_eq] at h
    exact h.1
  simp only [process, hprotocol]

theorem move_process {c : ConnId} {cmd : Command} {u : Server} {more : Bool}
    (hnext : s.nextCommand c = some cmd)
    (h : ((s.takeReceive c).takeFrame c).process c cmd = .ok (u, more)) (hcalm : u.Calm t)
    (hstun : t.stunMgr = u.stunMgr) : s.Move (.receive c) t := by
  have htake := calm_take s c
  have hrequest : s.request (.receive c) = cmd.request c := by
    show (s.nextCommand c).bind _ = _
    rw [hnext]
    rfl
  by_cases hreq : ∃ id, cmd.request c = some (.stun c id)
  · obtain ⟨id, hreq⟩ := hreq
    rw [process_of_stun hreq] at h
    obtain ⟨rfl, -⟩ := Prod.mk.inj (Except.ok.inj h)
    obtain ⟨hchain, hcounter, hfind⟩ :=
      started_connectStun (s := (s.takeReceive c).takeFrame c) c id
    refine .started (hrequest.trans hreq) ?_ ?_ fun key => ?_
    · rw [hcalm.chain, hchain, htake.chain]
    · rw [hcalm.counter, hcounter, htake.counter]
    · rw [hstun]
      exact hfind key
  · by_cases hbeats : cmd.beats = true
    · rw [process_of_beats hbeats] at h
      obtain ⟨rfl, -⟩ := Prod.mk.inj (Except.ok.inj h)
      have hor : ((cmd.heartbeat.getD {}).pong || (cmd.heartbeat.getD {}).ping) = true := by
        simp only [Command.beats, Bool.and_eq_true] at hbeats
        exact hbeats.2
      obtain ⟨hchain, hcounter, hmgr⟩ :=
        heard_processHeartbeat (s := (s.takeReceive c).takeFrame c) (c := c) hor
      refine .heard hnext hbeats ?_ ?_ (hstun.trans hmgr)
      · rw [hcalm.chain, hchain, htake.chain]
      · rw [hcalm.counter, hcounter, htake.counter]
    · have hnot : ∀ id, cmd.request c ≠ some (.stun c id) := fun id hid => hreq ⟨id, hid⟩
      have hbeats : cmd.beats = false := by simpa using hbeats
      refine .calm nofun (fun d id => ?_) (fun d hd cmd' hcmd' => ?_)
        ((htake.trans (calm_process h hnot hbeats)).trans hcalm)
      · rw [hrequest]
        intro hid
        have hd : d = c := Command.request_conn hid
        exact hnot id (hd ▸ hid)
      · cases hd
        cases hnext.symm.trans hcmd'
        exact hbeats

theorem move_calm {c : ConnId} (hcalm : s.Calm t)
    (hother : ∀ cmd, s.nextCommand c = some cmd →
      (∀ id, cmd.request c ≠ some (.stun c id)) ∧ cmd.beats = false) : s.Move (.receive c) t := by
  refine .calm nofun (fun d id hrequest => ?_) (fun d hd cmd hcmd => ?_) hcalm
  · obtain ⟨cmd, hcmd, hid⟩ := Option.bind_eq_some_iff.1 hrequest
    have hd : d = c := Command.request_conn hid
    exact (hother cmd hcmd).1 id (hd ▸ hid)
  · cases hd
    exact (hother cmd hcmd).2

theorem other_of_p2p {cmd : Command} (h : cmd.protocol = .p2p) (c : ConnId) :
    (∀ id, cmd.request c ≠ some (.stun c id)) ∧ cmd.beats = false := by
  simp [Command.request, Command.beats, h]

theorem move_receive {c : ConnId} (h : s.handle (.receive c) = some t) :
    s.Move (.receive c) t := by
  obtain ⟨-, frame, hframe, hresult⟩ := handle_receive h
  have hnext : s.nextCommand c = frame.command := by
    rw [nextCommand, hframe]
    rfl
  have hcatch : ∀ s', ((s.takeReceive c).takeFrame c).handleReceive c frame = .error s' →
      t = s'.receiveCatch c → s.Calm t := by
    rintro s' herror rfl
    obtain rfl := handleReceive_error herror
    exact (calm_take s c).trans (Calm.receiveCatch _ c)
  unfold handleReceive at hresult hcatch
  cases hcommand : frame.command with
  | none =>
      simp only [hcommand] at hresult hcatch
      rcases hresult with hok | ⟨s', herror, ht⟩
      · cases hok
      · exact move_calm (hcatch s' herror ht) fun cmd hcmd => by simp [hnext, hcommand] at hcmd
  | some cmd =>
      rw [hcommand] at hnext
      simp only [hcommand] at hresult hcatch
      split at hresult
      · next p2p hprotocol hp2p =>
          have hother : ∀ cmd', s.nextCommand c = some cmd' →
              (∀ id, cmd'.request c ≠ some (.stun c id)) ∧ cmd'.beats = false := by
            intro cmd' hcmd'
            cases hnext.symm.trans hcmd'
            exact other_of_p2p hprotocol c
          rcases hresult with hok | ⟨s', herror, ht⟩
          · split at hok
            · cases hok
            · cases hok
              exact move_calm ((calm_take s c).trans (Calm.sendP2P _ _ _ _)) hother
          · refine move_calm (hcatch s' ?_ ht) hother
            simpa only [hprotocol, hp2p] using herror
      · next hnotp2p =>
          rcases hresult with hok | ⟨s', herror, ht⟩
          · split at hok
            · cases hok
            · next u hprocess =>
                cases hok
                exact move_process hnext hprocess (Calm.modify u c rfl rfl) rfl
            · next u hprocess =>
                cases hok
                exact move_process hnext hprocess (Calm.modify u c rfl rfl) rfl
          · split at herror
            · next u hprocess =>
                cases herror
                obtain rfl := process_error hprocess
                subst ht
                refine move_calm ((calm_take s c).trans (Calm.receiveCatch _ c)) ?_
                intro cmd' hcmd'
                cases hnext.symm.trans hcmd'
                constructor
                · intro id hid
                  rw [process_of_stun hid] at hprocess
                  cases hprocess
                · by_contra hbeats
                  rw [process_of_beats (by simpa using hbeats)] at hprocess
                  cases hprocess
            · cases herror
            · cases herror

/-- Every step moves the heartbeat in one of these ways. -/
theorem move_of_step {e : Event} (h : s.step e = some t) : s.Move e t := by
  have hcalm {e : Event} {t : Server} (htimeout : ∀ c i, e ≠ .stunTimeout c i)
      (hreceive : ∀ c, e ≠ .receive c) (h : s.Calm t) : s.Move e t := by
    refine .calm htimeout (fun c id hrequest => ?_) (fun c hc => absurd hc (hreceive c)) h
    cases e with
    | receive c => exact hreceive c rfl
    | _ => cases hrequest
  obtain ⟨-, hhandle⟩ := Option.ite_none_left_eq_some.1 h
  obtain ⟨-, -, heffect⟩ := effect_of_step h
  cases heffect with
  | received _ _ _ => exact move_receive hhandle
  | rejected _ _ => exact move_receive hhandle
  | stunTimeout hw _ => exact .handled hw
  | accept _ => exact hcalm nofun nofun (Calm.modify s _ rfl rfl)
  | arrive _ _ => exact hcalm nofun nofun (Calm.modify s _ rfl rfl)
  | receiveFail _ =>
      exact hcalm nofun nofun ((Calm.modify s _ rfl rfl).trans (Calm.receiveCatch _ _))
  | @relayed c sender dest frame _ _ _ _ _ _ _ _ _ =>
      refine hcalm nofun nofun ((calm_takeProxy s c).trans (Calm.trans ?_ (Calm.write _ _ _)))
      exact Calm.modify _ _ rfl rfl
  | @crashed c _ _ _ _ _ _ _ _ _ =>
      exact hcalm nofun nofun ((calm_takeProxy s c).trans (Calm.of_eq rfl rfl))
  | @unpaired c _ _ _ _ =>
      exact hcalm nofun nofun ((calm_takeProxy s c).trans (Calm.removeProxy _ _))
  | receiveProxyFail _ =>
      exact hcalm nofun nofun ((Calm.modify s _ rfl rfl).trans (Calm.removeProxy _ _))
  | doSend _ => exact hcalm nofun nofun ((Calm.write s _ _).trans (Calm.of_eq rfl rfl))
  | sendDone _ =>
      refine hcalm nofun nofun (Calm.trans ?_ (Calm.drain _))
      exact Calm.of_eq rfl rfl
  | @relayDone c ok _ =>
      refine hcalm nofun nofun ?_
      have htake := Calm.modify s c (f := fun x => { x with relays := x.relays - 1 }) rfl rfl
      split
      · exact htake.trans (Calm.modify _ c rfl rfl)
      · exact htake
  | p2pDone _ => exact hcalm nofun nofun (Calm.of_eq rfl rfl)
  | p2pFail _ =>
      refine hcalm nofun nofun (Calm.trans ?_ (Calm.send _ _ _ _))
      exact Calm.of_eq rfl rfl
  | tick => exact hcalm nofun nofun (Calm.of_eq rfl rfl)
  | expire =>
      refine hcalm nofun nofun (Calm.modifySession s _ ?_ rfl)
      exact map_modify_of_eq (g := fun w : Wait => { w with completed := true }) (fun _ => rfl) _ _

/-- What `HandleStunTimeout` does with a session that it finds. -/
inductive Handled (s : Server) (c : ConnId) : Server → Prop
  | early {t : Server} : s.now < (s.conns c).session.expiresAt →
      t.chain = Function.update s.chain c (s.chain c ++ [(s.conns c).session.id]) →
      t.counter = s.counter → t.stunMgr = s.stunMgr → t.serverQueue = s.serverQueue →
      Handled s c t
  | removed {t : Server} : (s.conns c).session.expiresAt ≤ s.now →
      s.counter c = Session.maxTimeout → t = s.removeStun (s.conns c).session.id → Handled s c t
  | blocked {t : Server} : (s.conns c).session.expiresAt ≤ s.now →
      s.counter c ≠ Session.maxTimeout → s.hung = true → t.chain = s.chain →
      t.stunMgr = s.stunMgr → Handled s c t
  | pinged {t : Server} : (s.conns c).session.expiresAt ≤ s.now →
      s.counter c ≠ Session.maxTimeout → s.hung = false →
      t.chain = Function.update s.chain c (s.chain c ++ [(s.conns c).session.id]) →
      t.counter = Function.update s.counter c (s.counter c + 1) → t.stunMgr = s.stunMgr →
      t.serverQueue = (if (s.stunMgr.find (s.conns c).session.id).isSome then
        s.serverQueue ++ [⟨(s.conns c).session.id, .stun, .ofCommand ping⟩] else s.serverQueue) →
      Handled s c t

theorem serverQueue_send (s : Server) (id : Uuid) (cmd : Command) :
    (s.send id .stun cmd).serverQueue = if (s.stunMgr.find id).isSome then
      s.serverQueue ++ [⟨id, .stun, .ofCommand cmd⟩] else s.serverQueue := by
  unfold send lookup
  cases s.stunMgr.find id with
  | none => rfl
  | some c =>
      simp only [Option.map_some, Option.isSome_some, if_true]
      split <;> rfl

theorem handled_handleStunTimeout {id : Uuid} {c : ConnId} (h : s.stunMgr.find id = some c) :
    s.Handled c (s.handleStunTimeout id) := by
  simp only [handleStunTimeout, h]
  split
  · next hexpired =>
      split
      · next hmax => exact .removed hexpired hmax rfl
      · next hmax =>
          split
          · next hhung =>
              refine .blocked hexpired hmax hhung ?_ rfl
              exact (chain_modify s c _).trans (Function.update_eq_self c s.chain)
          · next hhung =>
              have hhung : s.hung = false := by simpa [modifySession, modify] using hhung
              have hsend := Calm.send
                (s.modifySession c fun x => { x with timeout := x.timeout + 1 })
                (s.conns c).session.id .stun ping
              have hchain : (s.modifySession c fun x => { x with timeout := x.timeout + 1 }).chain =
                  s.chain := (chain_modify s c _).trans (Function.update_eq_self c s.chain)
              refine .pinged hexpired hmax hhung ?_ ?_ (stunMgr_send _ _ _) ?_
              · refine (chain_asyncWait _ c _ (f := fun x => x.expiresFromNow _ 5)
                  (map_waits_expiresFromNow _ _ _)).trans ?_
                rw [hsend.chain, hchain, (send_kept _ _ _ _).2.2.1]
                simp [modifySession, modify]
              · refine (counter_modify _ c _).trans ((Function.update_eq_self c _).trans ?_)
                exact hsend.counter.trans (counter_modify s c _)
              · exact serverQueue_send _ _ _
  · next hexpired =>
      refine .early (Nat.lt_of_not_le hexpired) ?_ ?_ rfl rfl
      · exact chain_asyncWait s c _ (f := fun x => x) rfl
      · exact (counter_modify s c _).trans (Function.update_eq_self c s.counter)

end Moves

end Server

end OpenNat
