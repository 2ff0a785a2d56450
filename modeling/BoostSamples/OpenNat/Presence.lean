import BoostSamples.OpenNat.ServerEffect
import BoostSamples.OpenNat.StunRegistry

/-!
# What subscribers are told

A subscriber of a client is told at once when the client registers and when a
read of its connection fails. A timeout removes and stops a client without a
word; the subscribers hear of it when the aborted read fails, which by then may
belong to an older connection than the one registered, and then takes down the
newer one, whose own failure is announced again. What the subscribers have been
told last is therefore right, or it is that the client is online and the failure
of a stopped connection is still to come.
-/

namespace OpenNat

open Registry Transition

namespace Membership

def FirstRequest (m : Membership) (r : Request) : Prop :=
  (m.member r.conn).type = .unknown

/-- The entries of the STUN registry are connections whose one request was for
their key, and which have not failed. -/
structure Entered (m : Membership) : Prop where
  wellPlaced : m.WellPlaced
  keyed : m.Keyed
  released : m.Released
  typed : ∀ key c, m.stunMgr.find key = some c → (m.member c).type = .stun

variable {m m' : Membership}

theorem Connected.member_of_ne {r : Request} {c : ConnId} (h : m.Connected r m')
    (hc : c ≠ r.conn) : m'.member c = m.member c := by
  cases h with
  | stun _ _ hother _ _ => exact hother c hc
  | proxy _ _ hother _ => exact hother c hc
  | refused _ _ hother _ _ => exact hother c hc

theorem perform_type {a : Action} (ha : a.request = none) (c : ConnId) :
    ((m.perform a).member c).type = (m.member c).type :=
  perform_proj Member.type ha c (fun _ _ => rfl) (fun _ _ _ => ⟨rfl, rfl⟩) (fun _ _ _ => rfl)
    fun _ _ _ => rfl

theorem Connected.typed {r : Request} (h : m.Connected r m') (hfirst : m.FirstRequest r)
    (hm : ∀ key c, m.stunMgr.find key = some c → (m.member c).type = .stun) (key : Uuid)
    (c : ConnId) (hc : m'.stunMgr.find key = some c) : (m'.member c).type = .stun := by
  have hne : ∀ key c, m.stunMgr.find key = some c → c ≠ r.conn := by
    rintro key c hkey rfl
    exact nomatch hfirst.symm.trans (hm key _ hkey)
  cases h with
  | stun hfree hself hother hfind hproxy =>
      rw [hfind] at hc
      split at hc
      · obtain rfl := Option.some.inj hc
        rw [hself]
      · rw [hother c (hne key c hc)]
        exact hm key c hc
  | proxy hadd hself hother hstun =>
      rw [hstun] at hc
      rw [hother c (hne key c hc)]
      exact hm key c hc
  | refused hrefused hself hother hstun hproxy =>
      rw [hstun] at hc
      rw [hother c (hne key c hc)]
      exact hm key c hc

theorem Entered.step {a : Action} (hm : m.Entered) (hfirst : m.Admits FirstRequest a)
    (h : system.step m a = some m') : m'.Entered := by
  have hwell := hm.wellPlaced.step h
  obtain ⟨henabled, rfl⟩ := step_eq_some_iff.1 h
  cases ha : a.request with
  | none =>
      refine ⟨hwell, hm.keyed.perform ha, hm.released.perform hm.keyed ha, fun key c hc => ?_⟩
      rw [perform_type ha]
      exact hm.typed key c (perform_stun ha hc)
  | some r =>
      obtain rfl := Action.eq_connect ha
      have hkeeps : m.KeepsKey r := fun key hkey =>
        nomatch (hm.typed key _ hkey).symm.trans (hfirst r rfl)
      have hconnected : m.Connected r _ := connected henabled
      exact ⟨hwell, (hconnected.keyed_iff hm.keyed).2 hkeeps,
        hconnected.released hm.released hm.wellPlaced henabled,
        hconnected.typed (hfirst r rfl) hm.typed⟩

theorem Entered.init : Entered {} :=
  ⟨.init, by rintro key c ⟨⟩, by rintro c ⟨⟩, by rintro key c ⟨⟩⟩

/-- A stopped STUN session whose failure handler has not run. -/
structure Pending (m : Membership) (key : Uuid) (c : ConnId) : Prop where
  id : (m.member c).id = key
  type : (m.member c).type = .stun
  closed : m.isOpen c = false
  failed : (m.member c).failed = false

theorem isOpen_stop_of_closed {c c' : ConnId} (h : m.isOpen c = false) :
    (m.stop c').isOpen c = false := by
  rw [isOpen_stop]
  split
  · rfl
  · exact h

theorem isOpen_removeStun_of_closed {id : Uuid} {c : ConnId} (h : m.isOpen c = false) :
    (m.removeStun id).isOpen c = false := by
  unfold removeStun
  split
  · exact h
  · exact isOpen_stop_of_closed h

theorem isOpen_removeProxy_of_closed {id : Uuid} {c : ConnId} (h : m.isOpen c = false) :
    (m.removeProxy id).isOpen c = false := by
  unfold removeProxy
  split
  · exact h
  · next p _ =>
      have hhalf : ∀ (m : Membership) half, m.isOpen c = false →
          (m.stopHalf half).isOpen c = false := by
        intro m half hm
        cases half with
        | none => exact hm
        | some c' => exact isOpen_stop_of_closed hm
      exact hhalf _ _ (hhalf _ _ h)

theorem perform_closed {a : Action} (henabled : m.Enabled a) {c : ConnId}
    (h : m.isOpen c = false) : (m.perform a).isOpen c = false := by
  cases a with
  | connect r =>
      rcases connect_cases henabled with
        ⟨_, _, _, -, heq⟩ | ⟨_, _, _, _, _, -, heq⟩ | ⟨-, _, heq⟩
      · simp only [perform, heq]
        exact h
      · simp only [perform, heq]
        exact h
      · simp only [perform, heq]
        exact isOpen_stop_of_closed h
  | receiveFail c' =>
      have htake : (m.takeReceive c').isOpen c = false := h
      exact isOpen_removeStun_of_closed htake
  | receiveProxyFail c' =>
      have htake : (m.takeReceiveProxy c').isOpen c = false := h
      exact isOpen_removeProxy_of_closed htake
  | relayDone c' ok => cases ok <;> exact h
  | timeout id =>
      simp only [perform]
      split
      · exact h
      · exact isOpen_removeStun_of_closed h
  | _ => exact h

theorem closed_of_removeStun {id key : Uuid} {c : ConnId} (h : m.stunMgr.find key = some c) :
    (m.removeStun id).stunMgr.find key = some c ∨
      (m.removeStun id).stunMgr.find key = none ∧ (m.removeStun id).isOpen c = false := by
  rw [find_removeStun]
  split
  · next hkey =>
      subst hkey
      refine .inr ⟨rfl, ?_⟩
      simp [removeStun, h, isOpen_stop]
  · exact .inl h

theorem step_entry {a : Action} (h : system.step m a = some m') {key : Uuid} {c : ConnId}
    (hc : m.stunMgr.find key = some c) :
    m'.stunMgr.find key = some c ∨ m'.stunMgr.find key = none ∧ m'.isOpen c = false := by
  obtain ⟨henabled, rfl⟩ := step_eq_some_iff.1 h
  cases a with
  | connect r =>
      have hconnected : m.Connected r _ := connected henabled
      refine .inl ?_
      simp only [perform]
      generalize (m.takeReceive r.conn).connect r = m' at hconnected ⊢
      cases hconnected with
      | stun hfree hself hother hfind hproxy =>
          next c' id =>
            have hne : key ≠ id := by
              rintro rfl
              cases hfree.symm.trans hc
            rw [hfind, if_neg hne]
            exact hc
      | proxy hadd hself hother hstun => rw [hstun]; exact hc
      | refused hrefused hself hother hstun hproxy => rw [hstun]; exact hc
  | receiveFail c' =>
      have htake : (m.takeReceive c').stunMgr.find key = some c := hc
      exact closed_of_removeStun htake
  | receiveProxyFail c' =>
      refine .inl ?_
      simpa [perform, receiveProxyCatch, takeReceiveProxy] using hc
  | relayDone c' ok => cases ok <;> exact .inl hc
  | timeout id =>
      simp only [perform]
      split
      · exact .inl hc
      · exact closed_of_removeStun hc
  | _ => exact .inl hc

end Membership

def Frame.isConnectRequest (frame : Frame) : Bool :=
  match frame.command with
  | some cmd =>
      match cmd.protocol, cmd.connect with
      | .connect, some connect => connect.protocol = .request
      | _, _ => false
  | none => false

namespace Server

/-- The registrations have not been announced and nobody has been told
anything. -/
structure Silent (s t : Server) : Prop where
  notified : t.notified = s.notified
  subscribeList : t.subscribeList = s.subscribeList
  failed : ∀ c, (t.conns c).failed = (s.conns c).failed
  find : ∀ key c, t.stunMgr.find key = some c → s.stunMgr.find key = some c

namespace Silent

variable {s t u : Server}

theorem refl (s : Server) : s.Silent s := ⟨rfl, rfl, fun _ => rfl, fun _ _ h => h⟩

theorem trans (h : s.Silent t) (h' : t.Silent u) : s.Silent u where
  notified := h'.notified.trans h.notified
  subscribeList := h'.subscribeList.trans h.subscribeList
  failed c := (h'.failed c).trans (h.failed c)
  find key c hc := h.find key c (h'.find key c hc)

theorem of_eq (hnotified : t.notified = s.notified) (hlist : t.subscribeList = s.subscribeList)
    (hconns : t.conns = s.conns) (hstun : t.stunMgr = s.stunMgr) : s.Silent t :=
  ⟨hnotified, hlist, fun c => by rw [hconns], fun key c hc => by rwa [← hstun]⟩

theorem modify (s : Server) (c : ConnId) {f : Conn → Conn}
    (h : (f (s.conns c)).failed = (s.conns c).failed) : s.Silent (s.modify c f) where
  notified := rfl
  subscribeList := rfl
  failed c' := by
    simp only [Server.modify, Function.update_apply]
    split
    · next hc => rw [h, hc]
    · rfl
  find _ _ hc := hc

theorem send (s : Server) (id : Uuid) (type : SessionType) (cmd : Command) :
    s.Silent (s.send id type cmd) := by
  unfold Server.send
  split
  · dsimp only
    split <;> exact ⟨rfl, rfl, fun _ => rfl, fun _ _ h => h⟩
  · exact refl s

theorem insensitive : Insensitive Silent where
  refl := refl
  trans := trans
  session s c _ := modify s c rfl
  send := send
  paired _ _ := ⟨rfl, rfl, fun _ => rfl, fun _ _ h => h⟩
  removed s id := by
    refine ⟨rfl, rfl, fun _ => rfl, fun key c hc => ?_⟩
    have hremove := s.stunMgr.find_removeSession id key
    simp only at hc
    rw [hremove] at hc
    split at hc
    · cases hc
    · exact hc

end Silent

/-- The last online flag that a subscriber has been sent for a client. -/
def lastFlag (s : Server) (subscriber x : Uuid) : Option Bool :=
  ((s.notified.filter fun n => n.1 = subscriber ∧ n.2.1 = x).getLast?).map fun n => n.2.2

/-- What a step tells the subscribers, and what it does to the registry. -/
inductive Notice (s t : Server) : Prop
  | silent : s.Silent t → Notice s t
  | online {c : ConnId} {id : Uuid} :
      t.notified = s.notified ++ (s.subscribeList id).map (fun sub => (sub, id, true)) →
      t.subscribeList = s.subscribeList →
      (∀ c', (t.conns c').failed = (s.conns c').failed) →
      (∀ key, t.stunMgr.find key = if key = id then some c else s.stunMgr.find key) →
      Notice s t
  | offline {c : ConnId} {id : Uuid} : (s.conns c).session.id = id →
      t.notified = s.notified ++ (s.subscribeList id).map (fun sub => (sub, id, false)) →
      t.subscribeList = s.subscribeList →
      (∀ c', c' ≠ c → (t.conns c').failed = (s.conns c').failed) →
      (∀ key, t.stunMgr.find key = if key = id then none else s.stunMgr.find key) →
      Notice s t
  | subscribed {subscriber x : Uuid} :
      t.notified = s.notified ++ [(subscriber, x, (s.stunMgr.find x).isSome)] →
      (∀ key sub, sub ∈ t.subscribeList key →
        sub ∈ s.subscribeList key ∨ key = x ∧ sub = subscriber) →
      (∀ c', (t.conns c').failed = (s.conns c').failed) → t.stunMgr = s.stunMgr →
      Notice s t

section Steps

variable {s t u : Server}

theorem send_kept (s : Server) (id : Uuid) (type : SessionType) (cmd : Command) :
    (s.send id type cmd).notified = s.notified ∧
      (s.send id type cmd).subscribeList = s.subscribeList ∧
      (s.send id type cmd).conns = s.conns ∧ (s.send id type cmd).stunMgr = s.stunMgr := by
  unfold send
  split
  · dsimp only
    split <;> exact ⟨rfl, rfl, rfl, rfl⟩
  · exact ⟨rfl, rfl, rfl, rfl⟩

theorem notify_kept (s : Server) (x : Uuid) (online : Bool) :
    (s.notify x online).notified =
        s.notified ++ (s.subscribeList x).map (fun sub => (sub, x, online)) ∧
      (s.notify x online).subscribeList = s.subscribeList ∧
      (s.notify x online).conns = s.conns ∧ (s.notify x online).stunMgr = s.stunMgr := by
  unfold notify
  induction s.subscribeList x generalizing s with
  | nil => exact ⟨by simp, rfl, rfl, rfl⟩
  | cons sub l ih =>
      obtain ⟨hnotified, hlist, hconns, hstun⟩ := ih (s.onNotify sub x online)
      obtain ⟨hnotified', hlist', hconns', hstun'⟩ := send_kept
        { s with notified := s.notified ++ [(sub, x, online)] } sub .stun
        (subscribeReply x online)
      refine ⟨?_, hlist.trans hlist', hconns.trans hconns', hstun.trans hstun'⟩
      rw [List.foldl_cons, hnotified]
      have hone : (s.onNotify sub x online).notified = s.notified ++ [(sub, x, online)] :=
        hnotified'
      simp [hone]

/-- What is silent before or after a notice adds nothing to it. -/
theorem Notice.after (h : s.Silent t) (hlocal : t.stunMgr = s.stunMgr)
    (hid : ∀ c, (t.conns c).session.id = (s.conns c).session.id) (hn : t.Notice u) :
    s.Notice u := by
  cases hn with
  | silent h' => exact .silent (h.trans h')
  | online hnotified hlist hfailed hfind =>
      refine .online ?_ (hlist.trans h.subscribeList) (fun c' => (hfailed c').trans (h.failed c'))
        (by rw [← hlocal]; exact hfind)
      rw [hnotified, h.notified, h.subscribeList]
  | @offline c id hc hnotified hlist hfailed hfind =>
      refine .offline ((hid c).symm.trans hc) ?_ (hlist.trans h.subscribeList)
        (fun c' hne => (hfailed c' hne).trans (h.failed c')) (by rw [← hlocal]; exact hfind)
      rw [hnotified, h.notified, h.subscribeList]
  | @subscribed subscriber x hnotified hlist hfailed hstun =>
      refine @Notice.subscribed s u subscriber x ?_ ?_
        (fun c' => (hfailed c').trans (h.failed c')) (hstun.trans hlocal)
      · rw [hnotified, h.notified, hlocal]
      · rw [← h.subscribeList]
        exact hlist

theorem Notice.before (hn : s.Notice t) (h : t.Silent u) (hlocal : u.stunMgr = t.stunMgr) :
    s.Notice u := by
  cases hn with
  | silent h' => exact .silent (h'.trans h)
  | online hnotified hlist hfailed hfind =>
      exact .online (h.notified.trans hnotified) (h.subscribeList.trans hlist)
        (fun c' => (h.failed c').trans (hfailed c')) (by rw [hlocal]; exact hfind)
  | offline hc hnotified hlist hfailed hfind =>
      exact .offline hc (h.notified.trans hnotified) (h.subscribeList.trans hlist)
        (fun c' hne => (h.failed c').trans (hfailed c' hne)) (by rw [hlocal]; exact hfind)
  | subscribed hnotified hlist hfailed hstun =>
      exact .subscribed (h.notified.trans hnotified) (by rw [h.subscribeList]; exact hlist)
        (fun c' => (h.failed c').trans (hfailed c')) (hlocal.trans hstun)

theorem notice_connectStun (s : Server) (c : ConnId) (id : Uuid) :
    s.Notice (s.connectStun c id) := by
  rcases s.connectStun_cases c id with ⟨-, heq⟩ | ⟨-, heq⟩
  · rw [heq]
    obtain ⟨hnotified, hlist, hconns, hstun⟩ := notify_kept { s.named c id with
      stunMgr := ⟨Function.update s.stunMgr.sessionMap id (some c)⟩ } id true
    have hnamed : s.Silent (s.named c id) := Silent.insensitive.session s c _
    have hnotify : s.Notice ({ s.named c id with
        stunMgr := ⟨Function.update s.stunMgr.sessionMap id (some c)⟩ }.notify id true) := by
      refine .online (c := c) hnotified hlist (fun c' => ?_) fun key => ?_
      · rw [hconns]
        exact hnamed.failed c'
      · rw [hstun]
        exact s.stunMgr.find_update id key (some c)
    exact hnotify.before (Silent.send _ _ _ _) (send_kept _ _ _ _).2.2.2
  · rw [heq]
    exact .silent (Silent.insensitive.trans (Silent.insensitive.session s c _)
      (Silent.insensitive.refuse _ c))

theorem notice_subscribe (s : Server) (x subscriber : Uuid) :
    s.Notice (s.subscribe x subscriber (0 < s.stunMgr.count x)) := by
  have hcount : decide (0 < s.stunMgr.count x) = (s.stunMgr.find x).isSome := by
    unfold SessionMgr.count SessionMgr.find
    cases s.stunMgr.sessionMap x <;> rfl
  rw [hcount]
  obtain ⟨hnotified, hlist, hconns, hstun⟩ := send_kept { s with
    subscribeList := Function.update s.subscribeList x
      (if subscriber ∈ s.subscribeList x then s.subscribeList x
        else s.subscribeList x ++ [subscriber])
    notified := s.notified ++ [(subscriber, x, (s.stunMgr.find x).isSome)] }
    subscriber .stun (subscribeReply x (s.stunMgr.find x).isSome)
  refine .subscribed hnotified (fun key sub hsub => ?_) (fun c' => ?_) hstun
  · have hsub' : sub ∈ Function.update s.subscribeList x
        (if subscriber ∈ s.subscribeList x then s.subscribeList x
          else s.subscribeList x ++ [subscriber]) key :=
      (congrArg (sub ∈ ·) (congrFun hlist key)).mp hsub
    rw [Function.update_apply] at hsub'
    split at hsub'
    · next hkey =>
        split at hsub'
        · exact .inl (hkey ▸ hsub')
        · rcases List.mem_append.1 hsub' with hold | hnew
          · exact .inl (hkey ▸ hold)
          · exact .inr ⟨hkey, List.mem_singleton.1 hnew⟩
    · exact .inl hsub'
  · show (_ : Conn).failed = _
    rw [subscribe, onNotify, hconns]

/-- The failure handler tells the subscribers of its id that it is gone, and
leaves nobody registered under it. -/
theorem notice_receiveCatch (s : Server) (c : ConnId) : s.Notice (s.receiveCatch c) := by
  obtain ⟨hnotified, hlist, hconns, hstun⟩ :=
    notify_kept (s.removeStun (s.conns c).session.id) (s.conns c).session.id false
  have hremove := Silent.insensitive.removeStun s (s.conns c).session.id
  refine .offline (c := c) rfl ?_ (hlist.trans hremove.subscribeList) (fun c' hne => ?_)
    fun key => ?_
  · rw [← hremove.subscribeList, ← hremove.notified]
    exact hnotified
  · rw [← hremove.failed c', ← hconns]
    simp [receiveCatch, modify, hne]
  · have hmgr : (s.removeStun (s.conns c).session.id).stunMgr =
        (s.membership.removeStun (s.conns c).session.id).stunMgr :=
      congrArg Membership.stunMgr (s.membership_removeStun _)
    show (_ : SessionMgr ConnId).find key = _
    rw [receiveCatch, modify, hstun, hmgr, Membership.find_removeStun]
    rfl

theorem notice_of_processed {c : ConnId} {cmd : Command} {more : Bool}
    (h : s.Processed c cmd t more) : s.Notice t := by
  cases h with
  | ignored => exact .silent (Silent.refl s)
  | stun _ => exact notice_connectStun s c _
  | proxy _ => exact .silent (Silent.insensitive.connectProxy s c _ _)
  | heartbeat => exact .silent (Silent.insensitive.processHeartbeat s c _)
  | subscribe => exact notice_subscribe s _ _

theorem silent_take (s : Server) (c : ConnId) : s.Silent ((s.takeReceive c).takeFrame c) :=
  (Silent.modify s c rfl).trans (Silent.modify _ c rfl)

theorem silent_takeProxy (s : Server) (c : ConnId) :
    s.Silent ((s.takeReceiveProxy c).takeFrame c) :=
  (Silent.modify s c rfl).trans (Silent.modify _ c rfl)

theorem silent_write (s : Server) (c : ConnId) (frame : Frame) : s.Silent (s.write c frame) := by
  refine Silent.modify s c ?_
  split <;> rfl

theorem silent_drain (s : Server) : s.Silent s.drain := by
  unfold drain
  split
  · exact Silent.refl s
  · split <;> exact ⟨rfl, rfl, fun _ => rfl, fun _ _ h => h⟩

theorem session_takeReceive (s : Server) (c c' : ConnId) :
    ((s.takeReceive c).conns c').session.id = (s.conns c').session.id := by
  by_cases hc : c' = c
  · subst hc
    simp [takeReceive, modify]
  · simp [takeReceive, modify, hc]

theorem session_take (s : Server) (c c' : ConnId) :
    (((s.takeReceive c).takeFrame c).conns c').session.id = (s.conns c').session.id := by
  rw [← session_takeReceive s c c']
  by_cases hc : c' = c
  · subst hc
    simp [takeFrame, modify]
  · simp [takeFrame, modify, hc]

theorem notice_of_effect {e : Event} (h : s.Effect e t) : s.Notice t := by
  cases h with
  | accept _ => exact .silent (Silent.modify s _ rfl)
  | arrive _ _ => exact .silent (Silent.modify s _ rfl)
  | @received c frame rest t hreceives hinbox hreceived =>
      have hid : ∀ c', (((s.takeReceive c).takeFrame c).conns c').session.id =
          (s.conns c').session.id := session_take s c
      cases hreceived with
      | @p2p cmd p2p clientId _ _ _ _ =>
          unfold sendP2P
          refine .silent ((silent_take s c).trans (Silent.trans ?_ (Silent.modify _ c rfl)))
          split
          · next dest _ => exact (silent_write _ dest frame).trans (Silent.of_eq rfl rfl rfl rfl)
          · exact Silent.send _ _ _ _
      | more _ hprocessed =>
          exact ((notice_of_processed hprocessed).before (Silent.modify _ c rfl) rfl).after
            (silent_take s c) rfl hid
      | proxied _ hprocessed =>
          exact ((notice_of_processed hprocessed).before (Silent.modify _ c rfl) rfl).after
            (silent_take s c) rfl hid
  | @rejected c frame rest _ _ =>
      exact (notice_receiveCatch _ c).after (silent_take s c) rfl (session_take s c)
  | @receiveFail c _ =>
      exact (notice_receiveCatch _ c).after (Silent.modify s c rfl) rfl (session_takeReceive s c)
  | @relayed c sender dest frame rest p d _ _ _ _ _ _ =>
      exact .silent (((silent_takeProxy s c).trans (Silent.modify _ sender rfl)).trans
        (silent_write _ dest _))
  | @crashed c frame rest p d _ _ _ _ _ =>
      exact .silent ((silent_takeProxy s c).trans (Silent.of_eq rfl rfl rfl rfl))
  | @unpaired c frame rest _ _ =>
      exact .silent ((silent_takeProxy s c).trans (Silent.insensitive.removeProxy _ _))
  | @receiveProxyFail c _ =>
      exact .silent ((Silent.modify s c rfl).trans (Silent.insensitive.removeProxy _ _))
  | @doSend before after w hposted =>
      exact .silent ((silent_write s w.1 w.2).trans (Silent.of_eq rfl rfl rfl rfl))
  | @sendDone before after w ok hflight =>
      have hpop : s.Silent { s with
          inFlight := before ++ after
          serverQueue := s.serverQueue.tail } := Silent.of_eq rfl rfl rfl rfl
      exact .silent (hpop.trans (silent_drain _))
  | @relayDone c ok _ =>
      refine .silent ?_
      split
      · exact (Silent.modify s c rfl).trans (Silent.modify _ c rfl)
      · exact Silent.modify s c rfl
  | p2pDone hwrites => exact .silent (Silent.of_eq rfl rfl rfl rfl)
  | @p2pFail before after dest sender hwrites =>
      have hdone : s.Silent { s with p2pWrites := before ++ after } := Silent.of_eq rfl rfl rfl rfl
      exact .silent (hdone.trans (Silent.send _ _ _ _))
  | tick => exact .silent (Silent.of_eq rfl rfl rfl rfl)
  | @expire c i => exact .silent (Silent.insensitive.session s c _)
  | @stunTimeout c i w _ _ =>
      exact .silent ((Silent.insensitive.session s c _).trans
        (Silent.insensitive.handleStunTimeout _ _))

end Steps

section LastFlag

variable {s t : Server}

theorem lastFlag_of_forall_ne {entries : List (Uuid × Uuid × Bool)} {sub x : Uuid}
    (h : t.notified = s.notified ++ entries)
    (hne : ∀ n ∈ entries, ¬ (n.1 = sub ∧ n.2.1 = x)) : t.lastFlag sub x = s.lastFlag sub x := by
  have hnil : entries.filter (fun n => n.1 = sub ∧ n.2.1 = x) = [] :=
    List.filter_eq_nil_iff.2 fun n hn => by simpa using hne n hn
  rw [lastFlag, lastFlag, h, List.filter_append, hnil, List.append_nil]

theorem lastFlag_of_forall_eq {entries : List (Uuid × Uuid × Bool)} {sub x : Uuid} {b : Bool}
    (h : t.notified = s.notified ++ entries) (hmem : (sub, x, b) ∈ entries)
    (heq : ∀ n ∈ entries, n.1 = sub → n.2.1 = x → n.2.2 = b) :
    t.lastFlag sub x = some b := by
  have hfilter : (sub, x, b) ∈ entries.filter fun n => n.1 = sub ∧ n.2.1 = x := by
    simpa using hmem
  obtain ⟨n, hn⟩ := Option.isSome_iff_exists.1
    (List.getLast?_isSome.2 (List.ne_nil_of_mem hfilter))
  obtain ⟨hmem', hsub, hx⟩ : n ∈ entries ∧ n.1 = sub ∧ n.2.1 = x := by
    simpa using List.mem_of_getLast? hn
  rw [lastFlag, h, List.filter_append, List.getLast?_append, hn]
  simp [heq n hmem' hsub hx]

end LastFlag

/-- The subscribers of a client have been told whether it is registered, or have
been told that it is and a stopped connection of it is still to fail. -/
def Informed (s : Server) : Prop :=
  ∀ x sub, sub ∈ s.subscribeList x → s.lastFlag sub x = some (s.stunMgr.find x).isSome ∨
    s.lastFlag sub x = some true ∧ s.stunMgr.find x = none ∧ ∃ c, s.membership.Pending x c

section Informed

variable {s t : Server} {e : Event}

theorem member_step (h : s.step e = some t) (hfirst : s.Admits Membership.FirstRequest e)
    {c : ConnId} (hc : (s.membership.member c).type ≠ .unknown) :
    (t.membership.member c).id = (s.membership.member c).id ∧
      (t.membership.member c).type = (s.membership.member c).type := by
  obtain ⟨a, ha, hrequest, -⟩ := step_refines h
  obtain ⟨henabled, hperform⟩ := Membership.step_eq_some_iff.1 ha
  rw [← hperform]
  cases hr : a.request with
  | none => exact ⟨Membership.perform_id hr c, Membership.perform_type hr c⟩
  | some r =>
      obtain rfl := Membership.Action.eq_connect hr
      have hne : c ≠ r.conn := by
        rintro rfl
        exact hc (hfirst r (hrequest r rfl))
      have hmember : (s.membership.perform (.connect r)).member c = s.membership.member c :=
        (Membership.connected henabled).member_of_ne hne
      rw [hmember]
      exact ⟨rfl, rfl⟩

/-- A pending connection stays pending until its failure handler has run. -/
theorem pending_step (h : s.step e = some t) (hfirst : s.Admits Membership.FirstRequest e)
    {x : Uuid} {c : ConnId} (hc : s.membership.Pending x c)
    (hfailed : (t.conns c).failed = (s.conns c).failed) : t.membership.Pending x c := by
  obtain ⟨hid, htype⟩ := member_step h hfirst (by rw [hc.type]; nofun)
  obtain ⟨a, ha, -⟩ := step_refines h
  obtain ⟨henabled, hperform⟩ := Membership.step_eq_some_iff.1 ha
  refine ⟨hid.trans hc.id, htype.trans hc.type, ?_, hfailed.trans hc.failed⟩
  rw [← hperform]
  exact Membership.perform_closed henabled hc.closed

theorem pending_of_removed (h : s.step e = some t) (hentered : s.membership.Entered)
    (hfirst : s.Admits Membership.FirstRequest e) {x : Uuid} {c : ConnId}
    (hc : s.stunMgr.find x = some c) (hx : t.stunMgr.find x = none)
    (hfailed : (t.conns c).failed = (s.conns c).failed) : t.membership.Pending x c := by
  have htype := hentered.typed x c hc
  obtain ⟨hid', htype'⟩ := member_step h hfirst (by rw [htype]; nofun)
  obtain ⟨a, ha, -⟩ := step_refines h
  refine ⟨hid'.trans (hentered.keyed x c hc), htype'.trans htype, ?_, ?_⟩
  · rcases Membership.step_entry ha hc with hstay | ⟨-, hclosed⟩
    · exact nomatch hx.symm.trans hstay
    · exact hclosed
  · refine hfailed.trans ?_
    cases hnot : (s.conns c).failed with
    | false => rfl
    | true => exact absurd hc (hentered.released c hnot x)

theorem informed_step (hs : s.Informed) (hentered : s.membership.Entered)
    (hfirst : s.Admits Membership.FirstRequest e) (h : s.step e = some t) : t.Informed := by
  obtain ⟨-, -, heffect⟩ := effect_of_step h
  intro x sub hsub
  -- a notice that is not about this client and subscriber changes nothing for them
  have hkeep : sub ∈ s.subscribeList x → t.lastFlag sub x = s.lastFlag sub x →
      t.stunMgr.find x = s.stunMgr.find x →
      (∀ c, s.membership.Pending x c → (t.conns c).failed = (s.conns c).failed) →
      t.lastFlag sub x = some (t.stunMgr.find x).isSome ∨
        t.lastFlag sub x = some true ∧ t.stunMgr.find x = none ∧
          ∃ c, t.membership.Pending x c := by
    intro hold hflag hfind hfailed
    rw [hflag, hfind]
    rcases hs x sub hold with hgood | ⟨htrue, hnone, c, hc⟩
    · exact .inl hgood
    · exact .inr ⟨htrue, hnone, c, pending_step h hfirst hc (hfailed c hc)⟩
  cases notice_of_effect heffect with
  | silent hsilent =>
      have hold : sub ∈ s.subscribeList x := hsilent.subscribeList ▸ hsub
      have hflag : t.lastFlag sub x = s.lastFlag sub x := by
        rw [lastFlag, lastFlag, hsilent.notified]
      cases hfind : t.stunMgr.find x with
      | some c =>
          have hfind' := hsilent.find x c hfind
          have hgoal := hkeep hold hflag (hfind.trans hfind'.symm) fun c' _ => hsilent.failed c'
          rwa [hfind] at hgoal
      | none =>
          cases hfind' : s.stunMgr.find x with
          | none =>
              have hgoal :=
                hkeep hold hflag (hfind.trans hfind'.symm) fun c' _ => hsilent.failed c'
              rwa [hfind] at hgoal
          | some c =>
              rw [hflag]
              rcases hs x sub hold with hgood | ⟨-, hnone, -⟩
              · rw [hfind'] at hgood
                exact .inr ⟨hgood, rfl, c,
                  pending_of_removed h hentered hfirst hfind' hfind (hsilent.failed c)⟩
              · exact nomatch hnone.symm.trans hfind'
  | @online c id hnotified hlist hfailed hfind =>
      rw [hlist] at hsub
      by_cases hx : x = id
      · subst hx
        refine .inl ?_
        rw [hfind x, if_pos rfl]
        refine lastFlag_of_forall_eq hnotified (List.mem_map.2 ⟨sub, hsub, rfl⟩) fun n hn _ _ => ?_
        obtain ⟨sub', -, rfl⟩ := List.mem_map.1 hn
        rfl
      · refine hkeep hsub (lastFlag_of_forall_ne hnotified fun n hn => ?_)
          (by rw [hfind, if_neg hx]) fun c' _ => hfailed c'
        obtain ⟨sub', -, rfl⟩ := List.mem_map.1 hn
        exact fun hboth => hx hboth.2.symm
  | @offline c id hid hnotified hlist hfailed hfind =>
      rw [hlist] at hsub
      by_cases hx : x = id
      · subst hx
        refine .inl ?_
        rw [hfind x, if_pos rfl]
        refine lastFlag_of_forall_eq hnotified (List.mem_map.2 ⟨sub, hsub, rfl⟩) fun n hn _ _ => ?_
        obtain ⟨sub', -, rfl⟩ := List.mem_map.1 hn
        rfl
      · refine hkeep hsub (lastFlag_of_forall_ne hnotified fun n hn => ?_)
          (by rw [hfind, if_neg hx]) fun c' hc' => hfailed c' ?_
        · obtain ⟨sub', -, rfl⟩ := List.mem_map.1 hn
          exact fun hboth => hx hboth.2.symm
        · rintro rfl
          exact hx (hc'.id.symm.trans hid)
  | @subscribed subscriber x' hnotified hlist hfailed hstun =>
      by_cases hboth : subscriber = sub ∧ x' = x
      · obtain ⟨rfl, rfl⟩ := hboth
        refine .inl ?_
        rw [hstun]
        exact lastFlag_of_forall_eq hnotified (List.mem_singleton.2 rfl) fun n hn _ _ => by
          rw [List.mem_singleton.1 hn]
      · refine hkeep ?_ (lastFlag_of_forall_ne hnotified fun n hn => ?_) (by rw [hstun])
          fun c' _ => hfailed c'
        · rcases hlist x sub hsub with hold | ⟨hx, hsub'⟩
          · exact hold
          · exact absurd ⟨hsub'.symm, hx.symm⟩ hboth
        · rw [List.mem_singleton.1 hn]
          exact hboth

theorem informed_of_reachable
    (h : system.ReachableWhile (Admits Membership.FirstRequest) s) : s.Informed := by
  have hboth : s.membership.Entered ∧ s.Informed := by
    refine h.invariant (I := fun s => s.membership.Entered ∧ s.Informed) (fun s hs => ?_)
      fun s e t hs hfirst hstep => ?_
    · obtain rfl : s = {} := hs
      exact ⟨.init, fun x sub hsub => (nomatch hsub)⟩
    · obtain ⟨a, ha, hrequest, -⟩ := step_refines hstep
      exact ⟨hs.1.step (fun r hr => hfirst r (hrequest r hr)) ha,
        informed_step hs.2 hs.1 hfirst hstep⟩
  exact hboth.2

end Informed

def Event.issues (c : ConnId) : Event → Bool
  | .arrive c' frame => c' = c && frame.isConnectRequest
  | _ => false

/-- Every STUN session that has been stopped, by a refusal, a timeout or a
removal, has run its failure handler. -/
def Settled (s : Server) : Prop :=
  ∀ c, (s.conns c).session.isOpen = false → (s.conns c).session.type = .stun →
    (s.conns c).failed = true

/-- The connect requests of a connection that have arrived: those still in its
stream, and the one that has given it its type. -/
def issued (s : Server) (c : ConnId) : Nat :=
  (s.conns c).inbox.countP Frame.isConnectRequest +
    if (s.conns c).session.type = .unknown then 0 else 1

section Requests

variable {s t : Server}

theorem request_cases {e : Event} {r : Request} (h : s.request e = some r) :
    ∃ frame rest, e = .receive r.conn ∧ (s.conns r.conn).inbox = frame :: rest ∧
      frame.isConnectRequest = true := by
  cases e with
  | receive c =>
      obtain ⟨cmd, hcmd, hr⟩ := Option.bind_eq_some_iff.1 h
      obtain ⟨frame, hframe, hcommand⟩ := Option.bind_eq_some_iff.1 hcmd
      obtain ⟨rest, hrest⟩ := inbox_of_head? hframe
      have hfacts : r.conn = c ∧ frame.isConnectRequest = true := by
        unfold Command.request at hr
        unfold Frame.isConnectRequest
        rw [hcommand]
        split at hr
        · next hprotocol hconnect => cases hr; simp [hprotocol, hconnect, Request.conn]
        · next hprotocol hconnect => cases hr; simp [hprotocol, hconnect, Request.conn]
        · next hprotocol hconnect => cases hr; simp [hprotocol, hconnect, Request.conn]
        · cases hr
      rw [hfacts.1]
      exact ⟨frame, rest, rfl, hrest, hfacts.2⟩
  | _ => cases h

theorem type_of_step {e : Event} (h : s.step e = some t) (c : ConnId) :
    (t.conns c).session.type = (s.conns c).session.type ∨
      ∃ r, s.request e = some r ∧ r.conn = c := by
  obtain ⟨a, ha, hrequest, -⟩ := step_refines h
  obtain ⟨henabled, hperform⟩ := Membership.step_eq_some_iff.1 ha
  have htype : (t.conns c).session.type = ((s.membership.perform a).member c).type := by
    rw [hperform]
    rfl
  rw [htype]
  cases hr : a.request with
  | none => exact .inl (Membership.perform_type hr c)
  | some r =>
      obtain rfl := Membership.Action.eq_connect hr
      by_cases hc : r.conn = c
      · exact .inr ⟨r, hrequest r rfl, hc⟩
      · have hmember : (s.membership.perform (.connect r)).member c = s.membership.member c :=
          (Membership.connected henabled).member_of_ne (Ne.symm hc)
        rw [hmember]
        exact .inl rfl

theorem issued_step {e : Event} (h : s.step e = some t) (c : ConnId) :
    t.issued c ≤ s.issued c + if e.issues c then 1 else 0 := by
  obtain ⟨-, -, heffect⟩ := effect_of_step h
  unfold issued
  rw [inbox_of_effect heffect c]
  rcases type_of_step h c with htype | ⟨r, hr, rfl⟩
  · have hcount : (s.inboxAfter c e).countP Frame.isConnectRequest ≤
        (s.conns c).inbox.countP Frame.isConnectRequest + if e.issues c then 1 else 0 := by
      have htail := (List.tail_sublist (s.conns c).inbox).countP_le
        (p := Frame.isConnectRequest)
      unfold inboxAfter Event.issues
      split
      · next c' frame =>
          by_cases hc : c' = c
          · simp [hc, List.countP_append, List.countP_singleton]
          · simp [hc]
      · simp only [Bool.false_eq_true, if_false]
        split <;> omega
      · simp only [Bool.false_eq_true, if_false]
        split <;> omega
      · exact Nat.le_add_right _ _
    rw [htype]
    omega
  · obtain ⟨frame, rest, rfl, hinbox, hframe⟩ := request_cases hr
    have hcount : (frame :: rest).countP Frame.isConnectRequest =
        rest.countP Frame.isConnectRequest + 1 := List.countP_cons_of_pos hframe
    simp only [inboxAfter, if_true, hinbox, List.tail_cons, hcount, Event.issues]
    split <;> omega

/-- A run in which each connection issues at most one connect request processes
only first requests. -/
theorem firstRequest_of_exec {es : List Event} (h : system.exec s es = some t)
    (hissues : ∀ c, s.issued c + es.countP (Event.issues c) ≤ 1)
    (hs : system.ReachableWhile (Admits Membership.FirstRequest) s) :
    system.ReachableWhile (Admits Membership.FirstRequest) t := by
  induction es generalizing s with
  | nil =>
      cases h
      exact hs
  | cons e es ih =>
      obtain ⟨u, hu, ht⟩ := Option.bind_eq_some_iff.1 h
      refine ih ht (fun c => ?_) (hs.step (fun r hr => ?_) hu)
      · have hstep := issued_step hu c
        have hbefore := hissues c
        rw [List.countP_cons] at hbefore
        omega
      · obtain ⟨frame, rest, rfl, hinbox, hframe⟩ := request_cases hr
        have hbefore := hissues r.conn
        unfold issued at hbefore
        rw [hinbox, List.countP_cons_of_pos hframe] at hbefore
        by_contra hne
        have htype : (s.conns r.conn).session.type ≠ .unknown := hne
        simp only [if_neg htype] at hbefore
        omega

end Requests

/-- In a run in which each connection issues at most one connect request, once
every stopped session has run its failure handler, each subscriber has been told
last whether the client is registered. -/
theorem lastFlag_of_settled {es : List Event} {s : Server} (h : system.exec {} es = some s)
    (hissues : ∀ c, es.countP (Event.issues c) ≤ 1) (hsettled : s.Settled) {x sub : Uuid}
    (hsub : sub ∈ s.subscribeList x) : s.lastFlag sub x = some (s.stunMgr.find x).isSome := by
  have hrun : system.ReachableWhile (Admits Membership.FirstRequest) s :=
    firstRequest_of_exec h (fun c => by simpa [issued] using hissues c) (.init rfl)
  have hinformed := informed_of_reachable hrun
  rcases hinformed x sub hsub with hgood | ⟨-, -, c, hc⟩
  · exact hgood
  · exact nomatch hc.failed.symm.trans (hsettled c hc.closed hc.type)

theorem type_of_exec {es : List Event} {s t : Server} (h : system.exec s es = some t)
    {c : ConnId} (hc : .receive c ∉ es) :
    (t.conns c).session.type = (s.conns c).session.type := by
  induction es generalizing s with
  | nil =>
      cases h
      rfl
  | cons e es ih =>
      obtain ⟨u, hu, ht⟩ := Option.bind_eq_some_iff.1 h
      obtain ⟨hne, hnot⟩ := not_or.1 fun hor => hc (List.mem_cons.2 hor)
      rw [ih ht hnot]
      rcases type_of_step hu c with htype | ⟨r, hr, rfl⟩
      · exact htype
      · obtain ⟨-, -, rfl, -⟩ := request_cases hr
        exact absurd rfl hne

def subscribeRequest (id : Uuid) : Frame :=
  .ofCommand { protocol := .subscribe, subscribe := some ⟨.request, some (some id), false⟩ }

/-- Client 2 subscribes to client 1, who registers and is timed out. -/
def subscribedRun : List Event :=
  connectRun 0 .stun 2 ++ [.arrive 0 (subscribeRequest 1), .receive 0] ++ connectRun 1 .stun 1 ++
    (List.replicate 4 [.tick 5, .expire 1 0, .stunTimeout 1 0]).flatten

/-- Client 1 registers again before the read of its first connection fails, which
takes the new registration down; that connection fails too, and client 1
registers a third time. -/
def returnedRun : List Event :=
  subscribedRun ++ connectRun 2 .stun 1 ++ [.receiveFail 1, .receiveFail 2] ++
    connectRun 3 .stun 1

structure View where
  lastFlag : Option Bool
  registered : Option ConnId
  subscribers : List Uuid
  settled : Bool
  deriving DecidableEq

def view (s : Server) : View :=
  ⟨s.lastFlag 2 1, s.stunMgr.find 1, s.subscribeList 1,
    (List.range 4).all fun c => (s.conns c).failed || (s.conns c).session.isOpen⟩

/-- The subscriber has then heard five times, last that client 1 is online. -/
theorem returnedRun_lastFlag : ∃ s, system.exec {} returnedRun = some s ∧
    s.lastFlag 2 1 = some (s.stunMgr.find 1).isSome ∧ s.stunMgr.find 1 = some 3 := by
  have hrun : (system.exec {} returnedRun).map view =
      some ⟨some true, some 3, [2], true⟩ := by
    decide +kernel
  obtain ⟨s, hs, hview⟩ := Option.map_eq_some_iff.1 hrun
  simp only [view, View.mk.injEq] at hview
  obtain ⟨-, hfind, hlist, hfailed⟩ := hview
  have hconns : ∀ e ∈ returnedRun, ∀ c, ¬ c < 4 → e ≠ .receive c ∧ e.issues c = false := by
    have hall : returnedRun.all fun e => match e with
        | .arrive c _ | .receive c => c < 4
        | _ => true := by decide
    intro e he c hc
    have hconn := List.all_eq_true.1 hall e he
    cases e with
    | arrive c' frame =>
        have hne : c' ≠ c := by
          rintro rfl
          exact hc (by simpa using hconn)
        exact ⟨nofun, by simp [Event.issues, hne]⟩
    | receive c' =>
        refine ⟨?_, rfl⟩
        rintro ⟨⟩
        exact hc (by simpa using hconn)
    | _ => exact ⟨nofun, rfl⟩
  have hsettled : s.Settled := by
    intro c hopen htype
    by_cases hc : c < 4
    · have hmem := List.all_eq_true.1 hfailed c (List.mem_range.2 hc)
      simpa [hopen] using hmem
    · exact nomatch htype.symm.trans (type_of_exec hs fun hmem => (hconns _ hmem c hc).1 rfl)
  have hissues : ∀ c, returnedRun.countP (Event.issues c) ≤ 1 := by
    intro c
    by_cases hc : c < 4
    · have hall : (List.range 4).all (fun c => returnedRun.countP (Event.issues c) ≤ 1) := by
        decide
      simpa using List.all_eq_true.1 hall c (List.mem_range.2 hc)
    · have hzero : returnedRun.countP (Event.issues c) = 0 :=
        List.countP_eq_zero.2 fun e he => by simp [(hconns e he c hc).2]
      omega
  exact ⟨s, hs, lastFlag_of_settled hs hissues hsettled (by rw [hlist]; decide), hfind⟩

end Server

end OpenNat
