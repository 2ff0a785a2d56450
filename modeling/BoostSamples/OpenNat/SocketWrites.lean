import BoostSamples.OpenNat.ServerEffect

/-!
# The writes in progress on a socket

Three paths of the server start writes: `DoSend` for the messages of the queue,
`SendP2P` and `SendProxy` for the frames they relay. The queue starts one write
at a time, and a connection in proxy mode relays one frame at a time, so neither
path overlaps with itself; but nothing keeps the paths apart, and any number of
connections may relay to one destination with `SendP2P`.

The destination of a relay of `SendProxy` is kept beside the state of the
server, which only counts the relays of each sender.
-/

namespace OpenNat

open Registry Transition

namespace Server

/-- The queue has started at most one write, and none when it is empty. -/
structure OneSend (s : Server) : Prop where
  single : s.posted.length + s.inFlight.length ≤ 1
  idle : s.serverQueue = [] → s.posted.length + s.inFlight.length = 0

/-- Nothing but the queue has been touched of what is being written. -/
structure Quiet (s t : Server) : Prop where
  inFlight : t.inFlight = s.inFlight
  p2pWrites : t.p2pWrites = s.p2pWrites
  oneSend : s.OneSend → t.OneSend

namespace Quiet

variable {s t u : Server}

theorem refl (s : Server) : s.Quiet s := ⟨rfl, rfl, fun h => h⟩

theorem trans (h : s.Quiet t) (h' : t.Quiet u) : s.Quiet u where
  inFlight := h'.inFlight.trans h.inFlight
  p2pWrites := h'.p2pWrites.trans h.p2pWrites
  oneSend hs := h'.oneSend (h.oneSend hs)

theorem of_eq (hqueue : t.serverQueue = s.serverQueue) (hposted : t.posted = s.posted)
    (hflight : t.inFlight = s.inFlight) (hp2p : t.p2pWrites = s.p2pWrites) : s.Quiet t where
  inFlight := hflight
  p2pWrites := hp2p
  oneSend hs := by
    refine ⟨?_, fun h => ?_⟩
    · rw [hposted, hflight]
      exact hs.single
    · rw [hposted, hflight]
      exact hs.idle (hqueue ▸ h)

theorem modify (s : Server) (c : ConnId) (f : Conn → Conn) : s.Quiet (s.modify c f) :=
  of_eq rfl rfl rfl rfl

theorem modifySession (s : Server) (c : ConnId) (f : Session → Session) :
    s.Quiet (s.modifySession c f) :=
  modify s c _

theorem send (s : Server) (id : Uuid) (type : SessionType) (cmd : Command) :
    s.Quiet (s.send id type cmd) := by
  unfold Server.send
  split
  · next c _ =>
      dsimp only
      split
      · next hlength =>
          refine ⟨rfl, rfl, fun hs => ⟨hs.single, fun h => by simp at h⟩⟩
      · next hlength =>
          have hempty : s.serverQueue = [] := by
            rw [← List.length_eq_zero_iff]
            rw [List.length_append, List.length_singleton] at hlength
            omega
          refine ⟨rfl, rfl, fun hs => ⟨?_, fun h => by simp at h⟩⟩
          have hzero := hs.idle hempty
          show (s.posted ++ [_]).length + s.inFlight.length ≤ 1
          rw [List.length_append, List.length_singleton]
          omega
  · exact refl s

theorem deaf : Deaf Quiet where
  refl := refl
  trans := trans
  session := modifySession
  send := send
  paired _ _ := of_eq rfl rfl rfl rfl
  removed _ _ := of_eq rfl rfl rfl rfl
  told _ _ := of_eq rfl rfl rfl rfl
  subscribed _ _ := of_eq rfl rfl rfl rfl
  added _ _ := of_eq rfl rfl rfl rfl

theorem receiveCatch (s : Server) (c : ConnId) : s.Quiet (s.receiveCatch c) := by
  unfold Server.receiveCatch
  have hnotify : s.Quiet ((s.removeStun (s.conns c).session.id).notify
      (s.conns c).session.id false) :=
    (deaf.removeStun s _).trans (deaf.notify _ _ _)
  exact hnotify.trans (modify _ c _)

end Quiet

/-- The connection that the next frame of a connection is relayed to by
`SendP2P`. -/
def p2pDest (s : Server) (c : ConnId) : Option ConnId :=
  (s.conns c).inbox.head?.bind s.p2pDestOf

/-- The writes of the queue and of `SendP2P` before and after a step. -/
inductive WriteStep (s t : Server) : Event → Prop
  | quiet {e : Event} : (∀ i, e ≠ .doSend i) → s.Quiet t → WriteStep s t e
  | send {before after : List (ConnId × Frame)} {w : ConnId × Frame} :
      s.posted = before ++ w :: after → t.inFlight = s.inFlight ++ [w] →
      t.p2pWrites = s.p2pWrites → (s.OneSend → t.OneSend) →
      WriteStep s t (.doSend before.length)
  | sent {before after : List (ConnId × Frame)} {w : ConnId × Frame} {i : Nat} {ok : Bool} :
      s.inFlight = before ++ w :: after → t.inFlight = before ++ after →
      t.p2pWrites = s.p2pWrites → (s.OneSend → t.OneSend) → WriteStep s t (.sendDone i ok)
  | p2p {c dest : ConnId} : s.p2pDest c = some dest → t.inFlight = s.inFlight →
      t.p2pWrites = s.p2pWrites ++ [(dest, c)] → (s.OneSend → t.OneSend) →
      WriteStep s t (.receive c)
  | p2pDone {before after : List (ConnId × ConnId)} {w : ConnId × ConnId} {i : Nat} {ok : Bool} :
      s.p2pWrites = before ++ w :: after → t.inFlight = s.inFlight →
      t.p2pWrites = before ++ after → (s.OneSend → t.OneSend) → WriteStep s t (.p2pDone i ok)

/-- Each step keeps the writes of the queue apart. -/
theorem WriteStep.oneSend {s t : Server} {e : Event} (h : s.WriteStep t e) (hs : s.OneSend) :
    t.OneSend := by
  cases h with
  | quiet _ hquiet => exact hquiet.oneSend hs
  | send _ _ _ hkeep => exact hkeep hs
  | sent _ _ _ hkeep => exact hkeep hs
  | p2p _ _ _ hkeep => exact hkeep hs
  | p2pDone _ _ _ hkeep => exact hkeep hs

section Steps

variable {s t : Server}

/-- The completion handler leaves the writes alone and posts one message at
most, if any is left. -/
theorem drain_writes (s : Server) : s.drain.inFlight = s.inFlight ∧
    s.drain.p2pWrites = s.p2pWrites ∧
    (s.posted = [] → s.inFlight = [] → s.drain.OneSend) := by
  unfold drain
  split
  · next hempty =>
      refine ⟨rfl, rfl, fun hposted hflight => ⟨?_, fun _ => ?_⟩⟩ <;> simp [hposted, hflight]
  · split
    · next hqueue _ =>
        refine ⟨rfl, rfl, fun hposted hflight => ⟨?_, fun _ => ?_⟩⟩ <;> simp [hposted, hflight]
    · next queue next hloop =>
        refine ⟨rfl, rfl, fun hposted hflight => ⟨?_, fun hqueue => ?_⟩⟩
        · cases next <;> cases queue <;> simp [hposted, hflight]
        · have hqueue' : queue = [] := hqueue
          subst hqueue'
          cases next <;> simp [hposted, hflight]

theorem writeStep_of_effect {e : Event} (h : s.Effect e t) : s.WriteStep t e := by
  cases h with
  | accept _ => exact .quiet (fun _ => nofun) (Quiet.modify s _ _)
  | arrive _ _ => exact .quiet (fun _ => nofun) (Quiet.modify s _ _)
  | @received c frame rest t hreceives hinbox hreceived =>
      have htake : s.Quiet ((s.takeReceive c).takeFrame c) :=
        (Quiet.modify s c _).trans (Quiet.modify _ c _)
      cases hreceived with
      | @p2p cmd p2p clientId hcommand hprotocol hp2p hto =>
          have hdest : s.p2pDest c = s.stunMgr.find clientId := by
            rw [p2pDest, hinbox]
            exact p2pDestOf_of_p2p hcommand hprotocol hp2p hto
          have hfind : ((s.takeReceive c).takeFrame c).stunMgr.find clientId =
              s.stunMgr.find clientId := rfl
          unfold sendP2P
          rw [hfind]
          cases hto' : s.stunMgr.find clientId with
          | none =>
              exact .quiet (fun _ => nofun)
                ((htake.trans (Quiet.send _ _ _ _)).trans (Quiet.modify _ c _))
          | some dest =>
              exact .p2p (hdest.trans hto') rfl rfl fun hs => ⟨hs.single, hs.idle⟩
      | more _ hprocessed =>
          exact .quiet (fun _ => nofun)
            ((htake.trans (Quiet.deaf.processed hprocessed)).trans (Quiet.modify _ c _))
      | proxied _ hprocessed =>
          exact .quiet (fun _ => nofun)
            ((htake.trans (Quiet.deaf.processed hprocessed)).trans (Quiet.modify _ c _))
  | @rejected c frame rest _ _ =>
      have htake : s.Quiet ((s.takeReceive c).takeFrame c) :=
        (Quiet.modify s c _).trans (Quiet.modify _ c _)
      exact .quiet (fun _ => nofun) (htake.trans (Quiet.receiveCatch _ c))
  | @receiveFail c _ =>
      exact .quiet (fun _ => nofun) ((Quiet.modify s c _).trans (Quiet.receiveCatch _ c))
  | relayed _ _ _ _ _ _ => exact .quiet (fun _ => nofun) (Quiet.of_eq rfl rfl rfl rfl)
  | crashed _ _ _ _ _ => exact .quiet (fun _ => nofun) (Quiet.of_eq rfl rfl rfl rfl)
  | @unpaired c frame rest _ _ =>
      have htake : s.Quiet ((s.takeReceiveProxy c).takeFrame c) :=
        (Quiet.modify s c _).trans (Quiet.modify _ c _)
      exact .quiet (fun _ => nofun) (htake.trans (Quiet.deaf.removeProxy _ _))
  | @receiveProxyFail c _ =>
      exact .quiet (fun _ => nofun) ((Quiet.modify s c _).trans (Quiet.deaf.removeProxy _ _))
  | @doSend before after w hposted =>
      refine .send hposted rfl rfl fun hs => ?_
      have hsingle := hs.single
      have hidle := hs.idle
      simp only [hposted, List.length_append, List.length_cons] at hsingle hidle
      refine ⟨?_, fun hqueue => ?_⟩
      · show (before ++ after).length + (s.inFlight ++ [w]).length ≤ 1
        simp only [List.length_append, List.length_singleton]
        omega
      · have hzero := hidle hqueue
        omega
  | @sendDone before after w ok hflight =>
      obtain ⟨hinFlight, hp2p, hdrain⟩ := drain_writes { s with
        inFlight := before ++ after
        serverQueue := s.serverQueue.tail }
      refine .sent hflight hinFlight hp2p fun hs => ?_
      have hsingle := hs.single
      simp only [hflight, List.length_append, List.length_cons] at hsingle
      have hposted : s.posted.length = 0 := by omega
      have hrest : (before ++ after).length = 0 := by
        rw [List.length_append]
        omega
      exact hdrain (List.length_eq_zero_iff.1 hposted) (List.length_eq_zero_iff.1 hrest)
  | @relayDone c ok _ =>
      refine .quiet (fun _ => nofun) ?_
      split
      · exact (Quiet.modify s c _).trans (Quiet.modify _ c _)
      · exact Quiet.modify s c _
  | p2pDone hwrites => exact .p2pDone hwrites rfl rfl fun hs => ⟨hs.single, hs.idle⟩
  | @p2pFail before after dest sender hwrites =>
      have hsend := Quiet.send { s with p2pWrites := before ++ after }
        (s.conns sender).session.id .stun
        (unreachable (s.conns dest).session.id (s.conns sender).session.id)
      exact .p2pDone hwrites hsend.inFlight hsend.p2pWrites fun hs =>
        hsend.oneSend ⟨hs.single, hs.idle⟩
  | tick => exact .quiet (fun _ => nofun) (Quiet.of_eq rfl rfl rfl rfl)
  | @expire c i => exact .quiet (fun _ => nofun) (Quiet.modifySession s c _)
  | @stunTimeout c i w _ _ =>
      exact .quiet (fun _ => nofun)
        ((Quiet.modifySession s c _).trans (Quiet.deaf.handleStunTimeout _ _))

end Steps

end Server

namespace Membership

/-- The relays in progress after an action, each with its destination and its
sender. -/
inductive Carried (m : Membership) (writes : List (ConnId × ConnId)) :
    Action → List (ConnId × ConnId) → Prop
  | start {a : Action} {c sender dest : ConnId} : a.starts = some (c, sender) →
      m.relayEnds c = some (sender, dest) → m.Carried writes a (writes ++ [(dest, sender)])
  | done {a : Action} {before after : List (ConnId × ConnId)} {w : ConnId × ConnId} :
      a.ends = some w.2 → writes = before ++ w :: after →
      m.Carried writes a (before ++ after)
  | other {a : Action} : a.starts = none → a.ends = none → m.Carried writes a writes

/-- Each sender has one operation outstanding, so one relay at most; and the
destination of a relay has left `Receive` and is, as long as it is in a pair,
opposite its sender. -/
structure Relaying (m : Membership) (writes : List (ConnId × ConnId)) : Prop where
  wellPlaced : m.WellPlaced
  single : ∀ c, (m.member c).proxied ≤ 1
  counted : ∀ c, (writes.map Prod.snd).count c = (m.member c).relays
  away : ∀ w ∈ writes, (m.member w.1).receives = 0 ∧ (m.member w.1).accepted = true
  opposite : ∀ w ∈ writes, ∀ id p d, m.proxyMgr.find id = some p →
    p.get d = some w.1 → p.get d.other = some w.2

variable {m m' : Membership} {writes writes' : List (ConnId × ConnId)}

theorem Carried.eq_of_none {a : Action} (h : m.Carried writes a writes') (hstarts : a.starts = none)
    (hends : a.ends = none) : writes' = writes := by
  cases h with
  | start hstarts' => exact nomatch hstarts.symm.trans hstarts'
  | done hends' => exact nomatch hends.symm.trans hends'
  | other => rfl

namespace Relaying

theorem init : Relaying {} [] where
  wellPlaced := .init
  single _ := Nat.zero_le 1
  counted _ := rfl
  away _ h := (nomatch h)
  opposite _ h := (nomatch h)

theorem ends_placed {c dest : ConnId} (h : m.relayEnds c = some (c, dest)) :
    ∃ p d, m.proxyMgr.find (m.member c).id = some p ∧ p.get d = some c ∧
      p.get d.other = some dest := by
  obtain ⟨p, hp, h⟩ := Option.bind_eq_some_iff.1 h
  obtain ⟨d, -, h⟩ := Option.bind_eq_some_iff.1 h
  obtain ⟨f, hf, h⟩ := Option.bind_eq_some_iff.1 h
  obtain ⟨t, ht, heq⟩ := Option.map_eq_some_iff.1 h
  obtain ⟨rfl, rfl⟩ := Prod.mk.inj heq
  exact ⟨p, d, hp, hf, ht⟩

/-- A connection that handles a frame has no relay in progress, so its
destination is not being written to. -/
theorem dest_idle (h : m.Relaying writes) {c dest : ConnId}
    (hreceives : 0 < (m.member c).proxyReceives) (hends : m.relayEnds c = some (c, dest)) :
    dest ∉ writes.map Prod.fst := by
  intro hdest
  obtain ⟨w, hw, rfl⟩ := List.mem_map.1 hdest
  obtain ⟨p, d, hp, hc, hother⟩ := ends_placed hends
  have hsender := h.opposite w hw _ p d.other hp hother
  rw [d.other_other, hc] at hsender
  have hcount : 0 < (writes.map Prod.snd).count c :=
    List.count_pos_iff.2 (List.mem_map.2 ⟨w, hw, (Option.some.inj hsender).symm⟩)
  rw [h.counted c] at hcount
  have hsingle := h.single c
  unfold Member.proxied at hsingle
  omega

/-- A step that neither starts nor ends a relay keeps what is known of the
relays in progress. -/
theorem request {r : Request} (h : m.Relaying writes) (hr : 0 < (m.member r.conn).receives)
    (hwell : m'.WellPlaced) (hconnected : m.Connected r m') : m'.Relaying writes := by
  have hmode := h.wellPlaced.mode r.conn hr
  have hne : ∀ w ∈ writes, w.1 ≠ r.conn := by
    intro w hw hconn
    have haway := (h.away w hw).1
    rw [hconn] at haway
    omega
  cases hconnected with
  | stun hfree hself hother hfind hproxy =>
      next c id =>
        refine ⟨hwell, fun c' => ?_, fun c' => ?_, fun w hw => ?_, fun w hw => ?_⟩
        · by_cases hc : c' = c
          · subst hc
            rw [hself]
            exact h.single c'
          · rw [hother c' hc]
            exact h.single c'
        · rw [h.counted c']
          by_cases hc : c' = c
          · subst hc
            rw [hself]
          · rw [hother c' hc]
        · rw [hother w.1 (hne w hw)]
          exact h.away w hw
        · rw [hproxy]
          exact h.opposite w hw
  | proxy hadd hself hother hstun =>
      next c d id =>
        obtain ⟨⟨q, hq, hqc, hqother⟩, hrest⟩ := PairMap.find_of_add hadd
        refine ⟨hwell, fun c' => ?_, fun c' => ?_, fun w hw => ?_, fun w hw id' p' e hp' he => ?_⟩
        · by_cases hc : c' = c
          · subst hc
            rw [hself]
            change (m.member c').proxyReceives + (m.member c').relays = 0 at hmode
            show (m.member c').proxyReceives + 1 + (m.member c').relays ≤ 1
            omega
          · rw [hother c' hc]
            exact h.single c'
        · rw [h.counted c']
          by_cases hc : c' = c
          · subst hc
            rw [hself]
          · rw [hother c' hc]
        · rw [hother w.1 (hne w hw)]
          exact h.away w hw
        · by_cases hid : id' = id
          · subst hid
            obtain rfl := Option.some.inj (hq.symm.trans hp')
            rcases d.eq_or_eq_other e with rfl | rfl
            · exact absurd (Option.some.inj (he.symm.trans hqc)) (hne w hw)
            -- the new session would have to stand where the sender does
            · rw [he, eq_comm, Option.bind_eq_some_iff] at hqother
              obtain ⟨p, hp, hpd⟩ := hqother
              have hsender := h.opposite w hw _ p d.other hp hpd
              rw [d.other_other] at hsender
              exact nomatch (PairMap.vacant_of_add hadd hp).symm.trans hsender
          · rw [hrest id' hid] at hp'
            exact h.opposite w hw id' p' e hp' he
  | refused hrefused hself hother hstun hproxy =>
      obtain ⟨type, hself⟩ := hself
      refine ⟨hwell, fun c' => ?_, fun c' => ?_, fun w hw => ?_, fun w hw => ?_⟩
      · by_cases hc : c' = r.conn
        · subst hc
          rw [hself]
          exact h.single r.conn
        · rw [hother c' hc]
          exact h.single c'
      · rw [h.counted c']
        by_cases hc : c' = r.conn
        · subst hc
          rw [hself]
        · rw [hother c' hc]
      · rw [hother w.1 (hne w hw)]
        exact h.away w hw
      · rw [hproxy]
        exact h.opposite w hw

theorem away_perform {a : Action} (henabled : m.Enabled a) (ha : a.request = none) {c : ConnId}
    (hc : (m.member c).receives = 0 ∧ (m.member c).accepted = true) :
    ((m.perform a).member c).receives = 0 ∧ ((m.perform a).member c).accepted = true := by
  have haccept : a ≠ .accept c := by
    rintro rfl
    exact nomatch hc.2.symm.trans henabled
  refine ⟨?_, ?_⟩
  · by_contra hne
    rcases perform_receives henabled ha (Nat.pos_iff_ne_zero.2 hne) with hpos | heq
    · omega
    · exact haccept heq
  · rw [perform_proj Member.accepted ha c (fun heq => absurd heq haccept)
      (fun _ _ _ => ⟨rfl, rfl⟩) (fun _ _ _ => rfl) fun _ _ _ => rfl]
    exact hc.2

theorem counted_perform {a : Action} (h : m.Relaying writes) (ha : a.request = none)
    (hcarried : m.Carried writes a writes') (c : ConnId) :
    (writes'.map Prod.snd).count c = ((m.perform a).member c).relays := by
  rw [perform_relays ha, ← h.counted c]
  cases hcarried with
  | @start c' sender dest hstarts hends =>
      have hnone : a.ends = none := by
        cases a with
        | relayDone => cases hstarts
        | _ => rfl
      simp [hstarts, hnone, List.count_singleton, beq_iff_eq]
  | @done before after w hends hwrites =>
      have hnone : a.starts = none := by
        cases a with
        | relay => cases hends
        | _ => rfl
      subst hwrites
      by_cases hw : w.2 = c
      · simp [hends, hnone, hw]
      · simp [hends, hnone, hw]
  | other hstarts hends => simp [hstarts, hends]

theorem perform {a : Action} (h : m.Relaying writes) (henabled : m.Enabled a)
    (ha : a.request = none) (hself : ∀ c sender, a.starts = some (c, sender) → sender = c)
    (hcarried : m.Carried writes a writes') : (m.perform a).Relaying writes' := by
  have hwell := h.wellPlaced.step (step_eq_some_iff.2 ⟨henabled, rfl⟩)
  have hsingle : ∀ c, ((m.perform a).member c).proxied ≤ 1 := fun c =>
    (perform_proxied_le henabled ha hself c).trans (h.single c)
  have hcounted := h.counted_perform ha hcarried
  have hold : ∀ w ∈ writes, (((m.perform a).member w.1).receives = 0 ∧
      ((m.perform a).member w.1).accepted = true) ∧
      ∀ id p d, (m.perform a).proxyMgr.find id = some p → p.get d = some w.1 →
        p.get d.other = some w.2 := fun w hw =>
    ⟨away_perform henabled ha (h.away w hw),
      fun id p d hp hd => h.opposite w hw id p d (perform_proxy ha hp) hd⟩
  have hall : ∀ w ∈ writes', (((m.perform a).member w.1).receives = 0 ∧
      ((m.perform a).member w.1).accepted = true) ∧
      ∀ id p d, (m.perform a).proxyMgr.find id = some p → p.get d = some w.1 →
        p.get d.other = some w.2 := by
    intro w hw
    cases hcarried with
    | @start c sender dest hstarts hends =>
        rcases List.mem_append.1 hw with hw | hw
        · exact hold w hw
        · obtain rfl := List.mem_singleton.1 hw
          obtain rfl := hself c sender hstarts
          obtain ⟨p, d, hp, hc, hdest⟩ := ends_placed hends
          have hplaced := h.wellPlaced.placed _ p d.other dest hp hdest
          refine ⟨away_perform henabled ha hplaced.2.2, fun id p' e hp' he => ?_⟩
          obtain ⟨hid, htype, -, -⟩ := h.wellPlaced.placed id p' e dest (perform_proxy ha hp') he
          have hside : e = d.other := by
            have htypes := hplaced.2.1.symm.trans htype
            exact Option.some.inj (by rw [← side_proxyType e, ← htypes, side_proxyType])
          rw [← hid, hplaced.1] at hp'
          obtain rfl := Option.some.inj (hp.symm.trans (perform_proxy ha hp'))
          rw [hside, d.other_other]
          exact hc
    | @done before after w' hends hwrites =>
        refine hold w ?_
        rw [hwrites]
        rcases List.mem_append.1 hw with hw | hw
        · exact List.mem_append_left _ hw
        · exact List.mem_append_right _ (List.mem_cons_of_mem _ hw)
    | other => exact hold w hw
  exact ⟨hwell, hsingle, hcounted, fun w hw => (hall w hw).1, fun w hw => (hall w hw).2⟩

/-- The facts are kept by each action whose relay, if it starts one, is handled
by its own sender. -/
theorem step {a : Action} (h : m.Relaying writes) (hstep : system.step m a = some m')
    (hself : ∀ c sender, a.starts = some (c, sender) → sender = c)
    (hcarried : m.Carried writes a writes') : m'.Relaying writes' := by
  have hwell := h.wellPlaced.step hstep
  obtain ⟨henabled, rfl⟩ := step_eq_some_iff.1 hstep
  cases ha : a.request with
  | none => exact h.perform henabled ha hself hcarried
  | some r =>
      obtain rfl := Action.eq_connect ha
      obtain rfl := hcarried.eq_of_none rfl rfl
      exact h.request henabled hwell (connected henabled)

end Relaying

end Membership

/-- The server with the relays of `SendProxy` in progress, each with its
destination and its sender. -/
structure SocketWrites where
  server : Server := {}
  relayWrites : List (ConnId × ConnId) := []

namespace SocketWrites

def step (s : SocketWrites) : Server.Event × Nat → Option SocketWrites
  | (.receiveProxy c, _) =>
      (s.server.step (.receiveProxy c)).map fun t =>
        ⟨t, s.relayWrites ++ ((s.server.membership.relayEnds c).map Prod.swap).toList⟩
  | (.relayDone c ok, i) =>
      match s.relayWrites[i]? with
      | some w =>
          if w.2 = c then
            (s.server.step (.relayDone c ok)).map fun t => ⟨t, s.relayWrites.eraseIdx i⟩
          else none
      | none => none
  | (e, _) => (s.server.step e).map fun t => ⟨t, s.relayWrites⟩

def system : System SocketWrites (Server.Event × Nat) where
  init s := s = {}
  step := step

def inProgress (s : SocketWrites) (c : ConnId) : Nat :=
  (s.server.inFlight.map Prod.fst).count c + (s.server.p2pWrites.map Prod.fst).count c +
    (s.relayWrites.map Prod.fst).count c

/-- At most one write is in progress on each socket. -/
def SingleWriter (s : SocketWrites) : Prop := ∀ c, s.inProgress c ≤ 1

/-- `SendP2P` starts a write only on an idle socket; `SendProxy` is started by
the session whose stream it relays, with no other kind of write in progress on
the opposite socket; `DoSend` starts a write only with no relay in progress. -/
def Unshared (s : SocketWrites) : Server.Event × Nat → Prop
  | (.receive c, _) => ∀ dest ∈ s.server.p2pDest c, s.inProgress dest = 0
  | (.receiveProxy c, _) => ∀ ends ∈ s.server.membership.relayEnds c, ends.1 = c ∧
      ends.2 ∉ s.server.inFlight.map Prod.fst ∧ ends.2 ∉ s.server.p2pWrites.map Prod.fst
  | (.doSend i, _) => ∀ w ∈ s.server.posted[i]?,
      w.1 ∉ s.server.p2pWrites.map Prod.fst ∧ w.1 ∉ s.relayWrites.map Prod.fst
  | _ => True

instance (s : SocketWrites) (e : Server.Event × Nat) : Decidable (s.Unshared e) := by
  obtain ⟨e, i⟩ := e
  cases e <;> unfold Unshared <;> infer_instance

section Steps

variable {s t : SocketWrites} {e : Server.Event} {i : Nat}

/-- A step is one of the server, and the relays in progress follow its action on
the membership. -/
theorem step_carried (h : s.step (e, i) = some t) : s.server.step e = some t.server ∧
    ∃ a, Membership.system.step s.server.membership a = some t.server.membership ∧
      a.starts = s.server.starts e ∧ a.ends = e.ends ∧
      s.server.membership.Carried s.relayWrites a t.relayWrites := by
  cases e with
  | receiveProxy c =>
      obtain ⟨u, hu, rfl⟩ := Option.map_eq_some_iff.1 h
      obtain ⟨a, ha, -, hstarts, hends⟩ := Server.step_refines hu
      refine ⟨hu, a, ha, hstarts, hends, ?_⟩
      have hrelays := hstarts
      rw [Server.starts] at hrelays
      cases hrelay : s.server.membership.relayEnds c with
      | none =>
          rw [hrelay] at hrelays
          have hother : s.server.membership.Carried s.relayWrites a s.relayWrites :=
            .other hrelays hends
          simpa [hrelay] using hother
      | some ends =>
          rw [hrelay] at hrelays
          exact .start hrelays hrelay
  | relayDone c ok =>
      simp only [step] at h
      split at h
      · next w hw =>
          obtain ⟨rfl, h⟩ := Option.ite_none_right_eq_some.1 h
          obtain ⟨u, hu, rfl⟩ := Option.map_eq_some_iff.1 h
          obtain ⟨a, ha, -, hstarts, hends⟩ := Server.step_refines hu
          obtain ⟨before, after, hlist, -, -, herase⟩ := exists_append_of_getElem? hw
          refine ⟨hu, a, ha, hstarts, hends, ?_⟩
          rw [herase]
          exact .done hends hlist
      · cases h
  | _ =>
      obtain ⟨u, hu, rfl⟩ := Option.map_eq_some_iff.1 h
      obtain ⟨a, ha, -, hstarts, hends⟩ := Server.step_refines hu
      exact ⟨hu, a, ha, hstarts, hends, .other hstarts hends⟩

theorem count_start {α : Type*} (writes : List (ConnId × α)) (w : ConnId × α) (c : ConnId) :
    ((writes ++ [w]).map Prod.fst).count c =
      (writes.map Prod.fst).count c + if w.1 = c then 1 else 0 := by
  simp [List.count_singleton, beq_iff_eq]

theorem count_done {α : Type*} (before after : List (ConnId × α)) (w : ConnId × α)
    (c : ConnId) : ((before ++ after).map Prod.fst).count c ≤
      ((before ++ w :: after).map Prod.fst).count c :=
  (((List.sublist_cons_self w after).append_left before).map Prod.fst).count_le c

theorem count_of_notMem {α : Type*} {writes : List (ConnId × α)} {c : ConnId}
    (h : c ∉ writes.map Prod.fst) : (writes.map Prod.fst).count c = 0 :=
  List.count_eq_zero.2 h

end Steps

/-- What a run keeps whose writes are started on sockets that are free for
them. -/
structure Ordered (s : SocketWrites) : Prop where
  oneSend : s.server.OneSend
  relaying : s.server.membership.Relaying s.relayWrites
  singleWriter : s.SingleWriter

namespace Ordered

variable {s t : SocketWrites} {e : Server.Event} {i : Nat}

theorem init : Ordered {} where
  oneSend := ⟨Nat.zero_le 1, fun _ => rfl⟩
  relaying := .init
  singleWriter _ := Nat.zero_le 1

theorem relay_idle (h : s.Ordered) {c sender dest : ConnId} {a : Membership.Action}
    {m : Membership} (hunshared : s.Unshared (e, i))
    (ha : Membership.system.step s.server.membership a = some m)
    (hstarts : a.starts = some (c, sender)) (hevent : a.starts = s.server.starts e)
    (hends : s.server.membership.relayEnds c = some (sender, dest)) :
    s.inProgress dest = 0 := by
  have hc : e = .receiveProxy c := by
    rw [hstarts] at hevent
    cases e with
    | receiveProxy c' =>
        obtain ⟨ends, -, heq⟩ := Option.map_eq_some_iff.1 hevent.symm
        rw [(Prod.mk.inj heq).1]
    | _ => cases hevent
  subst hc
  obtain ⟨hself, hflight, hp2p⟩ := hunshared (sender, dest) hends
  obtain rfl : sender = c := hself
  have hreceives : 0 < (s.server.membership.member sender).proxyReceives := by
    cases a with
    | relay c' sender' =>
        obtain ⟨rfl, -⟩ := Prod.mk.inj (Option.some.inj hstarts)
        exact (Membership.step_eq_some_iff.1 ha).1.1
    | _ => cases hstarts
  unfold inProgress
  rw [count_of_notMem hflight, count_of_notMem hp2p,
    count_of_notMem (h.relaying.dest_idle hreceives hends)]

theorem singleWriter_step (h : s.Ordered) (hunshared : s.Unshared (e, i))
    (hstep : s.step (e, i) = some t) : t.SingleWriter := by
  obtain ⟨hserver, a, ha, hstarts, hends, hcarried⟩ := step_carried hstep
  obtain ⟨-, -, heffect⟩ := Server.effect_of_step hserver
  have hwrite := Server.writeStep_of_effect heffect
  have hother : s.server.starts e = none → e.ends = none → t.relayWrites = s.relayWrites :=
    fun hs he => hcarried.eq_of_none (hstarts.trans hs) (hends.trans he)
  intro c
  have hone : s.inProgress c ≤ 1 := h.singleWriter c
  cases hwrite with
  | quiet _ hquiet =>
      generalize hlist : t.relayWrites = writes at hcarried
      unfold inProgress at hone ⊢
      rw [hquiet.inFlight, hquiet.p2pWrites, hlist]
      cases hcarried with
      | @start c' sender dest hstarts' hrelay =>
          have hidle := h.relay_idle hunshared ha hstarts' hstarts hrelay
          unfold inProgress at hidle
          rw [count_start]
          split
          · next hc =>
              obtain rfl : dest = c := hc
              omega
          · omega
      | @done before after w _ hwrites =>
          have hle := count_done before after w c
          rw [← hwrites] at hle
          omega
      | other => exact hone
  | @send before after w hposted hflight hp2p _ =>
      have hfree := hunshared w (by simp [hposted])
      have hqueue := h.oneSend.single
      simp only [hposted, List.length_append, List.length_cons] at hqueue
      have hempty : s.server.inFlight = [] := List.length_eq_zero_iff.1 (by omega)
      unfold inProgress at hone ⊢
      rw [hflight, hp2p, hother rfl rfl, count_start]
      split
      · next hc =>
          subst hc
          rw [hempty, count_of_notMem hfree.1, count_of_notMem hfree.2]
          exact Nat.le_refl 1
      · exact hone
  | @sent before after w _ _ hlist hflight hp2p _ =>
      have hle := count_done before after w c
      rw [← hlist] at hle
      unfold inProgress at hone ⊢
      rw [hflight, hp2p, hother rfl rfl]
      omega
  | @p2p c' dest hdest hflight hp2p _ =>
      have hidle := hunshared dest hdest
      unfold inProgress at hone hidle ⊢
      rw [hflight, hp2p, hother rfl rfl, count_start]
      split
      · next hc =>
          obtain rfl : dest = c := hc
          omega
      · omega
  | @p2pDone before after w _ _ hlist hflight hp2p _ =>
      have hle := count_done before after w c
      rw [← hlist] at hle
      unfold inProgress at hone ⊢
      rw [hflight, hp2p, hother rfl rfl]
      omega

theorem step (h : s.Ordered) (hunshared : s.Unshared (e, i))
    (hstep : s.step (e, i) = some t) : t.Ordered := by
  obtain ⟨hserver, a, ha, hstarts, -, hcarried⟩ := step_carried hstep
  obtain ⟨-, -, heffect⟩ := Server.effect_of_step hserver
  refine ⟨(Server.writeStep_of_effect heffect).oneSend h.oneSend, ?_,
    h.singleWriter_step hunshared hstep⟩
  refine h.relaying.step ha (fun c sender hrelay => ?_) hcarried
  rw [hstarts] at hrelay
  cases e with
  | receiveProxy c' =>
      obtain ⟨ends, hends, heq⟩ := Option.map_eq_some_iff.1 hrelay
      obtain ⟨rfl, rfl⟩ := Prod.mk.inj heq
      exact (hunshared ends hends).1
  | _ => cases hrelay

end Ordered

/-- In every run that starts its writes on sockets free for them, at most one
write is in progress on each socket. -/
theorem singleWriter_of_reachable {s : SocketWrites} (h : system.ReachableWhile Unshared s) :
    s.SingleWriter := by
  have hordered : s.Ordered := h.invariant (fun _ hs => hs ▸ Ordered.init)
    fun _ _ _ hs hunshared hstep => hs.step hunshared hstep
  exact hordered.singleWriter

def p2pTo (id : Uuid) : Frame :=
  .ofCommand { protocol := .p2p, p2p := some { protocol := .data, toId := some id } }

/-- A client registers and its reply is written. -/
def greetedRun (c : ConnId) (kind : Connect.Kind) (id : Uuid) : List Server.Event :=
  Server.connectRun c kind id ++ [.doSend 0, .sendDone 0 true]

/-- Two STUN clients and the ends of a proxy session; one frame is relayed on
each path and a heartbeat answered. -/
def sharedRun : List (Server.Event × Nat) :=
  let events : List Server.Event :=
    greetedRun 0 .stun 1 ++ greetedRun 1 .proxyUp 9 ++ greetedRun 2 .proxyDown 9 ++
      greetedRun 3 .stun 2 ++ [.arrive 3 (p2pTo 1), .receive 3, .arrive 1 (p2pTo 1),
        .receiveProxy 1, .arrive 3 (.ofCommand Server.ping), .receive 3, .doSend 0]
  events.map (·, 0)

/-- Three writes are then in progress, each on a socket of its own. -/
theorem sharedRun_singleWriter : ∃ s, system.execWhile Unshared {} sharedRun = some s ∧
    s.SingleWriter ∧ s.inProgress 0 = 1 ∧ s.inProgress 2 = 1 ∧ s.inProgress 3 = 1 := by
  have hrun : (system.execWhile Unshared {} sharedRun).map
      (fun s => (s.inProgress 0, s.inProgress 2, s.inProgress 3)) = some (1, 1, 1) := by
    decide +kernel
  obtain ⟨s, hs, hwrites⟩ := Option.map_eq_some_iff.1 hrun
  simp only [Prod.mk.injEq] at hwrites
  exact ⟨s, hs, singleWriter_of_reachable (System.ReachableWhile.execWhile (.init rfl) hs),
    hwrites⟩

/-- A client relays two frames to another one before the first is written. -/
def overlapRun : List (Server.Event × Nat) :=
  let events : List Server.Event :=
    greetedRun 0 .stun 1 ++ greetedRun 1 .stun 2 ++
      [.arrive 1 (p2pTo 1), .receive 1, .arrive 1 (p2pTo 1), .receive 1]
  events.map (·, 0)

/-- Two writes are then in progress on the socket of the destination. -/
theorem overlapRun_not_singleWriter : ∃ s, system.Reachable s ∧ ¬ s.SingleWriter := by
  have hrun : (system.exec {} overlapRun).map (fun s => s.inProgress 0) = some 2 := by
    decide +kernel
  obtain ⟨s, hs, hwrites⟩ := Option.map_eq_some_iff.1 hrun
  refine ⟨s, System.Reachable.exec (.init rfl) hs, fun h => ?_⟩
  have hone := h 0
  omega

end SocketWrites

end OpenNat
