import BoostSamples.OpenNat.ServerMembership

/-!
# What a failing connection takes down

The failure handlers remove by the id of their connection, which need not be
registered any more: a timeout or the removal of a pair stops a session, and
its aborted read is handled later. A registration that another connection has
made under the same id meanwhile is then removed with it. The handlers keep to
their own registration as long as no id is taken while such a read is still
outstanding on a connection that has the id and is not registered, and nobody
registers the nil id, which every connection without a registration has.
-/

namespace OpenNat

open Registry Transition

namespace Membership

/-- No other connection with the requested id has a read or relay outstanding,
other than those that are registered under it. -/
def Clear (m : Membership) : Request → Prop
  | .stun c id => id ≠ nilUuid ∧ ∀ c', c' ≠ c → 0 < (m.member c').receives →
      (m.member c').id = id → m.stunMgr.find id = some c'
  | .proxy c _ id => ∀ c', c' ≠ c → 0 < (m.member c').proxied →
      (m.member c').id = id → ∃ p, m.proxyMgr.find id = some p ∧ p.Contains c'

/-- A connection with a read outstanding finds nobody but itself registered
under its id. -/
structure Isolated (m : Membership) : Prop where
  nil : m.stunMgr.find nilUuid = none
  stun : ∀ c c', 0 < (m.member c).receives →
    m.stunMgr.find (m.member c).id = some c' → c' = c
  proxy : ∀ c p, 0 < (m.member c).proxied →
    m.proxyMgr.find (m.member c).id = some p → p.Contains c

variable {m m' : Membership}

theorem Connected.isolated {r : Request} (h : m.Connected r m') (hm : m.Isolated)
    (hplaced : m.WellPlaced) (hr : 0 < (m.member r.conn).receives) (hclear : m.Clear r) :
    m'.Isolated := by
  have hmode := hplaced.mode r.conn hr
  have hsingle := hplaced.single r.conn
  cases h with
  | stun hfree hself hother hfind hproxy =>
      next c id =>
        obtain ⟨hnil, hclear⟩ := hclear
        refine ⟨?_, fun c₁ c₂ hc₁ hc₂ => ?_, fun c₁ p hc₁ hp => ?_⟩
        · rw [hfind, if_neg (Ne.symm hnil)]
          exact hm.nil
        · by_cases hc : c₁ = c
          · subst hc
            rw [hself, hfind, if_pos rfl] at hc₂
            exact (Option.some.inj hc₂).symm
          · rw [hother c₁ hc] at hc₁ hc₂
            rw [hfind] at hc₂
            split at hc₂
            · next hid => exact nomatch hfree.symm.trans (hclear c₁ hc hc₁ hid)
            · exact hm.stun c₁ c₂ hc₁ hc₂
        · by_cases hc : c₁ = c
          · subst hc
            rw [hself] at hc₁
            exact absurd hmode (Nat.pos_iff_ne_zero.1 hc₁)
          · rw [hother c₁ hc] at hc₁ hp
            rw [hproxy] at hp
            exact hm.proxy c₁ p hc₁ hp
  | proxy hadd hself hother hstun =>
      next c d id =>
        obtain ⟨⟨q, hq, hqc, hqother⟩, hrest⟩ := PairMap.find_of_add hadd
        refine ⟨by rw [hstun]; exact hm.nil, fun c₁ c₂ hc₁ hc₂ => ?_, fun c₁ p hc₁ hp => ?_⟩
        · by_cases hc : c₁ = c
          · subst hc
            rw [hself] at hc₁
            exact absurd hc₁ (Nat.not_lt.2 (Nat.sub_le_of_le_add hsingle))
          · rw [hother c₁ hc] at hc₁ hc₂
            rw [hstun] at hc₂
            exact hm.stun c₁ c₂ hc₁ hc₂
        · by_cases hc : c₁ = c
          · subst hc
            rw [hself] at hp
            obtain rfl := Option.some.inj (hq.symm.trans hp)
            exact ⟨d, hqc⟩
          · rw [hother c₁ hc] at hc₁ hp
            by_cases hid : (m.member c₁).id = id
            · obtain ⟨p₀, hp₀, hcontains⟩ := hclear c₁ hc hc₁ hid
              rw [hid] at hp
              obtain rfl := Option.some.inj (hq.symm.trans hp)
              exact PairMap.contains_of_add hadd hp₀ hq hcontains
            · rw [hrest _ hid] at hp
              exact hm.proxy c₁ p hc₁ hp
  | refused hrefused hself hother hstun hproxy =>
      obtain ⟨type, hself⟩ := hself
      refine ⟨by rw [hstun]; exact hm.nil, fun c₁ c₂ hc₁ hc₂ => ?_, fun c₁ p hc₁ hp => ?_⟩
      · by_cases hc : c₁ = r.conn
        · subst hc
          rw [hself, hstun] at hc₂
          exact nomatch hm.nil.symm.trans hc₂
        · rw [hother c₁ hc] at hc₁ hc₂
          rw [hstun] at hc₂
          exact hm.stun c₁ c₂ hc₁ hc₂
      · by_cases hc : c₁ = r.conn
        · subst hc
          rw [hself] at hc₁
          exact absurd hmode (Nat.pos_iff_ne_zero.1 hc₁)
        · rw [hother c₁ hc] at hc₁ hp
          rw [hproxy] at hp
          exact hm.proxy c₁ p hc₁ hp

theorem Isolated.perform (hm : m.Isolated) (hplaced : m.WellPlaced) {a : Action}
    (henabled : m.Enabled a) (ha : a.request = none) : (m.perform a).Isolated where
  nil := by
    by_contra hnot
    obtain ⟨c, hc⟩ := Option.ne_none_iff_exists'.1 hnot
    exact nomatch hm.nil.symm.trans (perform_stun ha hc)
  stun c c' hc hc' := by
    rw [perform_id ha] at hc'
    have hold := perform_stun ha hc'
    rcases perform_receives henabled ha hc with hc | rfl
    · exact hm.stun c c' hc hold
    -- a connection just accepted has the nil id
    · rw [hplaced.fresh c henabled] at hold
      exact nomatch hm.nil.symm.trans hold
  proxy c p hc hp := by
    rw [perform_id ha] at hp
    have hold := perform_proxy ha hp
    rcases perform_proxied henabled ha hc with hc | ⟨c', rfl⟩
    · exact hm.proxy c p hc hold
    · obtain ⟨q, d, hq, -, hd, -⟩ := placed_of_relayEnds henabled.2
      rw [(hplaced.placed _ q d c hq hd).1] at hold
      obtain rfl := Option.some.inj (hq.symm.trans hold)
      exact ⟨d, hd⟩

theorem isolated_of_reachable (h : system.ReachableWhile (Admits Clear) m) :
    m.WellPlaced ∧ m.Isolated := by
  refine h.invariant (I := fun m => m.WellPlaced ∧ m.Isolated) (fun _ hm => ?_)
    fun m a m' hm hadmits hstep => ?_
  · obtain rfl : _ = ({} : Membership) := hm
    exact ⟨.init, rfl, by rintro c c' - ⟨⟩, by rintro c p - ⟨⟩⟩
  · obtain ⟨hplaced, hisolated⟩ := hm
    refine ⟨hplaced.step hstep, ?_⟩
    obtain ⟨henabled, rfl⟩ := step_eq_some_iff.1 hstep
    cases hrequest : a.request with
    | none => exact hisolated.perform hplaced henabled hrequest
    | some r =>
        obtain rfl := Action.eq_connect hrequest
        have hconnected : m.Connected r _ := connected henabled
        exact hconnected.isolated hisolated hplaced henabled (hadmits r rfl)

/-- Between two states nothing is removed or stopped but the registration of one
connection: its entry, or the pair that contains it. -/
structure OnlyOwn (m m' : Membership) (c : ConnId) : Prop where
  stun : ∀ id c', c' ≠ c → m.stunMgr.find id = some c' → m'.stunMgr.find id = some c'
  proxy : ∀ id p, ¬ p.Contains c → m.proxyMgr.find id = some p →
    m'.proxyMgr.find id = some p
  isOpen : ∀ c', c' ≠ c →
    (∀ id p, m.proxyMgr.find id = some p → p.Contains c → ¬ p.Contains c') →
    m'.isOpen c' = m.isOpen c'

theorem Isolated.receiveFail (hm : m.Isolated) {c : ConnId}
    (hc : 0 < (m.member c).receives) : m.OnlyOwn (m.perform (.receiveFail c)) c := by
  have hother : ∀ c', c' ≠ c → m.stunMgr.find (m.member c).id ≠ some c' :=
    fun c' hne hfind => hne (hm.stun c c' hc hfind)
  simp only [Membership.perform, receiveCatch, id_takeReceive]
  refine ⟨fun id c' hne hfind => ?_, fun id p _ hp => ?_, fun c' hne _ => ?_⟩
  · rw [stunMgr_modify, find_removeStun, if_neg]
    · exact hfind
    · rintro rfl
      exact hother c' hne hfind
  · rw [proxyMgr_modify, proxyMgr_removeStun]
    exact hp
  · rw [isOpen_modify]
    exact isOpen_removeStun _ (hother c' hne)

theorem Isolated.receiveProxyFail (hm : m.Isolated) {c : ConnId}
    (hc : 0 < (m.member c).proxied) : m.OnlyOwn (m.perform (.receiveProxyFail c)) c := by
  simp only [Membership.perform, receiveProxyCatch, id_takeReceiveProxy]
  refine ⟨fun id c' _ hfind => ?_, fun id p hnot hp => ?_, fun c' hne hother => ?_⟩
  · rw [stunMgr_removeProxy]
    exact hfind
  · rw [find_removeProxy, if_neg]
    · exact hp
    · rintro rfl
      exact hnot (hm.proxy c p hc hp)
  · exact isOpen_removeProxy _ fun p hp => hother _ p hp (hm.proxy c p hc hp)

end Membership

namespace Server

variable {s t : Server}

/-- The event runs the failure handler of `Receive` of a connection. -/
inductive ReceiveFails (s : Server) (c : ConnId) : Event → Prop
  | read : ReceiveFails s c (.receiveFail c)
  | thrown {frame : Frame} {s' : Server} : (s.conns c).inbox.head? = some frame →
      ((s.takeReceive c).takeFrame c).handleReceive c frame = .error s' →
      ReceiveFails s c (.receive c)

/-- The event runs the failure handler of `ReceiveProxy` of a connection. -/
inductive ReceiveProxyFails (s : Server) (c : ConnId) : Event → Prop
  | read : ReceiveProxyFails s c (.receiveProxyFail c)
  | thrown {frame : Frame} {s' : Server} : (s.conns c).inbox.head? = some frame →
      ((s.takeReceiveProxy c).takeFrame c).handleReceiveProxy c frame = .error s' →
      ReceiveProxyFails s c (.receiveProxy c)

theorem ReceiveFails.refines {c : ConnId} {e : Event} (he : s.ReceiveFails c e)
    (h : s.step e = some t) :
    0 < (s.conns c).receives ∧ t.membership = s.membership.perform (.receiveFail c) := by
  obtain ⟨-, h⟩ := Option.ite_none_left_eq_some.1 h
  cases he with
  | read =>
      obtain ⟨hreceives, h⟩ := Option.ite_none_left_eq_some.1 h
      obtain rfl := Option.some.inj h
      refine ⟨Nat.pos_iff_ne_zero.2 hreceives, ?_⟩
      rw [membership_receiveCatch, membership_takeReceive]
      rfl
  | thrown hframe herror =>
      obtain ⟨hreceives, frame', hframe', hok | ⟨s', herror', rfl⟩⟩ := handle_receive h
      · obtain rfl := Option.some.inj (hframe.symm.trans hframe')
        exact nomatch herror.symm.trans hok
      · refine ⟨hreceives, ?_⟩
        rw [membership_receiveCatch, handleReceive_error herror', membership_takeFrame,
          membership_takeReceive]
        rfl

theorem ReceiveProxyFails.refines {c : ConnId} {e : Event} (he : s.ReceiveProxyFails c e)
    (h : s.step e = some t) :
    0 < (s.conns c).proxyReceives ∧
      t.membership = s.membership.perform (.receiveProxyFail c) := by
  obtain ⟨-, h⟩ := Option.ite_none_left_eq_some.1 h
  cases he with
  | read =>
      obtain ⟨hreceives, h⟩ := Option.ite_none_left_eq_some.1 h
      obtain rfl := Option.some.inj h
      refine ⟨Nat.pos_iff_ne_zero.2 hreceives, ?_⟩
      rw [membership_receiveProxyCatch, membership_takeReceiveProxy]
      rfl
  | thrown hframe herror =>
      obtain ⟨hreceives, frame', hframe', hok | ⟨s', herror', rfl⟩⟩ := handle_receiveProxy h
      · obtain rfl := Option.some.inj (hframe.symm.trans hframe')
        exact nomatch herror.symm.trans hok
      · refine ⟨hreceives, ?_⟩
        rw [membership_receiveProxyCatch, handleReceiveProxy_error herror',
          membership_takeFrame, membership_takeReceiveProxy]
        rfl

/-- In every run whose requests find no stale read under their id, a failure
handler takes down only the registration of its own connection. -/
theorem failure_onlyOwn {c : ConnId} {e : Event}
    (h : system.ReachableWhile (Admits Membership.Clear) s)
    (he : s.ReceiveFails c e ∨ s.ReceiveProxyFails c e) (hstep : system.step s e = some t) :
    s.membership.OnlyOwn t.membership c := by
  obtain ⟨-, hisolated⟩ := Membership.isolated_of_reachable (membership_reachable h)
  rcases he with he | he
  · obtain ⟨hreceives, heq⟩ := he.refines hstep
    rw [heq]
    exact hisolated.receiveFail hreceives
  · obtain ⟨hreceives, heq⟩ := he.refines hstep
    rw [heq]
    exact hisolated.receiveProxyFail (Nat.add_pos_left hreceives _)

/-- Two clients register, and the connection of the first fails. -/
theorem failure_onlyOwn_first :
    ∃ s t, system.exec {} (connectRun 0 .stun 1 ++ connectRun 1 .stun 2) = some s ∧
      system.step s (.receiveFail 0) = some t ∧ t.stunMgr.find 2 = some 1 ∧
      s.membership.OnlyOwn t.membership 0 := by
  have haccept : system.ReachableWhile (Admits Membership.Clear) _ :=
    .step (e := .accept 0) (.init rfl) (fun _ hr => by cases hr) rfl
  have harrive := haccept.step (e := .arrive 0 (connectRequest .stun 1))
    (fun _ hr => by cases hr) rfl
  have hreceive := harrive.step (e := .receive 0) (fun _ hr => by
    cases hr
    refine ⟨by decide, fun c' hne hc' _ => absurd hc' ?_⟩
    simp [membership, modify, hne, Conn.member]) rfl
  have haccept' := hreceive.step (e := .accept 1) (fun _ hr => by cases hr) rfl
  have harrive' := haccept'.step (e := .arrive 1 (connectRequest .stun 2))
    (fun _ hr => by cases hr) rfl
  have hreceive' := harrive'.step (e := .receive 1) (fun _ hr => by
    cases hr
    refine ⟨by decide, fun c' hne hc' hid => ?_⟩
    by_cases hzero : c' = 0
    · subst hzero
      exact absurd hid (by decide)
    · -- the steps before have changed the connections 0 and 1 only
      have hother {g : ConnId → Conn} {c : ConnId} {x : Conn} (hc : c' ≠ c)
          (hg : (g c').receives = 0) : (Function.update g c x c').receives = 0 := by
        rw [Function.update_of_ne hc, hg]
      exact absurd hc' (Nat.not_lt.2 (Nat.le_of_eq (hother hne <| hother hne <| hother hzero <|
        hother hzero <| hother hzero <| hother hzero <| hother hzero <| hother hzero rfl)))) rfl
  exact ⟨_, _, rfl, rfl, rfl, failure_onlyOwn hreceive' (.inl .read) rfl⟩

/-- The session of connection 0 is removed after its pings stayed unanswered. -/
def timeoutRun : List Event :=
  (List.replicate 4 [.tick 5, .expire 0 0, .stunTimeout 0 0]).flatten

/-- A client is timed out and registers again on a new connection before the
read of the old one has failed. -/
def reconnectRun : List Event :=
  connectRun 0 .stun 1 ++ timeoutRun ++ connectRun 1 .stun 1

/-- The failure of the old connection removes the new registration. -/
theorem reconnectRun_not_onlyOwn :
    ∃ s t, system.Reachable s ∧ s.ReceiveFails 0 (.receiveFail 0) ∧
      system.step s (.receiveFail 0) = some t ∧
      ¬ s.membership.OnlyOwn t.membership 0 := by
  have hrun : system.Reachable _ := System.Reachable.exec (.init rfl)
    (show system.exec {} reconnectRun = some _ from rfl)
  exact ⟨_, _, hrun, .read, rfl, fun h => nomatch h.stun 1 1 (by decide) rfl⟩

end Server

end OpenNat
