import BoostSamples.OpenNat.ServerHeartbeat
import BoostSamples.Watchdog.Chain

/-!
# The heartbeat chains of the server

The handler of a wait looks up the id the wait is bound to and starts the next
wait on the session it finds, so each wait bound to a registered id is the head
of a chain. A STUN request starts its wait before the registry is asked: a
request for an id that is registered is refused, but its wait, cancelled by
`Stop`, finds the session of the other connection and goes on there. So does the
cancelled wait of a session that has been removed when its id is registered again.
-/

namespace OpenNat

open Registry Transition Watchdog

namespace Server

/-- At most one outstanding wait is bound to a registered id. -/
def OneChain (s : Server) : Prop :=
  ∀ id, s.stunMgr.find id ≠ none → Sole s.chain id

/-- The id for which the handler of a wait starts the next one. -/
def rearmed (s : Server) (sessionId : Uuid) : Option Uuid :=
  (s.stunMgr.find sessionId).bind fun c =>
    let x := (s.conns c).session
    if x.expiresAt ≤ s.now ∧ (x.timeout = Session.maxTimeout ∨ s.hung) then none else some x.id

/-- A STUN request is handled only when no wait for its id is outstanding. Where
the handler of a wait goes on for another id, that id is not registered or has no
outstanding wait. -/
def Careful (s : Server) : Event → Prop
  | .receive c =>
      ∀ id, s.request (.receive c) = some (.stun c id) → ¬ Outstanding s.chain id
  | .stunTimeout c i =>
      ∀ w, (s.conns c).session.waits[i]? = some w → ∀ id, s.rearmed w.sessionId = some id →
        id = w.sessionId ∨ s.stunMgr.find id = none ∨ ¬ Outstanding s.chain id
  | _ => True

variable {s t : Server}

theorem OneChain.calm (hs : s.OneChain) (h : s.Calm t) : t.OneChain := by
  intro id hid
  obtain ⟨c, hc⟩ := Option.ne_none_iff_exists'.1 hid
  rw [h.chain]
  exact hs id (by simp [h.find id c hc])

/-- One more wait for an id breaks the rule when the id is registered and has a
wait already. -/
theorem oneChain_start {c : ConnId} {id : Uuid} (hs : s.OneChain)
    (hchain : t.chain = start s.chain c id)
    (hfind : ∀ key, key ≠ id → t.stunMgr.find key = s.stunMgr.find key) :
    t.OneChain ↔ t.stunMgr.find id = none ∨ ¬ Outstanding s.chain id := by
  unfold OneChain
  rw [hchain]
  constructor
  · intro ht
    refine or_iff_not_imp_left.2 fun hid => ?_
    exact sole_start.1 (ht id hid)
  · intro hid key hkey
    by_cases hne : key = id
    · subst hne
      exact sole_start.2 (hid.resolve_left hkey)
    · rw [hfind key hne] at hkey
      exact (sole_start_of_ne hne).2 (hs key hkey)

theorem chain_takeWait (s : Server) (c : ConnId) (i : Nat) :
    (s.takeWait c i).chain = take s.chain c i := by
  rw [Server.takeWait, modifySession, chain_modify, take, chain, List.eraseIdx_map]

theorem OneChain.takeWait (hs : s.OneChain) (c : ConnId) (i : Nat) :
    (s.takeWait c i).OneChain := by
  intro id hid
  rw [chain_takeWait]
  exact (hs id hid).take

/-- The handler of a wait goes on with the next one, or the chain ends. -/
theorem rearmed_handleStunTimeout (s : Server) (sessionId : Uuid) :
    (∃ c id, s.rearmed sessionId = some id ∧
      (s.handleStunTimeout sessionId).chain = start s.chain c id ∧
      (s.handleStunTimeout sessionId).stunMgr = s.stunMgr) ∨
    s.rearmed sessionId = none ∧ (s.OneChain → (s.handleStunTimeout sessionId).OneChain) := by
  cases hfind : s.stunMgr.find sessionId with
  | none =>
      refine .inr ⟨by simp [rearmed, hfind], fun hs => ?_⟩
      simpa only [handleStunTimeout, hfind] using hs
  | some c =>
      have hrearmed : s.rearmed sessionId = if (s.conns c).session.expiresAt ≤ s.now ∧
          (s.counter c = Session.maxTimeout ∨ s.hung) then none
          else some (s.conns c).session.id := by
        unfold rearmed
        rw [hfind]
        rfl
      rw [hrearmed]
      have hhandled := handled_handleStunTimeout hfind
      cases hhandled with
      | early hnow hchain _ hmgr _ =>
          exact .inl ⟨c, _, if_neg fun h => absurd h.1 (Nat.not_le.2 hnow), hchain, hmgr⟩
      | removed hnow hmax heq =>
          refine .inr ⟨if_pos ⟨hnow, .inl hmax⟩, fun hs => ?_⟩
          rw [heq]
          exact hs.calm (Calm.removeStun s _)
      | blocked hnow _ hhung hchain hmgr =>
          refine .inr ⟨if_pos ⟨hnow, .inr hhung⟩, fun hs id hid => ?_⟩
          rw [hchain]
          exact hs id (hmgr ▸ hid)
      | pinged _ hmax hhung hchain _ hmgr _ =>
          exact .inl ⟨c, _, if_neg (by simp [hmax, hhung]), hchain, hmgr⟩

theorem rearmed_takeWait (s : Server) (c : ConnId) (i : Nat) (sessionId : Uuid) :
    (s.takeWait c i).rearmed sessionId = s.rearmed sessionId := by
  unfold rearmed
  congr 1
  funext d
  simp only [Server.takeWait, modifySession, modify, Function.update_apply]
  split
  · next hd => rw [hd]
  · rfl

theorem oneChain_handled {c : ConnId} {i : Nat} {w : Wait} (hs : s.OneChain)
    (hw : (s.conns c).session.waits[i]? = some w) :
    ((s.takeWait c i).handleStunTimeout w.sessionId).OneChain ↔ s.Careful (.stunTimeout c i) := by
  have hcareful : s.Careful (.stunTimeout c i) ↔ ∀ id, s.rearmed w.sessionId = some id →
      id = w.sessionId ∨ s.stunMgr.find id = none ∨ ¬ Outstanding s.chain id := by
    simp only [Careful, hw, Option.some.injEq, forall_eq']
  have hhead : (s.chain c)[i]? = some w.sessionId := by simp [chain, hw]
  have htaken := hs.takeWait c i
  have hrearmed := rearmed_takeWait s c i w.sessionId
  rw [hcareful]
  rcases (s.takeWait c i).rearmed_handleStunTimeout w.sessionId with
    ⟨d, id, hid, hchain, hmgr⟩ | ⟨hnone, hkept⟩
  · have hid : s.rearmed w.sessionId = some id := hrearmed.symm.trans hid
    simp only [hid, Option.some.injEq, forall_eq']
    rw [oneChain_start htaken hchain (by simp [hmgr]), hmgr, chain_takeWait]
    show s.stunMgr.find id = none ∨ _ ↔ _
    by_cases hsame : id = w.sessionId
    · subst hsame
      have hregistered : s.stunMgr.find w.sessionId ≠ none := by
        intro hnone
        simp [rearmed, hnone] at hid
      have hlast := not_outstanding_take (hs w.sessionId hregistered) hhead
      exact ⟨fun _ => .inl rfl, fun _ => .inr hlast⟩
    · rw [outstanding_take_of_ne hhead hsame]
      exact (or_iff_right hsame).symm
  · refine ⟨fun _ id hid => ?_, fun _ => hkept htaken⟩
    rw [← hrearmed, hnone] at hid
    cases hid

/-- In every run in which each STUN request is handled when no wait for its id is
outstanding, and no handler goes on for another id that has one, every registered
id has at most one outstanding wait; and the first step that is not so breaks it. -/
theorem oneChain_iff_careful {s : Server} (h : system.ReachableWhile Careful s) :
    s.OneChain ∧ ∀ e t, s.step e = some t → (t.OneChain ↔ s.Careful e) := by
  have hstep {s t : Server} {e : Event} (hs : s.OneChain) (h : s.step e = some t) :
      t.OneChain ↔ s.Careful e := by
    cases move_of_step h with
    | calm htimeout hrequest _ hcalm =>
        refine ⟨fun _ => ?_, fun _ => hs.calm hcalm⟩
        cases e with
        | receive c => exact fun id hid => absurd hid (hrequest c id)
        | stunTimeout c i => exact absurd rfl (htimeout c i)
        | _ => trivial
    | @started c id t hrequest hchain _ hfind =>
        have hcareful : s.Careful (.receive c) ↔ ¬ Outstanding s.chain id := by
          simp [Careful, hrequest]
        have hregistered : t.stunMgr.find id ≠ none := by
          rw [hfind]
          split
          · exact nofun
          · next hnot => exact fun hnone => hnot ⟨rfl, hnone⟩
        rw [hcareful, oneChain_start hs hchain fun key hne => by
          rw [hfind, if_neg fun h => hne h.1]]
        exact or_iff_right hregistered
    | @heard c cmd t hnext hbeats hchain _ hmgr =>
        refine ⟨fun _ id hid => ?_, fun _ id hid => ?_⟩
        · rw [request_of_beats hnext hbeats] at hid
          cases hid
        · rw [hchain]
          exact hs id (hmgr ▸ hid)
    | handled hw => exact oneChain_handled hs hw
  have hs : s.OneChain := by
    refine h.invariant ?_ fun s e t hs hcareful h => (hstep hs h).2 hcareful
    rintro s rfl id hid
    exact absurd rfl hid
  exact ⟨hs, fun e t => hstep hs⟩

/-- The first connection registers client 1, and a second one asks for the same
id. -/
def repeatedRun : List Event :=
  connectRun 0 .stun 1 ++ connectRun 1 .stun 1

structure ChainView where
  registered : Option ConnId
  first : List Uuid
  second : List Uuid
  rearmed : Option Uuid
  deriving DecidableEq

def chainView (s : Server) : ChainView :=
  ⟨s.stunMgr.find 1, s.chain 0, s.chain 1, s.rearmed 1⟩

/-- The request of the second connection is refused, but its wait is still
outstanding. When its handler has run, two waits are outstanding on the session of
the first one. -/
theorem repeatedRun_not_oneChain :
    (∃ s, system.exec {} repeatedRun = some s ∧ s.chainView = ⟨some 0, [1], [1], some 1⟩ ∧
      ¬ s.OneChain) ∧
    (system.exec {} (repeatedRun ++ [.stunTimeout 1 0])).map chainView =
      some ⟨some 0, [1, 1], [], some 1⟩ := by
  have hview : (system.exec {} repeatedRun).map chainView = some ⟨some 0, [1], [1], some 1⟩ := by
    decide +kernel
  refine ⟨?_, by decide +kernel⟩
  obtain ⟨s, hs, hv⟩ := Option.map_eq_some_iff.1 hview
  refine ⟨s, hs, hv, fun hone => ?_⟩
  have hregistered : s.stunMgr.find 1 = some 0 := congrArg ChainView.registered hv
  have hfirst : s.chain 0 = [1] := congrArg ChainView.first hv
  have hsecond : s.chain 1 = [1] := congrArg ChainView.second hv
  have hsame := hone 1 (fun h => nomatch hregistered.symm.trans h) 0 1 0 0
    (by simp [hfirst]) (by simp [hsecond])
  exact absurd hsame.1 (by decide)

/-- Client 1 may register, since no wait is outstanding, and has one wait then. -/
theorem connectRun_oneChain :
    ∃ s t, system.ReachableWhile Careful s ∧ s.step (.receive 0) = some t ∧
      t.chainView = ⟨some 0, [1], [], some 1⟩ ∧ t.OneChain := by
  have harrived : ∃ s, system.exec {} [.accept 0, .arrive 0 (connectRequest .stun 1)] = some s ∧
      system.ReachableWhile Careful s ∧ ∀ c, s.chain c = [] := by
    refine ⟨_, rfl, ?_, fun c => ?_⟩
    · exact .step (e := .arrive 0 (connectRequest .stun 1))
        (.step (e := .accept 0) (.init rfl) trivial rfl) trivial rfl
    · rw [chain_modify, chain_modify]
      by_cases hc : c = 0 <;> simp [chain, modify, hc]
  obtain ⟨s, hs, hreach, hempty⟩ := harrived
  have hview : (system.exec {} (connectRun 0 .stun 1)).map chainView =
      some ⟨some 0, [1], [], some 1⟩ := by decide +kernel
  obtain ⟨t, ht, hv⟩ := Option.map_eq_some_iff.1 hview
  have hstep : system.step s (.receive 0) = some t := by
    have hsplit : connectRun 0 .stun 1 =
        [.accept 0, .arrive 0 (connectRequest .stun 1)] ++ [.receive 0] := rfl
    rw [hsplit, System.exec_append, hs] at ht
    simpa [System.exec_cons] using ht
  refine ⟨s, t, hreach, hstep, hv, ?_⟩
  refine ((oneChain_iff_careful hreach).2 _ t hstep).2 fun id _ => ?_
  rintro ⟨c, hc⟩
  rw [hempty c] at hc
  cases hc

end Server

end OpenNat
