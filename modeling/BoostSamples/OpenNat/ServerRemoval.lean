import BoostSamples.OpenNat.ServerHeartbeat

/-!
# The server removes only silent sessions

A server in which each connection makes at most one connect request is a
watchdog. A session that is found under an id has that id, so the handler of a
wait pings, counts and removes the session it has found; and a session that makes
its first request has never been counted before.
-/

namespace OpenNat

open Registry Transition Watchdog

namespace Server

def watch (s : Server) : Watch Uuid ConnId := ⟨s.stunMgr.find, s.counter⟩

/-- The step has queued a ping for the session that is registered for a
connection. -/
def pinged (s t : Server) (c : ConnId) : Bool :=
  let id := (s.conns c).session.id
  t.serverQueue = s.serverQueue ++ [⟨id, .stun, .ofCommand ping⟩] ∧ t.stunMgr.find id = some c

/-- What an event records: a session is registered, a ping or a pong of it is
processed, or its timer is found expired. -/
def observe (s : Server) (e : Event) : Option (Beat ConnId) :=
  match e with
  | .receive c =>
      match s.request (.receive c) with
      | some (.stun d id) => if s.stunMgr.find id = none then some (.registered d) else none
      | _ => if (s.nextCommand c).any Command.beats then some (.heard c) else none
  | .stunTimeout c i =>
      ((s.conns c).session.waits[i]?.bind fun w => s.stunMgr.find w.sessionId).bind fun d =>
        if (s.conns d).session.expiresAt ≤ s.now then
          some (.expired d ((s.step e).any fun t => s.pinged t d))
        else none
  | _ => none

/-- The connect request is the first of its connection, and no handler is stuck:
one that never ends is not a step, and nothing comes after it. -/
def Admitted (s : Server) (e : Event) : Prop :=
  s.Admits Membership.FirstRequest e ∧ s.hung = false

structure Watched (s : Server) (l : List (Beat ConnId)) : Prop where
  entered : s.membership.Entered
  unasked : ∀ c, (s.conns c).session.type = .unknown → s.counter c = 0
  counted : s.watch.Counted Session.maxTimeout l

variable {s t : Server} {e : Event} {l : List (Beat ConnId)}

theorem Watched.id_of_find (hs : s.Watched l) {id : Uuid} {c : ConnId}
    (h : s.stunMgr.find id = some c) : (s.conns c).session.id = id :=
  hs.entered.keyed id c h

theorem Watched.type_of_find (hs : s.Watched l) {id : Uuid} {c : ConnId}
    (h : s.stunMgr.find id = some c) : (s.conns c).session.type = .stun :=
  hs.entered.typed id c h

theorem calm_takeWait (s : Server) (c : ConnId) (i : Nat) :
    (s.takeWait c i).counter = s.counter ∧ ∀ d,
      ((s.takeWait c i).conns d).session.id = (s.conns d).session.id ∧
      ((s.takeWait c i).conns d).session.expiresAt = (s.conns d).session.expiresAt := by
  constructor
  · rw [takeWait, modifySession, counter_modify]
    exact Function.update_eq_self c s.counter
  · intro d
    simp only [takeWait, modifySession, modify, Function.update_apply]
    split
    · next hd => rw [hd]; exact ⟨rfl, rfl⟩
    · exact ⟨rfl, rfl⟩

theorem observe_found {c d : ConnId} {i : Nat} {w : Wait}
    (hw : (s.conns c).session.waits[i]? = some w) (hfind : s.stunMgr.find w.sessionId = some d)
    (hstep : s.step (.stunTimeout c i) = some t) :
    s.observe (.stunTimeout c i) = if (s.conns d).session.expiresAt ≤ s.now then
      some (.expired d (s.pinged t d)) else none := by
  simp only [observe, hw, hfind, Option.bind_some, hstep, Option.any_some]

theorem watch_handled (hs : s.Watched l) (hhung : s.hung = false) {c : ConnId} {i : Nat} {w : Wait}
    (hw : (s.conns c).session.waits[i]? = some w)
    (hstep : s.step (.stunTimeout c i) = some ((s.takeWait c i).handleStunTimeout w.sessionId)) :
    s.watch.Step Session.maxTimeout ((s.takeWait c i).handleStunTimeout w.sessionId).watch
      (s.observe (.stunTimeout c i)) := by
  obtain ⟨hcounter, hsession⟩ := calm_takeWait s c i
  cases hfind : s.stunMgr.find w.sessionId with
  | none =>
      have hobserve : s.observe (.stunTimeout c i) = none := by
        simp only [observe, hw, hfind, Option.bind_some, Option.bind_none]
      have hgone : (s.takeWait c i).stunMgr.find w.sessionId = none := hfind
      rw [hobserve]
      simp only [handleStunTimeout, hgone]
      exact .rest (fun id d hd => hd) hcounter
  | some d =>
      have hid := hs.id_of_find hfind
      obtain ⟨hid', hexpiry⟩ := hsession d
      rw [observe_found hw hfind hstep]
      have hhandled := handled_handleStunTimeout (s := s.takeWait c i) hfind
      generalize (s.takeWait c i).handleStunTimeout w.sessionId = t at hhandled ⊢
      cases hhandled with
      | early hnow _ hcount hmgr _ =>
          rw [if_neg (by rw [← hexpiry]; exact Nat.not_le.2 hnow)]
          refine .rest (fun id e he => ?_) (hcount.trans hcounter)
          simp only [watch, hmgr] at he
          exact he
      | removed hnow hmax heq =>
          have hremoved : t = (s.takeWait c i).removeStun w.sessionId := by rw [heq, hid', hid]
          have hcalm := Calm.removeStun (s.takeWait c i) w.sessionId
          have hmgr : t.stunMgr = s.stunMgr.removeSession w.sessionId := by
            have hgone : (s.takeWait c i).stunMgr.find w.sessionId = some d := hfind
            rw [hremoved, removeStun, hgone]
            rfl
          have hfound : ∀ id e, t.stunMgr.find id = some e ↔
              s.stunMgr.find id = some e ∧ e ≠ d := by
            rw [hmgr]
            exact SessionMgr.find_removeSession_iff hfind fun id he =>
              (hs.id_of_find he).symm.trans hid
          have hnot : s.pinged t d = false := by
            have hgone : t.stunMgr.find (s.conns d).session.id ≠ some d := fun h =>
              ((hfound _ _).1 h).2 rfl
            simp [pinged, hgone]
          rw [if_pos (by rw [← hexpiry]; exact hnow), hnot]
          refine .removed ?_ hfound ?_
          · rw [← hmax, hcounter]
            rfl
          · rw [hremoved]
            exact hcalm.counter.trans hcounter
      | blocked _ _ hblocked _ _ => cases hhung.symm.trans hblocked
      | pinged hnow hmax _ _ hcount hmgr hqueue =>
          have hpinged : s.pinged t d = true := by
            have hsame : (s.takeWait c i).stunMgr.find (s.conns d).session.id = some d := by
              rw [hid]
              exact hfind
            rw [hid', hsame] at hqueue
            simp only [pinged, hmgr, hsame, hqueue]
            simp [takeWait, modifySession, modify]
          rw [if_pos (by rw [← hexpiry]; exact hnow), hpinged]
          rw [hcounter] at hmax hcount
          refine .probed hfind (Nat.lt_of_le_of_ne (hs.counted.bounded d) hmax) ?_ hcount
          simp only [watch, hmgr]
          rfl

/-- Each step of the server is a step of the watchdog. -/
theorem watch_step (hs : s.Watched l) (hadmitted : s.Admitted e) (h : s.step e = some t) :
    s.watch.Step Session.maxTimeout t.watch (s.observe e) := by
  cases move_of_step h with
  | calm htimeout hrequest hbeats hcalm =>
      have hobserve : s.observe e = none := by
        cases e with
        | receive c =>
            have hany : (s.nextCommand c).any Command.beats = false := by
              cases hnext : s.nextCommand c with
              | none => rfl
              | some cmd => exact hbeats c rfl cmd hnext
            cases hr : s.request (.receive c) with
            | none => simp only [observe, hr, hany, Bool.false_eq_true, if_false]
            | some r =>
                cases r with
                | stun d id => exact absurd hr (hrequest d id)
                | proxy d side id => simp only [observe, hr, hany, Bool.false_eq_true, if_false]
        | stunTimeout c i => exact absurd rfl (htimeout c i)
        | _ => rfl
      rw [hobserve]
      exact .rest hcalm.find hcalm.counter
  | @started c id t hrequest _ hcounter hfind =>
      have hobserve : s.observe (.receive c) =
          if s.stunMgr.find id = none then some (.registered c) else none := by
        simp only [observe, hrequest]
      rw [hobserve]
      by_cases hfree : s.stunMgr.find id = none
      · rw [if_pos hfree]
        have hunknown : (s.conns c).session.type = .unknown := hadmitted.1 _ hrequest
        refine .registered (hs.unasked c hunknown) (fun key d hd => ?_) hcounter
        have hd : t.stunMgr.find key = some d := hd
        rw [hfind] at hd
        split at hd
        · exact .inl (Option.some.inj hd).symm
        · exact .inr hd
      · rw [if_neg hfree]
        refine .rest (fun key d hd => ?_) hcounter
        have hd : t.stunMgr.find key = some d := hd
        rwa [hfind, if_neg fun h => hfree h.2] at hd
  | @heard c cmd t hnext hbeats _ hcounter hmgr =>
      have hobserve : s.observe (.receive c) = some (.heard c) := by
        have hany : (s.nextCommand c).any Command.beats = true := by
          rw [hnext]
          exact hbeats
        simp only [observe, request_of_beats hnext hbeats, hany, if_true]
      rw [hobserve]
      refine .heard (fun id d hd => ?_) hcounter
      simp only [watch, hmgr] at hd
      exact hd
  | handled hw => exact watch_handled hs hadmitted.2 hw h

theorem Watched.step (hs : s.Watched l) (hadmitted : s.Admitted e) (h : s.step e = some t) :
    t.Watched (l ++ (s.observe e).toList) := by
  have hwatch := watch_step hs hadmitted h
  refine ⟨?_, fun c hc => ?_, hs.counted.step hwatch⟩
  · obtain ⟨a, ha, hrequest, -⟩ := step_refines h
    exact hs.entered.step (fun r hr => hadmitted.1 r (hrequest r hr)) ha
  · have hunknown : (s.conns c).session.type = .unknown := by
      by_contra hasked
      exact hasked ((member_step h hadmitted.1 hasked).2.symm.trans hc)
    refine hwatch.timeout_eq_zero (hs.unasked c hunknown) fun id hid => ?_
    exact nomatch hunknown.symm.trans (hs.type_of_find hid)

/-- A handler of a wait that removes a session has found a timer expired. -/
theorem expired_of_removed {c d : ConnId} {i : Nat} {id : Uuid}
    (h : s.step (.stunTimeout c i) = some t) (hbefore : s.stunMgr.find id = some d)
    (hafter : t.stunMgr.find id ≠ some d) :
    ∃ d' probed, s.observe (.stunTimeout c i) = some (.expired d' probed) := by
  cases move_of_step h with
  | calm htimeout _ _ _ => exact absurd rfl (htimeout c i)
  | @handled _ _ w hw =>
      cases hfind : s.stunMgr.find w.sessionId with
      | none =>
          have hgone : (s.takeWait c i).stunMgr.find w.sessionId = none := hfind
          simp only [handleStunTimeout, hgone] at hafter
          exact absurd hbefore hafter
      | some d' =>
          rw [observe_found hw hfind h]
          obtain ⟨-, hexpiry⟩ := (calm_takeWait s c i).2 d'
          have hhandled := handled_handleStunTimeout (s := s.takeWait c i) hfind
          generalize (s.takeWait c i).handleStunTimeout w.sessionId = t at hhandled hafter
          have hchanged : t.stunMgr ≠ s.stunMgr := fun hmgr => hafter (hmgr ▸ hbefore)
          cases hhandled with
          | removed hnow _ _ => exact ⟨_, _, if_pos (by rw [← hexpiry]; exact hnow)⟩
          | early _ _ _ hmgr _ => exact absurd hmgr hchanged
          | blocked _ _ _ _ hmgr => exact absurd hmgr hchanged
          | pinged _ _ _ _ _ hmgr _ => exact absurd hmgr hchanged

theorem watched_of_reachable {s : Server × List (Beat ConnId)}
    (h : (system.recording observe).ReachableWhile (fun s e => s.1.Admitted e) s) :
    s.1.Watched s.2 := by
  refine h.recorded (P := Admitted) (fun s hs => ?_) fun s l e t hs hadmitted h =>
    hs.step hadmitted h
  obtain rfl : s = {} := hs
  exact ⟨.init, fun _ _ => rfl, fun _ => Nat.zero_le _, fun id c hc => nomatch hc⟩

theorem Watched.overdue (hs : s.Watched l) {c d : ConnId} {i : Nat} {id : Uuid}
    (hadmitted : s.Admitted (.stunTimeout c i)) (h : s.step (.stunTimeout c i) = some t)
    (hbefore : s.stunMgr.find id = some d) (hafter : t.stunMgr.find id ≠ some d) :
    Overdue Session.maxTimeout d (l ++ (s.observe (.stunTimeout c i)).toList) := by
  obtain ⟨d', probed, hobserve⟩ := expired_of_removed h hbefore hafter
  have hwatch := watch_step hs hadmitted h
  rw [hobserve] at hwatch ⊢
  exact hs.counted.removed hwatch hbefore hafter

end Server

end OpenNat
