import BoostSamples.OpenNat.ClientRoster
import BoostSamples.OpenNat.ServerRemoval

/-!
# The client removes only silent sessions

The client is a watchdog as the server is. A session is registered once, by the
handler that takes it from its place on the roster, and it has not been counted
before.
-/

namespace OpenNat

open Registry Transition Watchdog

namespace ClientTimers

def pending (s : ClientTimers) (p : SessionPtr) : Nat :=
  (s.connecting.map Prod.fst).count p + s.client.claims p + s.unasked.count p

def roster (s : ClientTimers) : Roster Uuid := s.client.roster s.pending

def watch (s : ClientTimers) : Watch Uuid SessionPtr :=
  ⟨s.client.sessionMgr.find, fun p => (s.timer p).timeout⟩

def entering (s : ClientTimers) : Event → Option SessionPtr
  | .connectDone i _ => s.connecting[i]?.map Prod.fst
  | .resolveFail i => s.connecting[i]?.map Prod.fst
  | .directDone i _ => s.client.connects[i]?.map Prod.fst
  | .proxyDone i _ => s.client.proxyConnects[i]?
  | .receive p frame => if (Client.asked frame).isSome then some p else none
  | _ => none

def Event.heard : Event → Option SessionPtr
  | .receive p frame => if frame.command.any Command.beats then some p else none
  | _ => none

/-- The step has queued a ping for a session that is registered. -/
def pinged (s t : ClientTimers) (p : SessionPtr) : Bool :=
  let id := (s.client.session p).id
  t.client.sent = s.client.sent ++ [(id, .ofCommand Client.ping)] ∧
    t.client.sessionMgr.find id = some p

/-- What an event records: a session is registered, a ping or a pong of it is
processed, or its timer is found expired. -/
def observe (s : ClientTimers) (e : Event) : Option (Beat SessionPtr) :=
  match s.entering e, e.heard, e with
  | some p, _, e =>
      if (s.step e).any fun t => t.client.sessionMgr.find (t.client.session p).id = some p then
        some (.registered p)
      else none
  | none, some p, _ => some (.heard p)
  | none, none, .stunTimeout p i =>
      ((s.timer p).waits[i]?.bind fun w => s.client.sessionMgr.find w.sessionId).bind fun q =>
        if (s.timer q).expired s.now then
          some (.expired q ((s.step (.stunTimeout p i)).any fun t => s.pinged t q))
        else none
  | none, none, _ => none

/-- A connect request is the first on a connection that has been accepted: the
sessions that the client has made itself have made their request. -/
def Admitted (s : ClientTimers) : Event → Prop
  | .receive p frame => (Client.asked frame).isSome → p ∈ s.unasked
  | _ => True

structure Watched (s : ClientTimers) (l : List (Beat SessionPtr)) : Prop where
  roster : s.roster.Sound fun p => (s.timer p).timeout = 0
  named : ∀ x ∈ s.client.connects, (s.client.session x.1).id = x.2.sessionId
  counted : s.watch.Counted Session.maxTimeout l

variable {s t : ClientTimers} {e : Event} {l : List (Beat SessionPtr)} {p : SessionPtr}

theorem timeout_follow (s : ClientTimers) (k : Client) :
    (s.follow k).watch.timeout = s.watch.timeout := by
  funext p
  simp only [watch, follow]
  split <;> rfl

theorem timeout_modifyTimer (s : ClientTimers) (p : SessionPtr) (f : SessionTimer → SessionTimer) :
    (s.modifyTimer p f).watch.timeout =
      Function.update s.watch.timeout p (f (s.timer p)).timeout := by
  funext q
  simp only [watch, modifyTimer, Function.update_apply]
  split <;> rfl

structure Kept (s t : ClientTimers) : Prop extends Roster.Kept s.roster t.roster where
  named : ∀ x ∈ t.client.connects, x ∈ s.client.connects ∨
    x.1 < t.client.sessions.length ∧ (t.client.session x.1).id = x.2.sessionId

theorem Kept.of_client (h : s.client.Kept t.client) (hconnecting : t.connecting = s.connecting)
    (hunasked : t.unasked = s.unasked) : s.Kept t where
  find := h.find
  id := h.id
  pending p := by
    refine (h.pending p).imp (fun hsame => ?_) fun ⟨hle, hlt, hone⟩ => ⟨hle, hlt, ?_⟩
    · simp only [roster, Client.roster, pending, hconnecting, hunasked] at hsame ⊢
      rw [hsame]
    · simp only [roster, Client.roster, pending, hconnecting, hunasked] at hone ⊢
      omega
  length := h.length
  named := h.named

structure Left (p : SessionPtr) (s t : ClientTimers) : Prop extends
    Roster.Left p s.roster t.roster where
  connects : ∀ x ∈ t.client.connects, x ∈ s.client.connects

theorem Left.of_takes {k : Client} (h : Client.Takes p k t.client)
    (hmgr : k.sessionMgr = s.client.sessionMgr) (hsessions : k.sessions = s.client.sessions)
    (hconnects : ∀ x ∈ k.connects, x ∈ s.client.connects)
    (hpending : ∀ q, s.pending q =
      (t.connecting.map Prod.fst).count q + k.claims q + t.unasked.count q +
        if q = p then 1 else 0) : Left p s t where
  find key q hq := by
    have hfound := h.find key q hq
    rwa [hmgr] at hfound
  id q hq := by
    have hid := h.id q hq
    rwa [show k.session q = s.client.session q by rw [Client.session, hsessions]; rfl] at hid
  place := by
    have hp := hpending p
    rwa [if_pos rfl, ← h.claims] at hp
  pending q hq := by
    have hq' := hpending q
    rw [if_neg hq, ← h.claims] at hq'
    exact hq'.symm
  length := h.length.trans (congrArg List.length hsessions)
  connects x hx := hconnects x (h.connects ▸ hx)

theorem Kept.refl (s : ClientTimers) : s.Kept s := .of_client (.refl _) rfl rfl

theorem Kept.of_eq {u : ClientTimers} (h : u.Kept t) (hclient : u.client = s.client)
    (hconnecting : u.connecting = s.connecting) (hunasked : u.unasked = s.unasked) :
    s.Kept t := by
  have hroster : u.roster = s.roster := by
    have hpending : u.pending = s.pending := by
      funext p
      simp only [pending, hclient, hconnecting, hunasked]
    rw [roster, roster, hclient, hpending]
  exact ⟨hroster ▸ h.toKept, hclient ▸ h.named⟩

theorem Kept.of_construct (h : s.client.Kept t.client)
    (hclaims : t.client.claims = s.client.claims)
    (hlength : t.client.sessions.length = s.client.sessions.length + 1)
    (hplace : ∀ p, (t.connecting.map Prod.fst).count p + t.unasked.count p =
      (s.connecting.map Prod.fst).count p + s.unasked.count p +
        if p = s.client.sessions.length then 1 else 0) : s.Kept t where
  find := h.find
  id := h.id
  pending p := by
    have hp := hplace p
    simp only [roster, Client.roster, pending, hclaims, hlength]
    split at hp
    · next hp' =>
        rw [hp'] at hp ⊢
        omega
    · omega
  length := h.length
  named := h.named

theorem kept_connect (s : ClientTimers) (ep : Address × BitVec 16) (id : Uuid) :
    s.Kept (s.connect ep id) := by
  unfold connect
  split
  · refine .of_construct (.construct _ _) rfl (by simp [modifyTimer, follow, Client.construct]) ?_
    intro p
    simp only [modifyTimer, follow, List.map_append, List.map_cons, List.map_nil,
      List.count_append, List.count_singleton, beq_iff_eq, eq_comm (a := p)]
    omega
  · exact .refl s

theorem kept_accept (s : ClientTimers) : s.Kept s.accept := by
  refine .of_construct ((Client.Kept.construct _ _).trans (.postReceive _ _)) rfl ?_ fun p => ?_
  · simp [accept, follow, Client.construct, Client.postReceive, Client.modify]
  · simp only [accept, follow, List.count_append, List.count_singleton, beq_iff_eq,
      eq_comm (a := p)]
    omega

theorem kept_handleStunTimeout (s : ClientTimers) (id : Uuid) :
    s.Kept (s.handleStunTimeout id) := by
  unfold handleStunTimeout
  split
  · exact .refl s
  · split
    · split
      · exact .of_client (.removeSession _ _) rfl rfl
      · exact .of_client (.send _ _ _) rfl rfl
    · exact .of_client (.refl _) rfl rfl

theorem state_receive (s : ClientTimers) (p : SessionPtr) (frame : Frame) :
    (s.receive p frame).client = s.client.receive p frame ∧
      (s.receive p frame).connecting = s.connecting ∧
      (s.receive p frame).unasked =
        if (Client.asked frame).isSome then s.unasked.erase p else s.unasked := by
  unfold receive
  cases frame.command <;> exact ⟨rfl, rfl, rfl⟩

/-- A handler that changes the client alone and takes no session from its place. -/
theorem kept_runs {k : Client} (h : e.runs s.client = some k) (hentering : s.entering e = none) :
    s.client.Kept k := by
  cases e with
  | receiveFail p =>
      cases h
      exact Client.Kept.trans (.takeReceive _ _) (.receiveCatch _ _)
  | receiveRaw p frame =>
      cases h
      exact .receiveRaw _ _ _
  | receiveRawFail p =>
      cases h
      exact Client.Kept.trans (.takeReceiveRaw _ _) (.receiveCatch _ _)
  | direct clientId sessionId offer =>
      cases h
      exact .direct _ _ _ _
  | runDirect i offer =>
      cases h
      exact .runDirect _ _ _
  | runDoDirect i =>
      cases h
      exact .runDoDirect _ _
  | directDone i ok =>
      cases h
      have hi : s.client.connects[i]? = none := Option.map_eq_none_iff.1 hentering
      simp only [Client.directDone, hi]
      exact .refl _
  | proxy config =>
      cases h
      exact .doProxy _ _
  | proxyDone i ok =>
      cases h
      have hi : s.client.proxyConnects[i]? = none := hentering
      simp only [Client.proxyDone, hi]
      exact .refl _
  | send id frame =>
      cases h
      exact .send _ _ _
  | disconnect id =>
      cases h
      exact .removeSession _ _
  | close p =>
      cases h
      exact .modify _ p fun _ => rfl
  | _ => cases h

/-- An event that takes no session from its place registers none. -/
theorem kept_step (h : s.step e = some t) (hentering : s.entering e = none) : s.Kept t := by
  cases move_of_step h with
  | connect ep id => exact kept_connect s ep id
  | connectDone hi => exact nomatch (Option.map_eq_none_iff.1 hentering).symm.trans hi
  | resolveFail hi => exact nomatch (Option.map_eq_none_iff.1 hentering).symm.trans hi
  | accept => exact kept_accept s
  | receive p frame =>
      have hasked : Client.asked frame = none := by
        simpa [entering] using hentering
      obtain ⟨hclient, hconnecting, hunasked⟩ := state_receive s p frame
      rw [hasked] at hunasked
      refine .of_client ?_ hconnecting hunasked
      rw [hclient]
      exact Client.kept_receive s.client p hasked
  | follow hruns => exact .of_client (kept_runs hruns hentering) rfl rfl
  | tick seconds => exact .of_client (.refl _) rfl rfl
  | expire p i => exact .of_client (.refl _) rfl rfl
  | @stunTimeout p i w _ =>
      exact (kept_handleStunTimeout (s.takeWait p i) w.sessionId).of_eq rfl rfl rfl
  | connectionExpire i _ => exact .of_client (.refl _) rfl rfl
  | @connectionTimeout i w _ _ =>
      unfold handleConnectionTimeout
      dsimp only
      split
      · exact (kept_connect _ w.ep w.id).of_eq rfl rfl rfl
      · exact .of_client (.refl _) rfl rfl
  | stop _ hclient hconnecting hunasked _ =>
      exact .of_client (hclient ▸ .refl _) hconnecting hunasked

theorem count_map_eraseIdx {α β : Type*} [DecidableEq β] {f : α → β} {l : List α} {i : Nat} {x : α}
    (h : l[i]? = some x) (b : β) :
    (l.map f).count b = ((l.eraseIdx i).map f).count b + if b = f x then 1 else 0 := by
  obtain ⟨before, after, hl, -, -, herase⟩ := exists_append_of_getElem? h
  rw [herase, hl]
  simp only [List.map_append, List.map_cons, List.count_append, List.count_cons, beq_iff_eq,
    eq_comm (a := b)]
  omega

/-- A handler that changes the client alone and takes a session from its place. -/
theorem left_runs {k : Client} (hs : s.Watched l) (h : e.runs s.client = some k)
    (hentering : s.entering e = some p) : Left p s (s.follow k) := by
  cases e with
  | directDone i ok =>
      cases h
      obtain ⟨⟨q, config⟩, hi, rfl⟩ := Option.map_eq_some_iff.1 hentering
      have hplace := count_map_eraseIdx (f := Prod.fst) hi
      have hid := hs.named _ (List.mem_of_getElem? hi)
      refine .of_takes (Client.takes_directDone ok hi hid) rfl rfl
        (fun _ hx => List.mem_of_mem_eraseIdx hx) fun p => ?_
      simp only [pending, follow, Client.claims, hplace p]
      omega
  | proxyDone i ok =>
      cases h
      have hi : s.client.proxyConnects[i]? = some p := hentering
      have hplace := count_map_eraseIdx (f := id) hi
      refine .of_takes (Client.takes_proxyDone ok hi) rfl rfl (fun _ hx => hx) fun q => ?_
      have hq := hplace q
      simp only [List.map_id, id] at hq
      simp only [pending, follow, Client.claims, hq]
      omega
  | connectDone | resolveFail | receive => cases h
  | _ => cases hentering

/-- An event that takes a session from its place may register that one. -/
theorem left_step (hs : s.Watched l) (hadmitted : s.Admitted e) (h : s.step e = some t)
    (hentering : s.entering e = some p) : Left p s t := by
  cases move_of_step h with
  | connectDone _ =>
      obtain ⟨⟨q, ep⟩, hi, rfl⟩ := Option.map_eq_some_iff.1 hentering
      have hplace := count_map_eraseIdx (f := Prod.fst) hi
      unfold connectDone
      simp only [hi]
      split
      · refine .of_takes (Client.takes_stunDone s.client q) rfl rfl (fun _ hx => hx) fun p => ?_
        simp only [pending, follow, hplace p]
        omega
      · refine .of_takes (.refl q s.client) rfl rfl (fun _ hx => hx) fun p => ?_
        simp only [pending, hplace p]
        omega
  | resolveFail _ =>
      obtain ⟨⟨q, ep⟩, hi, rfl⟩ := Option.map_eq_some_iff.1 hentering
      have hplace := count_map_eraseIdx (f := Prod.fst) hi
      unfold resolveFail
      simp only [hi]
      refine .of_takes ((Client.Takes.refl q s.client).call _) rfl rfl (fun _ hx => hx) fun p => ?_
      simp only [pending, follow, hplace p]
      omega
  | receive q frame =>
      obtain ⟨hasked, hq⟩ := Option.ite_none_right_eq_some.1 hentering
      obtain rfl := Option.some.inj hq
      have hmem : q ∈ s.unasked := hadmitted hasked
      have hbound : q < s.client.sessions.length := hs.roster.bound q <|
        Nat.lt_of_lt_of_le (List.count_pos_iff.2 hmem) (Nat.le_add_left _ _)
      obtain ⟨hclient, hconnecting, hunasked⟩ := state_receive s q frame
      rw [if_pos hasked] at hunasked
      refine .of_takes (k := s.client) (hclient ▸ Client.takes_receive hbound hasked) rfl rfl
        (fun _ hx => hx) fun p => ?_
      rw [hconnecting, hunasked, List.count_erase, pending]
      by_cases hp : p = q
      · subst hp
        have hpos := List.count_pos_iff.2 hmem
        simp only [beq_self_eq_true, if_true]
        omega
      · simp [hp, Ne.symm hp]
  | follow hruns => exact left_runs hs hruns hentering
  | _ => cases hentering

theorem timeout_beat (now : Nat) (cmd : Command) (x : SessionTimer) :
    (beat now cmd x).timeout = if cmd.beats then 0 else x.timeout := by
  unfold beat Command.beats
  cases cmd.protocol with
  | heartbeat =>
      cases hpong : (cmd.heartbeat.getD {}).pong <;> cases hping : (cmd.heartbeat.getD {}).ping <;>
        simp [hpong, hping]
  | connect =>
      simp only [reduceCtorEq, decide_false, Bool.false_and, Bool.false_eq_true, if_false]
      split
      · split <;> rfl
      · rfl
  | _ => rfl

theorem timeout_connect (s : ClientTimers) (ep : Address × BitVec 16) (id : Uuid) :
    (s.connect ep id).watch.timeout = s.watch.timeout := by
  unfold connect
  split
  · refine (timeout_modifyTimer _ _ _).trans ?_
    exact (Function.update_eq_self _ _).trans (timeout_follow s _)
  · rfl

theorem timeout_receive (s : ClientTimers) (p : SessionPtr) (frame : Frame) :
    (s.receive p frame).watch.timeout = (Event.heard (.receive p frame)).elim s.watch.timeout
      fun p => Function.update s.watch.timeout p 0 := by
  unfold receive Event.heard
  dsimp only
  rw [timeout_follow]
  cases frame.command with
  | none => rfl
  | some cmd =>
      refine (timeout_modifyTimer _ p _).trans ?_
      rw [timeout_beat, Option.any_some]
      by_cases hbeats : cmd.beats = true
      · simp only [hbeats, if_true]
        rfl
      · simp only [hbeats]
        exact Function.update_eq_self p s.watch.timeout

theorem heard_of_runs {k : Client} (h : e.runs s.client = some k) : e.heard = none := by
  cases e with
  | receive p frame => cases h
  | _ => rfl

theorem timeout_step (h : s.step e = some t) (htimeout : ∀ p i, e ≠ .stunTimeout p i) :
    t.watch.timeout =
      e.heard.elim s.watch.timeout fun p => Function.update s.watch.timeout p 0 := by
  cases move_of_step h with
  | connect ep id => exact timeout_connect s ep id
  | connectDone hi =>
      unfold connectDone
      simp only [hi]
      split
      · exact timeout_follow _ _
      · rfl
  | resolveFail hi =>
      unfold resolveFail
      simp only [hi]
      exact timeout_follow _ _
  | accept => exact timeout_follow _ _
  | receive p frame => exact timeout_receive s p frame
  | follow hruns =>
      rw [heard_of_runs hruns]
      exact timeout_follow _ _
  | tick seconds => rfl
  | expire p i =>
      exact (timeout_modifyTimer s p _).trans (Function.update_eq_self p s.watch.timeout)
  | @stunTimeout p i _ _ => exact absurd rfl (htimeout p i)
  | connectionExpire i _ => rfl
  | connectionTimeout _ _ =>
      unfold handleConnectionTimeout
      dsimp only
      split
      · exact timeout_connect _ _ _
      · rfl
  | stop _ _ _ _ htimer => exact funext fun p => congrArg (fun f => (f p).timeout) htimer

/-- What the handler of a wait does with a session that it finds. -/
inductive Handled (s : ClientTimers) (p : SessionPtr) : ClientTimers → Prop
  | early {t : ClientTimers} : (s.timer p).expired s.now = false →
      t.client.sessionMgr = s.client.sessionMgr → t.watch.timeout = s.watch.timeout → Handled s p t
  | removed {t : ClientTimers} : (s.timer p).expired s.now = true →
      (s.timer p).timeout = Session.maxTimeout →
      t.client = s.client.removeSession (s.client.session p).id →
      t.watch.timeout = s.watch.timeout → Handled s p t
  | pinged {t : ClientTimers} : (s.timer p).expired s.now = true →
      (s.timer p).timeout ≠ Session.maxTimeout →
      t.client = s.client.sendCommand (s.client.session p).id Client.ping →
      t.watch.timeout = Function.update s.watch.timeout p ((s.timer p).timeout + 1) → Handled s p t

theorem handled_handleStunTimeout {id : Uuid} (h : s.client.sessionMgr.find id = some p) :
    s.Handled p (s.handleStunTimeout id) := by
  simp only [handleStunTimeout, h]
  split
  · next hexpired =>
      split
      · next hmax => exact .removed hexpired hmax rfl (timeout_follow _ _)
      · next hmax =>
          refine .pinged hexpired hmax rfl ?_
          refine (timeout_modifyTimer _ p _).trans ((Function.update_eq_self p _).trans ?_)
          exact (timeout_follow _ _).trans (timeout_modifyTimer s p _)
  · next hexpired =>
      refine .early (by simpa using hexpired) rfl ?_
      exact (timeout_modifyTimer s p _).trans (Function.update_eq_self p s.watch.timeout)

theorem heard_of_entering (h : s.entering e = some p) : e.heard = none := by
  cases e with
  | receive q frame =>
      obtain ⟨hasked, -⟩ := Option.ite_none_right_eq_some.1 h
      unfold Event.heard
      unfold Client.asked at hasked
      split at hasked
      · next hframe => simp [hframe, Command.beats]
      · next hframe => simp [hframe, Command.beats]
      · cases hasked
  | _ => rfl

/-- A step other than that of a handler of a wait is a step of the watchdog. -/
theorem watch_other (hs : s.Watched l) (hadmitted : s.Admitted e) (h : s.step e = some t)
    (htimeout : ∀ p i, e ≠ .stunTimeout p i) :
    s.watch.Step Session.maxTimeout t.watch (s.observe e) := by
  have hcounter := timeout_step h htimeout
  cases hentering : s.entering e with
  | some p =>
      have hleft := left_step hs hadmitted h hentering
      rw [heard_of_entering hentering] at hcounter
      have hobserve : s.observe e =
          if t.client.sessionMgr.find (t.client.session p).id = some p then some (.registered p)
          else none := by
        simp [observe, hentering, h]
      rw [hobserve]
      split
      · have hidle := hs.roster.idle p (.inl (by rw [hleft.place]; exact Nat.succ_pos _))
        exact .registered hidle (fun key q hq => (hleft.find key q hq).symm.imp_left And.left)
          hcounter
      · next hnot =>
          refine .rest (fun key q hq => ?_) hcounter
          rcases hleft.find key q hq with hold | ⟨rfl, rfl⟩
          · exact hold
          · exact absurd hq hnot
  | none =>
      have hkept := kept_step h hentering
      cases hheard : e.heard with
      | some p =>
          have hobserve : s.observe e = some (.heard p) := by
            simp [observe, hentering, hheard]
          rw [hheard] at hcounter
          rw [hobserve]
          exact .heard hkept.find hcounter
      | none =>
          have hobserve : s.observe e = none := by
            unfold observe
            rw [hentering, hheard]
            cases e with
            | stunTimeout p i => exact absurd rfl (htimeout p i)
            | _ => rfl
          rw [hheard] at hcounter
          rw [hobserve]
          exact .rest hkept.find hcounter

theorem stunTimeout_step {i : Nat} (h : s.step (.stunTimeout p i) = some t) :
    ∃ w, (s.timer p).waits[i]? = some w ∧ t = (s.takeWait p i).handleStunTimeout w.sessionId := by
  cases move_of_step h with
  | follow hruns => cases hruns
  | stunTimeout hw => exact ⟨_, hw, rfl⟩

theorem observe_found {i : Nat} {w : Wait} {q : SessionPtr}
    (hw : (s.timer p).waits[i]? = some w)
    (hfind : s.client.sessionMgr.find w.sessionId = some q)
    (h : s.step (.stunTimeout p i) = some t) : s.observe (.stunTimeout p i) =
      if (s.timer q).expired s.now then some (.expired q (s.pinged t q)) else none := by
  simp only [observe, entering, Event.heard, hw, hfind, Option.bind_some, h, Option.any_some]

theorem timer_takeWait (s : ClientTimers) (p : SessionPtr) (i : Nat) (q : SessionPtr) :
    ((s.takeWait p i).timer q).timeout = (s.timer q).timeout ∧
      ((s.takeWait p i).timer q).expired s.now = (s.timer q).expired s.now := by
  simp only [takeWait, modifyTimer, Function.update_apply]
  split
  · next hq => rw [hq]; exact ⟨rfl, rfl⟩
  · exact ⟨rfl, rfl⟩

/-- The handler of a wait is a step of the watchdog. -/
theorem watch_handled (hs : s.Watched l) {i : Nat} (h : s.step (.stunTimeout p i) = some t) :
    s.watch.Step Session.maxTimeout t.watch (s.observe (.stunTimeout p i)) := by
  obtain ⟨w, hw, ht⟩ := stunTimeout_step h
  have htaken : (s.takeWait p i).watch.timeout = s.watch.timeout :=
    funext fun q => (timer_takeWait s p i q).1
  cases hfind : s.client.sessionMgr.find w.sessionId with
  | none =>
      have hobserve : s.observe (.stunTimeout p i) = none := by
        simp only [observe, entering, Event.heard, hw, hfind, Option.bind_some, Option.bind_none]
      have hgone : (s.takeWait p i).client.sessionMgr.find w.sessionId = none := hfind
      rw [hobserve, ht]
      simp only [handleStunTimeout, hgone]
      exact .rest (fun _ _ hq => hq) htaken
  | some q =>
      obtain ⟨htimeout, hexpiry⟩ := timer_takeWait s p i q
      rw [observe_found hw hfind h]
      have hid : (s.client.session q).id = w.sessionId := (hs.roster.keyed _ q hfind).1
      have hhandled := handled_handleStunTimeout (s := s.takeWait p i) hfind
      rw [← ht] at hhandled
      cases hhandled with
      | early hnow hmgr hcount =>
          rw [if_neg (by rw [← hexpiry]; exact Bool.eq_false_iff.1 hnow)]
          refine .rest (fun key r hr => ?_) (hcount.trans htaken)
          simp only [watch, hmgr] at hr
          exact hr
      | removed hnow hmax hclient hcount =>
          have hremoved : t.client.sessionMgr = s.client.sessionMgr.removeSession w.sessionId := by
            have hclient : t.client = s.client.removeSession (s.client.session q).id := hclient
            rw [hclient, hid, Client.removeSession, hfind]
          have hfound : ∀ key r, t.client.sessionMgr.find key = some r ↔
              s.client.sessionMgr.find key = some r ∧ r ≠ q := by
            rw [hremoved]
            exact SessionMgr.find_removeSession_iff hfind fun key hr =>
              (hs.roster.keyed key q hr).1.symm.trans hid
          have hnot : s.pinged t q = false := by
            have hgone : t.client.sessionMgr.find (s.client.session q).id ≠ some q := fun h =>
              ((hfound _ _).1 h).2 rfl
            simp [pinged, hgone]
          rw [if_pos (by rw [← hexpiry]; exact hnow), hnot]
          exact .removed (htimeout.symm.trans hmax) hfound (hcount.trans htaken)
      | pinged hnow hmax hclient hcount =>
          have hsent : t.client = { s.client with
              sent := s.client.sent ++ [(w.sessionId, .ofCommand Client.ping)] } := by
            have hclient : t.client = s.client.sendCommand (s.client.session q).id Client.ping :=
              hclient
            rw [hclient, hid, Client.sendCommand, Client.send, hfind]
          have hpinged : s.pinged t q = true := by
            simp [pinged, hid, hsent, hfind]
          rw [if_pos (by rw [← hexpiry]; exact hnow), hpinged]
          rw [htimeout] at hmax hcount
          rw [htaken] at hcount
          refine .probed hfind (Nat.lt_of_le_of_ne (hs.counted.bounded q) hmax) ?_ hcount
          simp only [watch, hsent]

theorem watch_step (hs : s.Watched l) (hadmitted : s.Admitted e) (h : s.step e = some t) :
    s.watch.Step Session.maxTimeout t.watch (s.observe e) := by
  by_cases htimeout : ∀ p i, e ≠ .stunTimeout p i
  · exact watch_other hs hadmitted h htimeout
  · push Not at htimeout
    obtain ⟨p, i, rfl⟩ := htimeout
    exact watch_handled hs h

theorem pending_pos_of_connects {x : SessionPtr × SessionConfig} (hx : x ∈ s.client.connects) :
    0 < s.pending x.1 := by
  have hcount : 0 < (s.client.connects.map Prod.fst).count x.1 :=
    List.count_pos_iff.2 (List.mem_map_of_mem hx)
  simp only [pending, Client.claims]
  omega

theorem Watched.step (hs : s.Watched l) (hadmitted : s.Admitted e) (h : s.step e = some t) :
    t.Watched (l ++ (s.observe e).toList) := by
  have hwatch := watch_step hs hadmitted h
  have hidle : ∀ p, (∀ key, s.roster.find key ≠ some p) → (s.timer p).timeout = 0 →
      (t.timer p).timeout = 0 := fun p hp hzero => hwatch.timeout_eq_zero hzero hp
  cases hentering : s.entering e with
  | none =>
      have hkept := kept_step h hentering
      refine ⟨hkept.sound hs.roster hidle, fun x hx => ?_, hs.counted.step hwatch⟩
      rcases hkept.named x hx with hold | ⟨-, hnew⟩
      · have hbound := hs.roster.bound x.1 (pending_pos_of_connects hold)
        exact (hkept.id x.1 hbound).trans (hs.named x hold)
      · exact hnew
  | some p =>
      have hleft := left_step hs hadmitted h hentering
      refine ⟨hleft.sound hs.roster hidle, fun x hx => ?_, hs.counted.step hwatch⟩
      have hne : x.1 ≠ p := by
        intro hxp
        have honce : s.pending p ≤ 1 := hs.roster.once p
        have hplace : s.pending p = t.pending p + 1 := hleft.place
        have hpos := pending_pos_of_connects hx
        rw [hxp] at hpos
        omega
      exact (hleft.id x.1 hne).trans (hs.named x (hleft.connects x hx))

theorem watched_of_reachable {s : ClientTimers × List (Beat SessionPtr)}
    (h : (system.recording observe).ReachableWhile (fun s e => s.1.Admitted e) s) :
    s.1.Watched s.2 := by
  refine h.recorded (P := Admitted) (fun s hs => ?_) fun s l e t hs hadmitted h =>
    hs.step hadmitted h
  obtain ⟨clientId, network, rfl⟩ := hs
  refine ⟨⟨fun key p hp => (nomatch hp), fun p => Nat.zero_le _, fun p hp => ?_, fun _ _ => rfl⟩,
    fun x hx => (nomatch hx), fun _ => Nat.zero_le _, fun id p hp => (nomatch hp)⟩
  exact absurd hp (Nat.lt_irrefl 0)

/-- A handler of a wait that removes a session has found a timer expired. -/
theorem expired_of_removed {i : Nat} {id : Uuid} {q : SessionPtr}
    (h : s.step (.stunTimeout p i) = some t) (hbefore : s.client.sessionMgr.find id = some q)
    (hafter : t.client.sessionMgr.find id ≠ some q) :
    ∃ q' probed, s.observe (.stunTimeout p i) = some (.expired q' probed) := by
  obtain ⟨w, hw, ht⟩ := stunTimeout_step h
  cases hfind : s.client.sessionMgr.find w.sessionId with
  | none =>
      have hgone : (s.takeWait p i).client.sessionMgr.find w.sessionId = none := hfind
      rw [ht] at hafter
      simp only [handleStunTimeout, hgone] at hafter
      exact absurd hbefore hafter
  | some q' =>
      rw [observe_found hw hfind h]
      obtain ⟨-, hexpiry⟩ := timer_takeWait s p i q'
      have hhandled := handled_handleStunTimeout (s := s.takeWait p i) hfind
      rw [← ht] at hhandled
      cases hhandled with
      | early _ hmgr _ =>
          have hmgr : t.client.sessionMgr = s.client.sessionMgr := hmgr
          exact absurd (hmgr ▸ hbefore) hafter
      | removed hnow _ _ _ => exact ⟨_, _, if_pos (by rw [← hexpiry]; exact hnow)⟩
      | pinged hnow _ _ _ => exact ⟨_, _, if_pos (by rw [← hexpiry]; exact hnow)⟩

theorem Watched.overdue (hs : s.Watched l) {i : Nat} {id : Uuid} {q : SessionPtr}
    (h : s.step (.stunTimeout p i) = some t) (hbefore : s.client.sessionMgr.find id = some q)
    (hafter : t.client.sessionMgr.find id ≠ some q) :
    Overdue Session.maxTimeout q (l ++ (s.observe (.stunTimeout p i)).toList) := by
  obtain ⟨q', probed, hobserve⟩ := expired_of_removed h hbefore hafter
  have hwatch := watch_handled hs h
  rw [hobserve] at hwatch ⊢
  exact hs.counted.removed hwatch hbefore hafter

end ClientTimers

/-- On the server and on the client alike, in every run in which each connection makes
at most one connect request, no counter exceeds its limit, and a session that the
handler of a wait removes is overdue. -/
theorem removal_justified :
    (∀ s, (Server.system.recording Server.observe).ReachableWhile
        (fun s e => s.1.Admitted e) s →
      (∀ c, (s.1.conns c).session.timeout ≤ Session.maxTimeout) ∧
      ∀ c i t id d, s.1.Admitted (.stunTimeout c i) → s.1.step (.stunTimeout c i) = some t →
        s.1.stunMgr.find id = some d → t.stunMgr.find id ≠ some d →
          Overdue Session.maxTimeout d (s.2 ++ (s.1.observe (.stunTimeout c i)).toList)) ∧
    ∀ s, (ClientTimers.system.recording ClientTimers.observe).ReachableWhile
        (fun s e => s.1.Admitted e) s →
      (∀ p, (s.1.timer p).timeout ≤ Session.maxTimeout) ∧
      ∀ p i t id q, s.1.step (.stunTimeout p i) = some t →
        s.1.client.sessionMgr.find id = some q → t.client.sessionMgr.find id ≠ some q →
          Overdue Session.maxTimeout q (s.2 ++ (s.1.observe (.stunTimeout p i)).toList) := by
  constructor
  · intro s hreach
    have hs := Server.watched_of_reachable hreach
    exact ⟨hs.counted.bounded, fun c i t id d hadmitted h hbefore hafter =>
      hs.overdue hadmitted h hbefore hafter⟩
  · intro s hreach
    have hs := ClientTimers.watched_of_reachable hreach
    exact ⟨hs.counted.bounded, fun p i t id q h hbefore hafter => hs.overdue h hbefore hafter⟩

namespace Server

instance (m : Membership) (r : Request) : Decidable (m.FirstRequest r) :=
  inferInstanceAs (Decidable (_ = _))

instance (s : Server) (e : Event) : Decidable (s.Admitted e) :=
  decidable_of_iff ((∀ r ∈ s.request e, s.membership.FirstRequest r) ∧ s.hung = false) Iff.rfl

/-- Client 1 registers, and does not answer three pings. -/
def silentRun : List Event :=
  connectRun 0 .stun 1 ++ [.tick 5, .expire 0 0, .stunTimeout 0 0, .tick 5, .expire 0 0,
    .stunTimeout 0 0, .tick 5, .expire 0 0, .stunTimeout 0 0, .tick 5, .expire 0 0]

end Server

namespace ClientTimers

instance (s : ClientTimers) (e : Event) : Decidable (s.Admitted e) := by
  unfold Admitted
  split <;> infer_instance

/-- Client 7 connects to the server, which does not answer three pings. -/
def silentRun : List Event :=
  [.connect (.v4 0, 9) 7, .connectDone 0 true, .receive 0 (.ofCommand (Client.readyReply .stun)),
    .stunTimeout 0 0, .tick 5, .expire 0 0, .stunTimeout 0 0, .tick 5, .expire 0 0,
    .stunTimeout 0 0, .tick 5, .expire 0 0, .stunTimeout 0 0, .tick 5, .expire 0 0]

end ClientTimers

/-- The fourth time that its timer is found expired each of them is removed. -/
theorem silentRun_removed :
    (∃ s t, (Server.system.recording Server.observe).execWhile (fun s e => s.1.Admitted e)
        ({}, []) Server.silentRun = some s ∧
      s.1.step (.stunTimeout 0 0) = some t ∧ s.1.stunMgr.find 1 = some 0 ∧
      t.stunMgr.find 1 = none ∧
      Overdue Session.maxTimeout 0 (s.2 ++ (s.1.observe (.stunTimeout 0 0)).toList)) ∧
    ∃ s t, (ClientTimers.system.recording ClientTimers.observe).execWhile
        (fun s e => s.1.Admitted e) ({ client := { clientId := 7 } }, []) ClientTimers.silentRun =
          some s ∧
      s.1.step (.stunTimeout 0 0) = some t ∧ s.1.client.sessionMgr.find 7 = some 0 ∧
      t.client.sessionMgr.find 7 = none ∧
      Overdue Session.maxTimeout 0 (s.2 ++ (s.1.observe (.stunTimeout 0 0)).toList) := by
  have hserver : ((Server.system.recording Server.observe).execWhile (fun s e => s.1.Admitted e)
      ({}, []) Server.silentRun).bind (fun s => (s.1.step (.stunTimeout 0 0)).map fun t =>
        (s.1.stunMgr.find 1, t.stunMgr.find 1, s.1.hung)) = some (some 0, none, false) := by
    decide +kernel
  have hclient : ((ClientTimers.system.recording ClientTimers.observe).execWhile
      (fun s e => s.1.Admitted e) ({ client := { clientId := 7 } }, []) ClientTimers.silentRun).bind
      (fun s => (s.1.step (.stunTimeout 0 0)).map fun t =>
        (s.1.client.sessionMgr.find 7, t.client.sessionMgr.find 7)) = some (some 0, none) := by
    decide +kernel
  constructor
  · obtain ⟨s, hs, h⟩ := Option.bind_eq_some_iff.1 hserver
    obtain ⟨t, ht, hview⟩ := Option.map_eq_some_iff.1 h
    obtain ⟨hbefore, hrest⟩ := Prod.mk.inj hview
    obtain ⟨hafter, hhung⟩ := Prod.mk.inj hrest
    have hinit : (Server.system.recording Server.observe).init ({}, []) := ⟨rfl, rfl⟩
    refine ⟨s, t, hs, ht, hbefore, hafter, ?_⟩
    exact (removal_justified.1 s ((System.ReachableWhile.init hinit).execWhile hs)).2 0 0 t 1 0
      ⟨(fun _ hr => nomatch hr), hhung⟩ ht hbefore (by rw [hafter]; exact nofun)
  · obtain ⟨s, hs, h⟩ := Option.bind_eq_some_iff.1 hclient
    obtain ⟨t, ht, hview⟩ := Option.map_eq_some_iff.1 h
    obtain ⟨hbefore, hafter⟩ := Prod.mk.inj hview
    have hinit : (ClientTimers.system.recording ClientTimers.observe).init
        ({ client := { clientId := 7 } }, []) := ⟨⟨7, 0, rfl⟩, rfl⟩
    refine ⟨s, t, hs, ht, hbefore, hafter, ?_⟩
    exact (removal_justified.2 s ((System.ReachableWhile.init hinit).execWhile hs)).2 0 0 t 7 0
      ht hbefore (by rw [hafter]; exact nofun)

end OpenNat
