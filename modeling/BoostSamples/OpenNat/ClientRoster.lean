import BoostSamples.OpenNat.ClientTimers
import BoostSamples.Registry.Roster

/-!
# The roster of the client

A session is constructed for an attempt of `Connect`, `DoDirect` or `DoProxy`, or for
a connection that is accepted, and it is registered at most once: by the handler that
ends the attempt, or by the first connect request on the connection.
-/

namespace OpenNat

open Registry Transition

namespace Client

/-- The attempts of `DoDirect` and `DoProxy` in progress for a session. -/
def claims (k : Client) (p : SessionPtr) : Nat :=
  (k.connects.map Prod.fst).count p + k.proxyConnects.count p

/-- The state that a handler has reached, whether or not it has thrown. -/
def reached : Except Client Client → Client
  | .ok k => k
  | .error k => k

/-- The registry and the ids of the sessions, with a number of places given. -/
def roster (k : Client) (pending : SessionPtr → Nat) : Roster Uuid where
  find := k.sessionMgr.find
  id p := (k.session p).id
  pending := pending
  length := k.sessions.length

/-- Nothing is registered, and no session takes another id. A session for a new
attempt of `DoDirect` has the id that the attempt is for. -/
structure Kept (k t : Client) : Prop extends
    Roster.Kept (k.roster k.claims) (t.roster t.claims) where
  named : ∀ x ∈ t.connects, x ∈ k.connects ∨
    x.1 < t.sessions.length ∧ (t.session x.1).id = x.2.sessionId

theorem session_modify_proj {α : Type*} (k : Client) (p q : SessionPtr)
    {f : ClientSession → ClientSession} (g : ClientSession → α) (hg : ∀ x, g (f x) = g x) :
    g ((k.modify p f).session q) = g (k.session q) := by
  simp only [session, modify, List.getD_eq_getElem?_getD, List.getElem?_modify]
  cases k.sessions[q]? with
  | none => simp
  | some x => by_cases hp : p = q <;> simp [hp, hg]

namespace Kept

variable {k t u : Client}

theorem refl (k : Client) : k.Kept k :=
  ⟨⟨fun _ _ h => h, fun _ _ => rfl, fun _ => .inl rfl, Nat.le_refl _⟩, fun _ h => .inl h⟩

theorem trans (h : k.Kept t) (h' : t.Kept u) : k.Kept u where
  find key p hp := h.find key p (h'.find key p hp)
  id p hp := (h'.id p (Nat.lt_of_lt_of_le hp h.length)).trans (h.id p hp)
  pending p := by
    have hlength := h.length
    have hlength' := h'.length
    rcases h.pending p with hsame | ⟨hle, hlt, hone⟩
    · rcases h'.pending p with hsame' | ⟨hle', hlt', hone'⟩
      · exact .inl (hsame'.trans hsame)
      · exact .inr ⟨Nat.le_trans hlength hle', hlt', by rw [hone', hsame]⟩
    · rcases h'.pending p with hsame' | ⟨hle', -, -⟩
      · exact .inr ⟨hle, Nat.lt_of_lt_of_le hlt hlength', hsame'.trans hone⟩
      · exact absurd hlt (Nat.not_lt.2 hle')
  length := Nat.le_trans h.length h'.length
  named x hx := by
    rcases h'.named x hx with hold | hnew
    · refine (h.named x hold).imp_right fun ⟨hlt, hid⟩ => ?_
      exact ⟨Nat.lt_of_lt_of_le hlt h'.length, (h'.id x.1 hlt).trans hid⟩
    · exact .inr hnew

theorem of_eq (hmgr : t.sessionMgr = k.sessionMgr) (hsessions : t.sessions = k.sessions)
    (hconnects : t.connects = k.connects) (hproxy : t.proxyConnects = k.proxyConnects) :
    k.Kept t where
  find key p hp := by
    simp only [roster, hmgr] at hp
    exact hp
  id p _ := by simp only [roster, session, hsessions]
  pending p := .inl (by simp only [roster, claims, hconnects, hproxy])
  length := Nat.le_of_eq (congrArg List.length hsessions.symm)
  named x hx := .inl (hconnects ▸ hx)

theorem modify (k : Client) (p : SessionPtr) {f : ClientSession → ClientSession}
    (hid : ∀ x, (f x).id = x.id) : k.Kept (k.modify p f) where
  find _ _ hp := hp
  id q _ := session_modify_proj k p q ClientSession.id hid
  pending _ := .inl rfl
  length := by simp [roster, Client.modify]
  named _ hx := .inl hx

theorem send (k : Client) (id : Uuid) (frame : Frame) : k.Kept (k.send id frame) := by
  unfold Client.send
  split
  · exact refl k
  · exact of_eq rfl rfl rfl rfl

theorem call (k : Client) (callback : Callback) : k.Kept (k.call callback) :=
  of_eq rfl rfl rfl rfl

theorem removeSession (k : Client) (id : Uuid) : k.Kept (k.removeSession id) := by
  unfold Client.removeSession
  split
  · exact refl k
  · next p _ =>
      have hstop := modify k p (f := fun x => { x with isOpen := false }) fun _ => rfl
      refine ⟨⟨fun key q hq => ?_, hstop.id, hstop.pending, hstop.length⟩, hstop.named⟩
      simp only [roster, SessionMgr.find_removeSession] at hq
      split at hq
      · cases hq
      · exact hq

theorem receiveCatch (k : Client) (p : SessionPtr) : k.Kept (k.receiveCatch p) := by
  unfold Client.receiveCatch
  refine Kept.trans ?_ (call _ _)
  refine Kept.trans ?_ (removeSession _ _)
  split
  · exact of_eq rfl rfl rfl rfl
  · exact refl k

theorem of_construct {x : ClientSession} (hmgr : t.sessionMgr = k.sessionMgr)
    (hsessions : t.sessions = k.sessions ++ [x])
    (hclaims : ∀ p, t.claims p = k.claims p ∨
      p = k.sessions.length ∧ t.claims p = k.claims p + 1)
    (hnamed : ∀ y ∈ t.connects, y ∈ k.connects ∨
      y.1 = k.sessions.length ∧ y.2.sessionId = x.id) : k.Kept t where
  find key p hp := by
    simp only [roster, hmgr] at hp
    exact hp
  id p hp := by
    have hsame : t.session p = k.session p := by
      simp only [session, hsessions, List.getD_eq_getElem?_getD]
      rw [List.getElem?_append_left hp]
    exact congrArg ClientSession.id hsame
  pending p := by
    rcases hclaims p with hsame | ⟨hp, hone⟩
    · exact .inl hsame
    · refine .inr ⟨Nat.le_of_eq hp.symm, ?_, hone⟩
      simp [roster, hsessions, hp]
  length := by simp [roster, hsessions]
  named y hy := by
    rcases hnamed y hy with hold | ⟨hy, hid⟩
    · exact .inl hold
    · right
      rw [hy, hid]
      simp [session, hsessions]

theorem construct (k : Client) (x : ClientSession) : k.Kept (k.construct x) :=
  of_construct rfl rfl (fun _ => .inl rfl) fun _ hy => .inl hy

theorem doProxy (k : Client) (config : SessionConfig) : k.Kept (k.doProxy config) := by
  refine of_construct rfl rfl (fun p => ?_) fun y hy => .inl hy
  simp only [Client.doProxy, claims, Client.construct, List.count_append, List.count_singleton]
  by_cases hp : p = k.sessions.length
  · exact .inr ⟨hp, by simp [hp, Nat.add_assoc]⟩
  · exact .inl (by simp [Ne.symm hp])

theorem doDirect (k : Client) (config : SessionConfig) : k.Kept (k.doDirect config) := by
  unfold Client.doDirect
  split
  · exact of_eq rfl rfl rfl rfl
  · refine of_construct rfl rfl (fun p => ?_) fun y hy => ?_
    · simp only [claims, Client.construct, List.map_append, List.map_cons, List.map_nil,
        List.count_append, List.count_singleton]
      by_cases hp : p = k.sessions.length
      · exact .inr ⟨hp, by simp [hp]; omega⟩
      · exact .inl (by simp [Ne.symm hp])
    · refine (List.mem_append.1 hy).imp_right fun hy => ?_
      obtain rfl := List.mem_singleton.1 hy
      exact ⟨rfl, rfl⟩

theorem direct (k : Client) (clientId sessionId : Uuid) (offer : Offer) :
    k.Kept (k.direct clientId sessionId offer) := send k _ _

theorem runDirect (k : Client) (i : Nat) (offer : Offer) : k.Kept (k.runDirect i offer) := by
  unfold Client.runDirect
  split
  · exact refl k
  · refine Kept.trans ?_ (direct _ _ _ _)
    exact of_eq rfl rfl rfl rfl

theorem runDoDirect (k : Client) (i : Nat) : k.Kept (k.runDoDirect i) := by
  unfold Client.runDoDirect
  split
  · exact refl k
  · refine Kept.trans ?_ (doDirect _ _)
    exact of_eq rfl rfl rfl rfl

theorem postReceive (k : Client) (p : SessionPtr) : k.Kept (k.postReceive p) :=
  modify k p (f := fun x => { x with receives := x.receives + 1 }) fun _ => rfl

theorem postReceiveRaw (k : Client) (p : SessionPtr) : k.Kept (k.postReceiveRaw p) :=
  modify k p (f := fun x => { x with rawReceives := x.rawReceives + 1 }) fun _ => rfl

theorem takeReceive (k : Client) (p : SessionPtr) : k.Kept (k.takeReceive p) :=
  modify k p (f := fun x => { x with receives := x.receives - 1 }) fun _ => rfl

theorem takeReceiveRaw (k : Client) (p : SessionPtr) : k.Kept (k.takeReceiveRaw p) :=
  modify k p (f := fun x => { x with rawReceives := x.rawReceives - 1 }) fun _ => rfl

theorem receiveRaw (k : Client) (p : SessionPtr) (frame : Frame) : k.Kept (k.receiveRaw p frame) :=
  ((takeReceiveRaw k p).trans (call _ _)).trans (postReceiveRaw _ p)

theorem connected (k : Client) (p : SessionPtr) : k.Kept (k.connected p) :=
  (modify k p (f := fun x => { x with isReady := true }) fun _ => rfl).trans (call _ _)

theorem processReply {k t : Client} {p : SessionPtr} {c : Connect} {more : Bool}
    (h : k.processReply p c = .ok (t, more)) : k.Kept t := by
  unfold Client.processReply at h
  cases hkind : c.kind with
  | stun =>
      simp only [hkind] at h
      split at h
      · cases h
      · rw [Except.ok.injEq, Prod.mk.injEq] at h
        rw [← h.1]
        split
        · refine Kept.trans ?_ (connected _ p)
          exact of_eq rfl rfl rfl rfl
        · exact refl k
  | direct =>
      simp only [hkind, Except.ok.injEq] at h
      split at h
      · cases h
        exact connected k p
      · cases h
        exact refl k
  | proxyUp =>
      simp only [hkind, Except.ok.injEq] at h
      split at h
      · cases h
        exact send k _ _
      · split at h
        · cases h
          exact Kept.trans (send k _ _) (connected _ p)
        · cases h
          exact refl k
  | proxyDown =>
      simp only [hkind, Except.ok.injEq] at h
      split at h
      · cases h
        exact send k _ _
      · split at h
        · cases h
          exact connected k p
        · cases h
          exact refl k

theorem removeBan (k : Client) (id : Uuid) : k.Kept (k.removeBan id) := of_eq rfl rfl rfl rfl

theorem processMakeDirect (k : Client) (fromId : UuidText) (m : MakeDirect) :
    k.Kept (reached (k.processMakeDirect fromId m)) := by
  unfold Client.processMakeDirect
  split
  · exact refl k
  · next sessionId _ =>
      have hremove := removeBan k sessionId
      split
      · split
        · exact hremove
        · exact hremove.trans (doProxy _ _)
      · split
        · exact hremove.trans (send _ _ _)
        · split
          · exact doDirect k _
          · exact refl k

theorem processP2P (k : Client) (p : SessionPtr) (p2p : P2P) :
    k.Kept (reached (k.processP2P p p2p)) := by
  unfold Client.processP2P
  split
  · split
    · exact refl k
    · exact call k _
  · split
    · exact refl k
    · exact processMakeDirect k _ _
  · split
    · exact refl k
    · exact doProxy k _
    · exact refl k
  · split
    · exact refl k
    · exact call k _
    · exact refl k

end Kept

variable {k t : Client} {p : SessionPtr} {frame : Frame}

theorem asked_of_connect {cmd : Command} {c : Connect} {id : Uuid}
    (hframe : frame.command = some cmd) (hprotocol : cmd.protocol = .connect)
    (hconnect : cmd.connect = some c) (hrequest : c.protocol = .request)
    (hid : c.clientId = some id) : asked frame = match c.kind with
      | .stun => some (id, .stun)
      | .direct => some (id, .direct)
      | _ => none := by
  obtain ⟨protocol, connect, p2p, heartbeat, subscribe, data⟩ := cmd
  obtain ⟨protocol', kind, clientId, initialized, ready, external⟩ := c
  subst hprotocol hconnect hrequest hid
  rw [asked, hframe]
  cases kind <;> rfl

theorem kept_process {cmd : Command} {more : Bool} (hframe : frame.command = some cmd)
    (hasked : asked frame = none) (h : k.process p cmd = .ok (t, more)) : k.Kept t := by
  unfold process at h
  split at h
  · next hprotocol =>
      split at h
      · cases h
        exact .refl k
      · next c hconnect =>
          obtain ⟨protocol, kind, clientId, initialized, ready, external⟩ := c
          cases protocol with
          | reply =>
              exact .processReply h
          | request =>
              cases clientId with
              | none =>
                  cases kind with
                  | stun => cases h
                  | direct => cases h
                  | proxyUp => cases h; exact .refl k
                  | proxyDown => cases h; exact .refl k
              | some id =>
                  rw [asked_of_connect hframe hprotocol hconnect rfl rfl] at hasked
                  cases kind with
                  | stun => cases hasked
                  | direct => cases hasked
                  | proxyUp => cases h; exact .refl k
                  | proxyDown => cases h; exact .refl k
  · dsimp only at h
    split at h
    · cases h
      exact .refl k
    · split at h
      · cases h
        exact .send k _ _
      · cases h
        exact .refl k
  · split at h
    · cases h
      exact .call k _
    · cases h
    · cases h
      exact .refl k
  · cases h
    exact .refl k
  · cases h
    exact .refl k

theorem processReply_error {c : Connect} (h : k.processReply p c = .error t) : t = k := by
  unfold processReply at h
  split at h
  · split at h
    · exact (Except.error.inj h).symm
    · cases h
  · cases h
  · cases h
  · cases h

theorem process_error {cmd : Command} (h : k.process p cmd = .error t) : t = k := by
  unfold process at h
  split at h
  · split at h
    · cases h
    · next c hconnect =>
        obtain ⟨protocol, kind, clientId, initialized, ready, external⟩ := c
        cases protocol with
        | reply => exact processReply_error h
        | request =>
            cases clientId <;> cases kind <;> cases h
            · rfl
            · rfl
  · dsimp only at h
    split at h
    · cases h
    · split at h <;> cases h
  · split at h <;> cases h
    rfl
  · cases h
  · cases h

theorem kept_receive (k : Client) (p : SessionPtr) (hasked : asked frame = none) :
    k.Kept (k.receive p frame) := by
  have htake := Kept.takeReceive k p
  have hhandled : (k.takeReceive p).Kept (reached ((k.takeReceive p).handleReceive p frame)) := by
    unfold handleReceive
    cases hframe : frame.command with
    | none => exact .refl _
    | some cmd =>
        simp only
        split
        · next p2p _ _ =>
            have hp2p := Kept.processP2P (k.takeReceive p) p p2p
            generalize (k.takeReceive p).processP2P p p2p = result at hp2p
            cases result with
            | ok t => exact hp2p.trans (.postReceive t p)
            | error t => exact hp2p
        · split
          · next t hprocess => exact process_error hprocess ▸ .refl _
          · next t hprocess => exact (kept_process hframe hasked hprocess).trans (.postReceive t p)
          · next t hprocess =>
              exact (kept_process hframe hasked hprocess).trans (.postReceiveRaw t p)
  unfold receive
  generalize (k.takeReceive p).handleReceive p frame = result at hhandled
  cases result with
  | ok t => exact htake.trans hhandled
  | error t => exact htake.trans (hhandled.trans (.receiveCatch t p))

/-- A session leaves its place: it may take an id, and be registered under it. -/
structure Takes (p : SessionPtr) (k t : Client) : Prop where
  find : ∀ key q, t.sessionMgr.find key = some q →
    k.sessionMgr.find key = some q ∨ q = p ∧ key = (t.session p).id
  id : ∀ q, q ≠ p → (t.session q).id = (k.session q).id
  connects : t.connects = k.connects
  claims : t.claims = k.claims
  length : t.sessions.length = k.sessions.length

structure Same (k t : Client) : Prop where
  sessionMgr : t.sessionMgr = k.sessionMgr
  id : ∀ q, (t.session q).id = (k.session q).id
  connects : t.connects = k.connects
  claims : t.claims = k.claims
  length : t.sessions.length = k.sessions.length

namespace Same

theorem modify (k : Client) (p : SessionPtr) {f : ClientSession → ClientSession}
    (hid : ∀ x, (f x).id = x.id) : k.Same (k.modify p f) :=
  ⟨rfl, fun q => session_modify_proj k p q ClientSession.id hid, rfl, rfl,
    by simp [Client.modify]⟩

theorem call (k : Client) (callback : Callback) : k.Same (k.call callback) :=
  ⟨rfl, fun _ => rfl, rfl, rfl, rfl⟩

theorem send (k : Client) (id : Uuid) (frame : Frame) : k.Same (k.send id frame) := by
  unfold Client.send
  split <;> exact ⟨rfl, fun _ => rfl, rfl, rfl, rfl⟩

end Same

namespace Takes

theorem refl (p : SessionPtr) (k : Client) : Takes p k k :=
  ⟨fun _ _ h => .inl h, fun _ _ => rfl, rfl, rfl, rfl⟩

theorem same {u : Client} (h : Takes p k t) (h' : t.Same u) : Takes p k u where
  find key q hq := by
    rw [h'.sessionMgr] at hq
    rw [h'.id]
    exact h.find key q hq
  id q hq := (h'.id q).trans (h.id q hq)
  connects := h'.connects.trans h.connects
  claims := h'.claims.trans h.claims
  length := h'.length.trans h.length

theorem after {u : Client} (h : Takes p t u) (h' : k.Same t) : Takes p k u where
  find key q hq := h'.sessionMgr ▸ h.find key q hq
  id q hq := (h.id q hq).trans (h'.id q)
  connects := h.connects.trans h'.connects
  claims := h.claims.trans h'.claims
  length := h.length.trans h'.length

theorem rename (k : Client) (p : SessionPtr) (f : ClientSession → ClientSession) :
    Takes p k (k.modify p f) where
  find _ _ hq := .inl hq
  id q hq := by
    simp only [session, Client.modify, List.getD_eq_getElem?_getD, List.getElem?_modify,
      if_neg (Ne.symm hq)]
    simp
  connects := rfl
  claims := rfl
  length := by simp [Client.modify]

theorem renamed {f : ClientSession → ClientSession} (h : Takes p k t)
    (hmgr : t.sessionMgr = k.sessionMgr) : Takes p k (t.modify p f) where
  find _ _ hq := .inl (hmgr ▸ hq)
  id q hq := ((rename t p f).id q hq).trans (h.id q hq)
  connects := h.connects
  claims := h.claims
  length := (rename t p f).length.trans h.length

theorem register {id : Uuid} (h : Takes p k t) (hmgr : t.sessionMgr = k.sessionMgr)
    (hid : (t.session p).id = id) : Takes p k { t with
      sessionMgr := ⟨Function.update t.sessionMgr.sessionMap id (some p)⟩ } where
  find key q hq := by
    have hq : Function.update t.sessionMgr.sessionMap id (some p) key = some q := hq
    rw [Function.update_apply] at hq
    split at hq
    · next hkey => exact .inr ⟨(Option.some.inj hq).symm, hkey.trans hid.symm⟩
    · exact .inl (hmgr ▸ hq)
  id := h.id
  connects := h.connects
  claims := h.claims
  length := h.length

theorem modify {f : ClientSession → ClientSession} (h : Takes p k t) (q : SessionPtr)
    (hid : ∀ x, (f x).id = x.id) : Takes p k (t.modify q f) :=
  h.same (.modify t q hid)

theorem postReceive (h : Takes p k t) (q : SessionPtr) : Takes p k (t.postReceive q) :=
  h.modify q fun _ => rfl

theorem postReceiveRaw (h : Takes p k t) (q : SessionPtr) : Takes p k (t.postReceiveRaw q) :=
  h.modify q fun _ => rfl

theorem sendCommand (h : Takes p k t) (id : Uuid) (cmd : Command) :
    Takes p k (t.sendCommand id cmd) :=
  h.same (.send t id _)

theorem call (h : Takes p k t) (callback : Callback) : Takes p k (t.call callback) :=
  h.same (.call t callback)

end Takes

/-- The session of an attempt of `Connect` is registered, or another one has its id. -/
theorem takes_stunDone (k : Client) (p : SessionPtr) : Takes p k (k.stunDone p) := by
  unfold stunDone
  dsimp only
  rcases k.sessionMgr.addSession_cases (k.session p).id p with ⟨-, hadd⟩ | ⟨-, hadd⟩
  · simp only [hadd]
    exact (((Takes.refl p k).register rfl rfl).postReceive p).sendCommand _ _
  · simp only [hadd]
    exact (Takes.refl p k).call _

theorem takes_directDone {i : Nat} {config : SessionConfig} (ok : Bool)
    (hi : k.connects[i]? = some (p, config)) (hid : (k.session p).id = config.sessionId) :
    Takes p { k with connects := k.connects.eraseIdx i } (k.directDone i ok) := by
  unfold directDone
  simp only [hi]
  have hnext := Takes.refl p { k with connects := k.connects.eraseIdx i }
  cases ok with
  | false =>
      exact hnext.same ⟨rfl, fun _ => rfl, rfl, rfl, rfl⟩
  | true =>
      rcases k.sessionMgr.addSession_cases config.sessionId p with ⟨-, hadd⟩ | ⟨-, hadd⟩
      · simp only [hadd, if_true]
        exact ((hnext.register rfl hid).postReceive p).sendCommand _ _
      · simp only [hadd, if_true]
        exact hnext.same ⟨rfl, fun _ => rfl, rfl, rfl, rfl⟩

theorem takes_proxyDone {i : Nat} (ok : Bool) (hi : k.proxyConnects[i]? = some p) :
    Takes p { k with proxyConnects := k.proxyConnects.eraseIdx i } (k.proxyDone i ok) := by
  unfold proxyDone
  simp only [hi]
  have hnext := Takes.refl p { k with proxyConnects := k.proxyConnects.eraseIdx i }
  cases ok with
  | false => exact hnext.call _
  | true =>
      rcases k.sessionMgr.addSession_cases (k.session p).id p with ⟨-, hadd⟩ | ⟨-, hadd⟩
      · have hid : (Client.session { k with proxyConnects := k.proxyConnects.eraseIdx i } p).id =
            (k.session p).id := rfl
        have hregistered := hnext.register rfl hid
        cases hkind : proxyRequest (k.session p).type with
        | none =>
            simp only [hadd, if_true]
            exact hregistered.call _
        | some kind =>
            simp only [hadd, if_true]
            exact (hregistered.sendCommand _ _).postReceive p
      · simp only [hadd, if_true]
        exact hnext.call _

theorem takes_acceptRequest (hp : p < k.sessions.length) (id : Uuid) (type : SessionType) :
    Takes p k (k.acceptRequest p id type).1 := by
  have hnamed := Takes.rename k p fun x => { x with id := id, type := type }
  have hid : ((k.modify p fun x => { x with id := id, type := type }).session p).id = id := by
    rw [session_modify k hp]
  have hmgr : (k.modify p fun x => { x with id := id, type := type }).sessionMgr =
      k.sessionMgr := rfl
  unfold acceptRequest
  rcases k.sessionMgr.addSession_cases id p with ⟨-, hadd⟩ | ⟨-, hadd⟩
  · simp only [hmgr, hadd]
    have hready := (hnamed.register rfl hid).modify p
      (f := fun x => { x with isReady := true }) fun _ => rfl
    split
    · refine ((hready.same ?_).call _).sendCommand _ _
      exact ⟨rfl, fun _ => rfl, rfl, rfl, rfl⟩
    · exact (hready.sendCommand _ _).call _
  · simp only [hmgr, hadd]
    exact hnamed.renamed rfl

theorem handleReceive_of_asked {id : Uuid} {type : SessionType}
    (hasked : asked frame = some (id, type)) : k.handleReceive p frame =
      .ok (if (k.acceptRequest p id type).2 then (k.acceptRequest p id type).1.postReceive p
        else (k.acceptRequest p id type).1.postReceiveRaw p) := by
  unfold asked at hasked
  split at hasked
  · next hframe =>
      cases hasked
      rw [handleReceive, hframe]
      simp only [process]
      rcases k.acceptRequest p id .stun with ⟨t, _ | _⟩ <;> rfl
  · next hframe =>
      cases hasked
      rw [handleReceive, hframe]
      simp only [process]
      rcases k.acceptRequest p id .direct with ⟨t, _ | _⟩ <;> rfl
  · cases hasked

theorem takes_receive (hp : p < k.sessions.length) (hasked : (asked frame).isSome) :
    Takes p k (k.receive p frame) := by
  obtain ⟨⟨id, type⟩, hasked⟩ := Option.isSome_iff_exists.1 hasked
  have htake : k.Same (k.takeReceive p) :=
    .modify k p (f := fun x => { x with receives := x.receives - 1 }) fun _ => rfl
  have hasks := takes_acceptRequest (k := k.takeReceive p) (htake.length ▸ hp) id type
  have htakes := hasks.after htake
  rw [receive, handleReceive_of_asked hasked]
  simp only
  split
  · exact htakes.postReceive p
  · exact htakes.postReceiveRaw p

end Client

end OpenNat
