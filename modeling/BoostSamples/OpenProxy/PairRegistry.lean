import BoostSamples.OpenProxy.RejectedLogin

/-!
# The pair registry of the proxy

A session is registered under the id and in the half of the type it has at that
moment. Both are in the session object, and `Initialize` goes on reading control
frames after a login, so a second login on the same connection rewrites them
behind the key of the registry. The failure handlers remove by the id of the
session and then miss the first entry.

The ghost state records the connections whose failure handler has run: that of
their read, or that of a write to them.
-/

namespace OpenProxy

open Registry Transition

namespace Proxy

variable {κ : Type*} [DecidableEq κ]

def login (A : TextArchive) (s : Proxy κ) : ProxyEvent κ → Option (κ × Login)
  | .handle c =>
      match (s.conns c).reader with
      | .completed .initializing bytes =>
          match A.deserialize (s.conns c).session.buffWrite bytes with
          | some event =>
              if event.hasLogin ∧ (event.login.hasSessionId && event.login.hasClientId &&
                  event.login.hasType) then some (c, event.login)
              else none
          | none => none
      | _ => none
  | _ => none

def body (A : TextArchive) (s : Proxy κ) (c : κ) (bytes : Nat) :
    Loop → Except (Proxy κ) (Proxy κ)
  | .initializing => s.handleInitialize A c bytes
  | .receiving => s.handleReceive c bytes

def failure (A : TextArchive) (s : Proxy κ) : ProxyEvent κ → Option κ
  | .handle c =>
      match (s.conns c).reader with
      | .completed loop bytes =>
          match (s.setReader c .idle).body A c bytes loop with
          | .error _ => some c
          | .ok _ => none
      | _ => none
  | .readFail c => some c
  | .writeFail i => (s.writes[i]?).map WriteOp.dest
  | _ => none

/-- An accepted connection stays one and keeps the id and type of its session. -/
structure SamePlace (x y : Conn) : Prop where
  accepted : x.accepted = true → y.accepted = true
  id : x.accepted = true → y.session.id = x.session.id
  type : x.accepted = true → y.session.type = x.session.type

structure Shrunk (s t : Proxy κ) : Prop where
  place : ∀ c, SamePlace (s.conns c) (t.conns c)
  pairs : ∀ key p, t.proxyMgr.find key = some p → s.proxyMgr.find key = some p

namespace Shrunk

variable {s t u : Proxy κ}

omit [DecidableEq κ] in
theorem refl (s : Proxy κ) : s.Shrunk s :=
  ⟨fun _ => ⟨fun h => h, fun _ => rfl, fun _ => rfl⟩, fun _ _ h => h⟩

omit [DecidableEq κ] in
theorem trans (h : s.Shrunk t) (h' : t.Shrunk u) : s.Shrunk u where
  place c := by
    refine ⟨fun hc => ?_, fun hc => ?_, fun hc => ?_⟩
    · exact (h'.place c).accepted ((h.place c).accepted hc)
    · exact ((h'.place c).id ((h.place c).accepted hc)).trans ((h.place c).id hc)
    · exact ((h'.place c).type ((h.place c).accepted hc)).trans ((h.place c).type hc)
  pairs key p hp := h.pairs key p (h'.pairs key p hp)

theorem modify (s : Proxy κ) (c : κ) {f : Conn → Conn}
    (h : SamePlace (s.conns c) (f (s.conns c))) : s.Shrunk (s.modify c f) where
  place c' := by
    by_cases hc : c' = c
    · subst hc
      rw [conns_modify_self]
      exact h
    · rw [conns_modify_of_ne _ _ _ hc]
      exact (refl s).place c'
  pairs _ _ h := h

theorem modifySession (s : Proxy κ) (c : κ) {g : Session → Session}
    (hid : (g (s.conns c).session).id = (s.conns c).session.id)
    (htype : (g (s.conns c).session).type = (s.conns c).session.type) :
    s.Shrunk (s.modifySession c g) :=
  modify s c ⟨fun h => h, fun _ => hid, fun _ => htype⟩

theorem setReader (s : Proxy κ) (c : κ) (reader : Reader) : s.Shrunk (s.setReader c reader) :=
  modify s c ⟨fun h => h, fun _ => rfl, fun _ => rfl⟩

omit [DecidableEq κ] in
theorem of_eq (hconns : t.conns = s.conns) (hmgr : t.proxyMgr = s.proxyMgr) : s.Shrunk t where
  place c := by
    rw [hconns]
    exact (refl s).place c
  pairs key p h := by rwa [hmgr] at h

theorem stopHalf (s : Proxy κ) (half : Option κ) : s.Shrunk (s.stopHalf half) := by
  cases half with
  | none => exact refl s
  | some c =>
      refine modifySession s c ?_ ?_
      · unfold Session.stop
        split <;> rfl
      · unfold Session.stop
        split <;> rfl

theorem removeSession (s : Proxy κ) (id : Uuid) : s.Shrunk (s.removeSession id) := by
  unfold Proxy.removeSession
  split
  · exact refl s
  · next p hp =>
      have hstop := (stopHalf s p.down).trans (stopHalf _ p.up)
      refine ⟨hstop.place, fun key q hq => ?_⟩
      exact (PairMap.find_of_find_remove hq).2

omit [DecidableEq κ] in
theorem send (s : Proxy κ) (dest : Option κ) (source : κ) : s.Shrunk (s.send dest source) := by
  cases dest <;> exact of_eq rfl rfl

omit [DecidableEq κ] in
theorem sendReady (s : Proxy κ) (dest : Option κ) (source : κ) :
    s.Shrunk (s.sendReady dest source) := by
  cases dest <;> exact of_eq rfl rfl

omit [DecidableEq κ] in
theorem greet (s : Proxy κ) (c : κ) (d : Side) (p : Pair κ) : s.Shrunk (s.greet c d p) := by
  unfold Proxy.greet
  split
  · exact refl s
  · exact (sendReady s _ c).trans (sendReady _ _ _)

theorem writeHandler (s : Proxy κ) (w : WriteOp κ) : s.Shrunk (s.writeHandler w) := by
  unfold Proxy.writeHandler
  split
  · exact modify s _ ⟨fun h => h, fun _ => rfl, fun _ => rfl⟩
  · exact (modifySession s _ rfl rfl).trans (modifySession _ _ rfl rfl)

end Shrunk

/-- The connection reads, is the source of a write or is in a pair. -/
def Used (s : Proxy κ) (c : κ) : Prop :=
  (s.conns c).reader ≠ .idle ∨ (∃ w ∈ s.writes, w.source = c) ∨
    ∃ key p, s.proxyMgr.find key = some p ∧ p.Contains c

/-- Only accepted connections are in use. -/
def Live (s : Proxy κ) : Prop := ∀ c, s.Used c → (s.conns c).accepted = true

namespace Live

variable {s t : Proxy κ}

omit [DecidableEq κ] in
/-- Changes that keep the connections keep `Live` if the pairs shrink and new
writes come from accepted connections. -/
theorem of_conns (hs : s.Live) (hconns : t.conns = s.conns)
    (hpairs : ∀ key p, t.proxyMgr.find key = some p → s.proxyMgr.find key = some p)
    (hwrites : ∀ w ∈ t.writes, w ∈ s.writes ∨ (s.conns w.source).accepted = true) :
    t.Live := by
  rintro c (hreader | ⟨w, hw, rfl⟩ | ⟨key, p, hp, hc⟩)
  · rw [hconns] at hreader ⊢
    exact hs c (.inl hreader)
  · rw [hconns]
    rcases hwrites w hw with hold | haccepted
    · exact hs w.source (.inr (.inl ⟨w, hold, rfl⟩))
    · exact haccepted
  · rw [hconns]
    exact hs c (.inr (.inr ⟨key, p, hpairs key p hp, hc⟩))

theorem modify (hs : s.Live) {c : κ} {f : Conn → Conn}
    (hc : (f (s.conns c)).accepted = true) : (s.modify c f).Live := by
  intro c' hused
  by_cases h : c' = c
  · subst h
    simpa using hc
  · rw [conns_modify_of_ne _ _ _ h]
    refine hs c' ?_
    rwa [Used, conns_modify_of_ne _ _ _ h] at hused

theorem modify_of_eq (hs : s.Live) {c : κ} {f : Conn → Conn}
    (hreader : (f (s.conns c)).reader = (s.conns c).reader)
    (haccepted : (f (s.conns c)).accepted = (s.conns c).accepted) :
    (s.modify c f).Live := by
  intro c' hused
  by_cases h : c' = c
  · subst h
    rw [conns_modify_self, haccepted]
    refine hs c' ?_
    rwa [Used, conns_modify_self, hreader] at hused
  · rw [conns_modify_of_ne _ _ _ h]
    refine hs c' ?_
    rwa [Used, conns_modify_of_ne _ _ _ h] at hused

theorem modifySession (hs : s.Live) {c : κ} {g : Session → Session} :
    (s.modifySession c g).Live :=
  hs.modify_of_eq rfl rfl

theorem setReader_idle (hs : s.Live) {c : κ} : (s.setReader c .idle).Live := by
  by_cases haccepted : (s.conns c).accepted = true
  · exact hs.modify haccepted
  · intro c' hused
    by_cases h : c' = c
    · subst h
      rcases hused with hreader | hused
      · simp at hreader
      · rw [conns_setReader_self]
        exact hs c' (.inr hused)
    · rw [setReader, conns_modify_of_ne _ _ _ h]
      refine hs c' ?_
      rwa [Used, setReader, conns_modify_of_ne _ _ _ h] at hused

theorem stopHalf (hs : s.Live) (half : Option κ) : (s.stopHalf half).Live := by
  cases half with
  | none => exact hs
  | some c => exact hs.modifySession

theorem removeSession (hs : s.Live) (id : Uuid) : (s.removeSession id).Live := by
  unfold Proxy.removeSession
  split
  · exact hs
  · next p hp =>
      have hmgr : ((s.stopHalf p.down).stopHalf p.up).proxyMgr = s.proxyMgr := by
        cases p.down <;> cases p.up <;> rfl
      refine ((hs.stopHalf p.down).stopHalf p.up).of_conns rfl ?_ fun w hw => .inl hw
      intro key q hq
      rw [hmgr]
      exact (PairMap.find_of_find_remove hq).2

omit [DecidableEq κ] in
theorem send (hs : s.Live) (dest : Option κ) {source : κ}
    (hsource : (s.conns source).accepted = true) : (s.send dest source).Live := by
  cases dest with
  | none => exact hs.of_conns rfl (fun _ _ h => h) fun w hw => .inl hw
  | some c =>
      refine hs.of_conns rfl (fun _ _ h => h) fun w hw => ?_
      rcases List.mem_append.1 hw with hold | hnew
      · exact .inl hold
      · obtain rfl := List.mem_singleton.1 hnew
        exact .inr hsource

omit [DecidableEq κ] in
theorem sendReady (hs : s.Live) (dest : Option κ) {source : κ}
    (hsource : (s.conns source).accepted = true) : (s.sendReady dest source).Live := by
  cases dest with
  | none => exact hs.of_conns rfl (fun _ _ h => h) fun w hw => .inl hw
  | some c =>
      refine hs.of_conns rfl (fun _ _ h => h) fun w hw => ?_
      rcases List.mem_append.1 hw with hold | hnew
      · exact .inl hold
      · obtain rfl := List.mem_singleton.1 hnew
        exact .inr hsource

end Live

/-- What handling a complete login does: the session takes what it asks for, and
it is registered, or the pair it asks for is removed. -/
structure LoggedIn (s t : Proxy κ) (c : κ) (login : Login) : Prop where
  id : (t.conns c).session.id = login.sessionId
  type : (t.conns c).session.type = login.type
  otherId : ∀ c', c' ≠ c → (t.conns c').session.id = (s.conns c').session.id
  otherType : ∀ c', c' ≠ c → (t.conns c').session.type = (s.conns c').session.type
  pairs : s.proxyMgr.add login.sessionId login.type.side c = some t.proxyMgr ∨
    (s.proxyMgr.add login.sessionId login.type.side c = none ∧
      ∀ key, t.proxyMgr.find key =
        if key = login.sessionId then none else s.proxyMgr.find key)

section Handlers

variable {A : TextArchive} {s t : Proxy κ} {c : κ} {bytes : Nat}

theorem session_stopHalf (half : Option κ) (c' : κ) :
    ((s.stopHalf half).conns c').session.id = (s.conns c').session.id ∧
      ((s.stopHalf half).conns c').session.type = (s.conns c').session.type := by
  cases half with
  | none => exact ⟨rfl, rfl⟩
  | some c =>
      by_cases hc : c' = c
      · subst hc
        rw [stopHalf, conns_modifySession_self, Session.stop]
        split <;> exact ⟨rfl, rfl⟩
      · rw [stopHalf, modifySession, conns_modify_of_ne _ _ _ hc]
        exact ⟨rfl, rfl⟩

theorem session_removeSession (id : Uuid) (c' : κ) :
    ((s.removeSession id).conns c').session.id = (s.conns c').session.id ∧
      ((s.removeSession id).conns c').session.type = (s.conns c').session.type := by
  unfold removeSession
  split
  · exact ⟨rfl, rfl⟩
  · next p _ =>
      obtain ⟨hid, htype⟩ := session_stopHalf (s := s) p.down c'
      obtain ⟨hid', htype'⟩ := session_stopHalf (s := s.stopHalf p.down) p.up c'
      exact ⟨hid'.trans hid, htype'.trans htype⟩

theorem id_removeSession (id : Uuid) (c' : κ) :
    ((s.removeSession id).conns c').session.id = (s.conns c').session.id :=
  (session_removeSession id c').1

theorem type_removeSession (id : Uuid) (c' : κ) :
    ((s.removeSession id).conns c').session.type = (s.conns c').session.type :=
  (session_removeSession id c').2

theorem find_removeSession_eq (id key : Uuid) :
    (s.removeSession id).proxyMgr.find key =
      if key = id then none else s.proxyMgr.find key := by
  unfold removeSession
  split
  · next hnone =>
      split
      · next hkey => rw [hkey, hnone]
      · rfl
  · exact PairMap.find_remove _ _ _

inductive Initialized (A : TextArchive) (s : Proxy κ) (c : κ) (bytes : Nat) : Proxy κ → Prop
  | undecoded : Initialized A s c bytes s
  | consumed : Initialized A s c bytes
      (s.modifySession c fun x => { x with buffWrite := x.buffWrite.drop bytes })
  | refused {event : Event} :
      A.deserialize (s.conns c).session.buffWrite bytes = some event →
      event.hasLogin = true → (event.login.hasSessionId && event.login.hasClientId &&
        event.login.hasType) = true →
      s.proxyMgr.add event.login.sessionId event.login.type.side c = none →
      Initialized A s c bytes (s.loggedIn c bytes event.login)
  | registered {event : Event} {mgr : PairMap Uuid κ} :
      A.deserialize (s.conns c).session.buffWrite bytes = some event →
      event.hasLogin = true → (event.login.hasSessionId && event.login.hasClientId &&
        event.login.hasType) = true →
      s.proxyMgr.add event.login.sessionId event.login.type.side c = some mgr →
      Initialized A s c bytes
        ({ s.loggedIn c bytes event.login with proxyMgr := mgr }.setReader c
          (.starting .initializing))
  | unpaired : Initialized A s c bytes
      (s.modifySession c fun x => { x with bytesWrite := bytes })
  | greeted {p : Pair κ} {d : Side} :
      s.proxyMgr.find (s.conns c).session.id = some p →
      (s.conns c).session.type.side = some d →
      Initialized A s c bytes
        (((s.modifySession c fun x => { x with bytesWrite := bytes }).greet c d p).setReader c
          (.starting .receiving))

/-- The body of a handler ends in the state, or throws in it. -/
def Ends (r : Except (Proxy κ) (Proxy κ)) (t : Proxy κ) : Prop := r = .ok t ∨ r = .error t

theorem initialized_of_ends (h : Ends (s.handleInitialize A c bytes) t) :
    s.Initialized A c bytes t := by
  cases hevent : A.deserialize (s.conns c).session.buffWrite bytes with
  | none =>
      rw [handleInitialize, hevent] at h
      rcases h with h | h
      · cases h
      · cases h
        exact .undecoded
  | some event =>
      by_cases hhas : event.hasLogin = true
      · by_cases hcomplete : (event.login.hasSessionId && event.login.hasClientId &&
          event.login.hasType) = true
        · rw [handleInitialize_login hevent hhas hcomplete] at h
          cases hadd : s.proxyMgr.add event.login.sessionId event.login.type.side c with
          | none =>
              rw [hadd] at h
              rcases h with h | h
              · cases h
              · cases h
                exact .refused hevent hhas hcomplete hadd
          | some mgr =>
              rw [hadd] at h
              rcases h with h | h
              · cases h
                exact .registered hevent hhas hcomplete hadd
              · cases h
        · simp only [handleInitialize, hevent, hhas, if_true, if_neg hcomplete] at h
          rcases h with h | h
          · cases h
          · cases h
            exact .consumed
      · rw [Bool.not_eq_true] at hhas
        by_cases hgreet : event.hasGreeting = true
        · cases hpair : s.proxyMgr.find (s.conns c).session.id with
          | none =>
              simp only [handleInitialize, hevent, hhas, hgreet, Bool.false_eq_true, if_false,
                if_true, proxyMgr_modifySession, conns_modifySession_self, hpair] at h
              rcases h with h | h
              · cases h
              · cases h
                exact .unpaired
          | some p =>
              cases hside : (s.conns c).session.type.side with
              | some d =>
                  rw [handleInitialize_greeting hevent hhas hgreet hpair hside] at h
                  rcases h with h | h
                  · cases h
                    exact .greeted hpair hside
                  · cases h
              | none =>
                  have htype : (s.conns c).session.type = .unknown := by
                    cases htype : (s.conns c).session.type <;> rw [htype] at hside <;>
                      first | rfl | cases hside
                  simp only [handleInitialize, hevent, hhas, hgreet, Bool.false_eq_true, if_false,
                    if_true, proxyMgr_modifySession, conns_modifySession_self, hpair,
                    htype] at h
                  rcases h with h | h
                  · cases h
                  · cases h
                    exact .unpaired
        · simp only [handleInitialize, hevent, hhas, hgreet, Bool.false_eq_true,
            if_false] at h
          rcases h with h | h
          · cases h
          · cases h
            exact .consumed

inductive Received (s : Proxy κ) (c : κ) (bytes : Nat) : Proxy κ → Prop
  | unpaired : Received s c bytes s
  | sent {p : Pair κ} {d : Side} :
      s.proxyMgr.find (s.conns c).session.id = some p →
      (s.conns c).session.type.side = some d →
      Received s c bytes
        ((s.modifySession c fun x => { x with bytesRead := bytes }).send (p.get d.other) c)

theorem received_of_ends (h : Ends (s.handleReceive c bytes) t) : s.Received c bytes t := by
  cases hpair : s.proxyMgr.find (s.conns c).session.id with
  | none =>
      simp only [handleReceive, hpair] at h
      rcases h with h | h
      · cases h
      · cases h
        exact .unpaired
  | some p =>
      cases hside : (s.conns c).session.type.side with
      | some d =>
          rw [handleReceive_data hpair hside] at h
          rcases h with h | h
          · cases h
            exact .sent hpair hside
          · cases h
      | none =>
          have htype : (s.conns c).session.type = .unknown := by
            cases htype : (s.conns c).session.type <;> rw [htype] at hside <;>
              first | rfl | cases hside
          simp only [handleReceive, hpair, htype] at h
          rcases h with h | h
          · cases h
          · cases h
            exact .unpaired

/-- A read handler ends, or its failure handler runs on the state in which it
threw. -/
theorem handleRead_cases (A : TextArchive) (s : Proxy κ) (c : κ) (loop : Loop) (bytes : Nat) :
    (∃ u, s.body A c bytes loop = .ok u ∧ s.handleRead A c loop bytes = u) ∨
    (∃ u, s.body A c bytes loop = .error u ∧ s.handleRead A c loop bytes = u.readCatch c) := by
  cases hbody : s.body A c bytes loop with
  | ok u =>
      refine .inl ⟨u, rfl, ?_⟩
      cases loop <;> simp only [body] at hbody <;> simp only [handleRead, hbody]
  | error u =>
      refine .inr ⟨u, rfl, ?_⟩
      cases loop <;> simp only [body] at hbody <;> simp only [handleRead, hbody]

theorem Initialized.shrunk (h : s.Initialized A c bytes t)
    (hlogin : ∀ event, A.deserialize (s.conns c).session.buffWrite bytes = some event →
      event.hasLogin = true → (event.login.hasSessionId && event.login.hasClientId &&
        event.login.hasType) = true → False) : s.Shrunk t := by
  cases h with
  | undecoded => exact Shrunk.refl s
  | consumed => exact Shrunk.modifySession s c rfl rfl
  | refused hevent hhas hcomplete _ => exact (hlogin _ hevent hhas hcomplete).elim
  | registered hevent hhas hcomplete _ => exact (hlogin _ hevent hhas hcomplete).elim
  | unpaired => exact Shrunk.modifySession s c rfl rfl
  | greeted _ _ =>
      exact ((Shrunk.modifySession s c rfl rfl).trans (Shrunk.greet _ _ _ _)).trans
        (Shrunk.setReader _ _ _)

theorem Received.shrunk (h : s.Received c bytes t) : s.Shrunk t := by
  cases h with
  | unpaired => exact Shrunk.refl s
  | sent _ _ => exact (Shrunk.modifySession s c rfl rfl).trans (Shrunk.send _ _ _)

omit [DecidableEq κ] in
theorem accepted_greet (s : Proxy κ) (c c' : κ) (d : Side) (p : Pair κ) :
    ((s.greet c d p).conns c').accepted = (s.conns c').accepted := by
  unfold greet
  split
  · rfl
  · cases p.get d <;> rfl

omit [DecidableEq κ] in
theorem Live.greet (hs : s.Live) {d : Side} {key : Uuid} {p : Pair κ}
    (hc : (s.conns c).accepted = true) (hp : s.proxyMgr.find key = some p) :
    (s.greet c d p).Live := by
  unfold Proxy.greet
  split
  · exact hs
  · next opposite hopposite =>
      have haccepted : (s.conns opposite).accepted = true :=
        hs opposite (.inr (.inr ⟨key, p, hp, d.other, hopposite⟩))
      exact (hs.sendReady (some opposite) hc).sendReady (p.get d) haccepted

omit [DecidableEq κ] in
theorem Live.register (hs : s.Live) {key : Uuid} {d : Side} {mgr : PairMap Uuid κ}
    (hc : (s.conns c).accepted = true) (hadd : s.proxyMgr.add key (some d) c = some mgr) :
    ({ s with proxyMgr := mgr } : Proxy κ).Live := by
  obtain ⟨⟨q, hq, hqc, hqother⟩, hrest⟩ := PairMap.find_of_add hadd
  rintro c' (hreader | hwrite | ⟨key', p, hp, e, he⟩)
  · exact hs c' (.inl hreader)
  · exact hs c' (.inr (.inl hwrite))
  · by_cases hkey : key' = key
    · subst hkey
      obtain rfl := Option.some.inj (hq.symm.trans hp)
      rcases d.eq_or_eq_other e with rfl | rfl
      · obtain rfl := Option.some.inj (hqc.symm.trans he)
        exact hc
      · rw [hqother] at he
        obtain ⟨q₀, hq₀, he₀⟩ := Option.bind_eq_some_iff.1 he
        exact hs c' (.inr (.inr ⟨key', q₀, hq₀, d.other, he₀⟩))
    · exact hs c' (.inr (.inr ⟨key', p, (hrest key' hkey) ▸ hp, e, he⟩))

theorem Initialized.live (h : s.Initialized A c bytes t) (hs : s.Live)
    (hc : (s.conns c).accepted = true) : t.Live := by
  cases h with
  | undecoded => exact hs
  | consumed => exact hs.modifySession
  | refused _ _ _ _ => exact hs.modifySession
  | unpaired => exact hs.modifySession
  | @registered event mgr _ _ _ hadd =>
      obtain ⟨d, hd, -⟩ := PairMap.add_eq_some_iff.1 hadd
      rw [hd] at hadd
      have hlogin : (s.loggedIn c bytes event.login).Live := hs.modifySession
      have haccepted : ((s.loggedIn c bytes event.login).conns c).accepted = true := by
        simpa [loggedIn] using hc
      exact (hlogin.register haccepted hadd).modify haccepted
  | @greeted p d hp _ =>
      have hsession : (s.modifySession c fun x => { x with bytesWrite := bytes }).Live :=
        hs.modifySession
      refine (hsession.greet (by simpa using hc) hp).modify ?_
      simpa [accepted_greet] using hc

theorem Received.live (h : s.Received c bytes t) (hs : s.Live)
    (hc : (s.conns c).accepted = true) : t.Live := by
  cases h with
  | unpaired => exact hs
  | sent _ _ => exact hs.modifySession.send _ (by simpa using hc)

end Handlers

section Steps

variable {A : TextArchive} {s t : Proxy κ} {e : ProxyEvent κ}

theorem handleRead_effect (A : TextArchive) (s : Proxy κ) (c : κ) (loop : Loop) (bytes : Nat) :
    ∃ u, Ends ((s.setReader c .idle).body A c bytes loop) u ∧
      ((s.setReader c .idle).handleRead A c loop bytes = u ∨
        (s.setReader c .idle).handleRead A c loop bytes = u.readCatch c) := by
  rcases handleRead_cases A (s.setReader c .idle) c loop bytes with ⟨u, hu, h⟩ | ⟨u, hu, h⟩
  · exact ⟨u, .inl hu, .inl h⟩
  · exact ⟨u, .inr hu, .inr h⟩

theorem live_of_effect (h : Effect A s e t) (hs : s.Live) : t.Live := by
  cases h with
  | accept _ => exact hs.modify rfl
  | arrive haccepted => exact hs.modify haccepted
  | @start c loop hreader =>
      exact hs.modify (hs c (.inl (by simp [hreader])))
  | @read c bytes loop hreader _ _ _ =>
      exact hs.modify (hs c (.inl (by simp [hreader])))
  | @handle c loop bytes hreader =>
      have haccepted : ((s.setReader c .idle).conns c).accepted = true := by
        simpa using hs c (.inl (by simp [hreader]))
      obtain ⟨u, hu, hcatch⟩ := handleRead_effect A s c loop bytes
      have hlive : u.Live := by
        cases loop with
        | initializing => exact (initialized_of_ends hu).live hs.setReader_idle haccepted
        | receiving => exact (received_of_ends hu).live hs.setReader_idle haccepted
      rcases hcatch with h | h
      · rw [h]
        exact hlive
      · rw [h]
        exact hlive.removeSession _
  | readFail _ => exact hs.setReader_idle.removeSession _
  | @write bytes before after w hwrites _ _ _ =>
      have hmodify : (s.modify w.dest fun x =>
          { x with outbound := x.outbound ++ w.rest.take bytes }).Live :=
        hs.modify_of_eq rfl rfl
      refine hmodify.of_conns rfl (fun _ _ h => h) fun w' hw' => ?_
      rcases List.mem_append.1 hw' with hold | hold
      · exact .inl (by simp [hwrites, hold])
      · rcases List.mem_cons.1 hold with rfl | hold
        · refine .inr (hmodify w.source (.inr (.inl ⟨w, by simp [hwrites], rfl⟩)))
        · exact .inl (by simp [hwrites, hold])
  | @writeDone before after w hwrites _ =>
      have hsource : (s.conns w.source).accepted = true :=
        hs w.source (.inr (.inl ⟨w, by simp [hwrites], rfl⟩))
      have hless : ({ s with writes := before ++ after } : Proxy κ).Live := by
        refine hs.of_conns rfl (fun _ _ h => h) fun w' hw' => .inl ?_
        rw [hwrites]
        rcases List.mem_append.1 hw' with hold | hold <;> simp [hold]
      unfold writeHandler
      split
      · exact hless.modify hsource
      · exact hless.modifySession.modifySession
  | @writeFail before after w hwrites _ =>
      have hless : ({ s with writes := before ++ after } : Proxy κ).Live := by
        refine hs.of_conns rfl (fun _ _ h => h) fun w' hw' => .inl ?_
        rw [hwrites]
        rcases List.mem_append.1 hw' with hold | hold <;> simp [hold]
      exact hless.removeSession _

omit [DecidableEq κ] in
theorem login_handle {c : κ} {bytes : Nat} {event : Event}
    (hreader : (s.conns c).reader = .completed .initializing bytes)
    (hevent : A.deserialize (s.conns c).session.buffWrite bytes = some event)
    (hhas : event.hasLogin = true) (hcomplete : (event.login.hasSessionId &&
      event.login.hasClientId && event.login.hasType) = true) :
    s.login A (.handle c) = some (c, event.login) := by
  simp only [login, hreader, hevent]
  exact if_pos ⟨hhas, hcomplete⟩

omit [DecidableEq κ] in
theorem handle_of_login {c : κ} {l : Login} (h : s.login A e = some (c, l)) :
    e = .handle c ∧ ∃ bytes event, (s.conns c).reader = .completed .initializing bytes ∧
      A.deserialize (s.conns c).session.buffWrite bytes = some event ∧
      event.hasLogin = true ∧ (event.login.hasSessionId && event.login.hasClientId &&
        event.login.hasType) = true ∧ l = event.login := by
  unfold login at h
  split at h
  · split at h
    · next bytes hreader =>
        split at h
        · next event hevent =>
            obtain ⟨⟨hhas, hcomplete⟩, h⟩ := Option.ite_none_right_eq_some.1 h
            cases h
            exact ⟨rfl, bytes, event, hreader, hevent, hhas, hcomplete, rfl⟩
        · cases h
    · cases h
  · cases h

/-- A step without a complete login keeps the places and adds no pair. -/
theorem shrunk_of_effect (h : Effect A s e t) (hlogin : s.login A e = none) : s.Shrunk t := by
  cases h with
  | accept haccepted =>
      refine Shrunk.modify s _ ⟨fun h => ?_, fun h => ?_, fun h => ?_⟩
      · rfl
      · cases h.symm.trans haccepted
      · cases h.symm.trans haccepted
  | arrive _ => exact Shrunk.modify s _ ⟨fun h => h, fun _ => rfl, fun _ => rfl⟩
  | start _ => exact Shrunk.setReader s _ _
  | @read c bytes loop _ _ _ _ =>
      refine Shrunk.modify s _ ⟨fun h => h, fun _ => ?_, fun _ => ?_⟩
      · cases loop <;> rfl
      · cases loop <;> rfl
  | @handle c loop bytes hreader =>
      obtain ⟨u, hu, hcatch⟩ := handleRead_effect A s c loop bytes
      have hidle : s.Shrunk (s.setReader c .idle) := Shrunk.setReader s _ _
      have hshrunk : s.Shrunk u := by
        cases loop with
        | receiving => exact hidle.trans (received_of_ends hu).shrunk
        | initializing =>
            refine hidle.trans ((initialized_of_ends hu).shrunk ?_)
            intro event hevent hhas hcomplete
            rw [conns_setReader_self] at hevent
            rw [login_handle hreader hevent hhas hcomplete] at hlogin
            cases hlogin
      rcases hcatch with h | h
      · rw [h]
        exact hshrunk
      · rw [h]
        exact hshrunk.trans (Shrunk.removeSession _ _)
  | readFail _ => exact (Shrunk.setReader s _ _).trans (Shrunk.removeSession _ _)
  | @write bytes before after w hwrites _ _ _ =>
      have hmodify : s.Shrunk (s.modify w.dest fun x =>
          { x with outbound := x.outbound ++ w.rest.take bytes }) :=
        Shrunk.modify s _ ⟨fun h => h, fun _ => rfl, fun _ => rfl⟩
      exact hmodify.trans (Shrunk.of_eq rfl rfl)
  | @writeDone before after w _ _ =>
      have hless : s.Shrunk { s with writes := before ++ after } := Shrunk.of_eq rfl rfl
      exact hless.trans (Shrunk.writeHandler _ _)
  | @writeFail before after w _ _ =>
      have hless : s.Shrunk { s with writes := before ++ after } := Shrunk.of_eq rfl rfl
      exact hless.trans (Shrunk.removeSession _ _)

theorem loggedIn_of_effect {c : κ} {l : Login} (h : Effect A s e t)
    (hlogin : s.login A e = some (c, l)) : s.LoggedIn t c l := by
  obtain ⟨rfl, bytes, event, hreader, hevent, hhas, hcomplete, rfl⟩ := handle_of_login hlogin
  cases h with
  | @handle _ loop bytes' hreader' =>
      obtain ⟨rfl, rfl⟩ : loop = .initializing ∧ bytes' = bytes := by
        rw [hreader] at hreader'
        cases hreader'
        exact ⟨rfl, rfl⟩
      have hevent' : A.deserialize ((s.setReader c .idle).conns c).session.buffWrite bytes' =
          some event := by
        rw [conns_setReader_self]
        exact hevent
      have hself : (((s.setReader c .idle).loggedIn c bytes' event.login).conns c).session.id =
            event.login.sessionId ∧
          (((s.setReader c .idle).loggedIn c bytes' event.login).conns c).session.type =
            event.login.type := by
        simp [loggedIn]
      have hother : ∀ c', c' ≠ c →
          ((s.setReader c .idle).loggedIn c bytes' event.login).conns c' = s.conns c' := by
        intro c' hc
        rw [loggedIn, modifySession, conns_modify_of_ne _ _ _ hc, setReader,
          conns_modify_of_ne _ _ _ hc]
      cases hadd : s.proxyMgr.add event.login.sessionId event.login.type.side c with
      | some mgr =>
          have hread : (s.setReader c .idle).handleRead A c .initializing bytes' =
              { (s.setReader c .idle).loggedIn c bytes' event.login with
                proxyMgr := mgr }.setReader c (.starting .initializing) := by
            simp [handleRead, handleInitialize_login hevent' hhas hcomplete, hadd]
          rw [hread]
          refine ⟨?_, ?_, fun c' hc => ?_, fun c' hc => ?_, .inl hadd⟩
          · simpa [setReader] using hself.1
          · simpa [setReader] using hself.2
          · rw [setReader, conns_modify_of_ne _ _ _ hc]
            exact congrArg (fun x => x.session.id) (hother c' hc)
          · rw [setReader, conns_modify_of_ne _ _ _ hc]
            exact congrArg (fun x => x.session.type) (hother c' hc)
      | none =>
          have hread : (s.setReader c .idle).handleRead A c .initializing bytes' =
              ((s.setReader c .idle).loggedIn c bytes' event.login).removeSession
                event.login.sessionId := by
            simp [handleRead, handleInitialize_login hevent' hhas hcomplete, hadd, readCatch,
              hself.1]
          rw [hread]
          refine ⟨?_, ?_, fun c' hc => ?_, fun c' hc => ?_, .inr ⟨hadd, fun key => ?_⟩⟩
          · rw [id_removeSession, hself.1]
          · rw [type_removeSession, hself.2]
          · rw [id_removeSession, hother c' hc]
          · rw [type_removeSession, hother c' hc]
          · exact find_removeSession_eq _ _

/-- A failure handler removes the pair under the id of its session. -/
theorem find_of_failure {c : κ} (h : Effect A s e t) (hfailure : s.failure A e = some c) :
    t.proxyMgr.find (t.conns c).session.id = none := by
  cases h with
  | @handle c' loop bytes hreader =>
      simp only [failure, hreader] at hfailure
      rcases handleRead_cases A (s.setReader c' .idle) c' loop bytes with
        ⟨u, hu, h⟩ | ⟨u, hu, h⟩
      · simp [hu] at hfailure
      · simp only [hu, Option.some.injEq] at hfailure
        subst hfailure
        rw [h, readCatch, id_removeSession]
        exact find_removeSession u _
  | @readFail c' loop hreader =>
      obtain rfl := Option.some.inj hfailure
      rw [readCatch, id_removeSession]
      exact find_removeSession _ _
  | @writeFail before after w hwrites hrest =>
      simp only [failure, hwrites, List.getElem?_append_right (Nat.le_refl _), Nat.sub_self,
        List.getElem?_cons_zero, Option.map_some, Option.some.injEq] at hfailure
      subst hfailure
      rw [id_removeSession]
      exact find_removeSession _ _
  | accept _ => cases hfailure
  | arrive _ => cases hfailure
  | start _ => cases hfailure
  | read _ _ _ _ => cases hfailure
  | write _ _ _ _ => cases hfailure
  | writeDone _ _ => cases hfailure

end Steps

/-- Each entry is under the id and in the half of its session. -/
def Keyed (s : Proxy κ) : Prop :=
  ∀ key p d c, s.proxyMgr.find key = some p → p.get d = some c →
    (s.conns c).session.id = key ∧ (s.conns c).session.type.side = some d

/-- The login does not part a session from its entry: the connection is in no
pair, or it is refused for the pair it is in. -/
def KeepsEntry (s : Proxy κ) (c : κ) (l : Login) : Prop :=
  ∀ key p, s.proxyMgr.find key = some p → p.Contains c →
    l.sessionId = key ∧ s.proxyMgr.add l.sessionId l.type.side c = none

section Keyed

variable {A : TextArchive} {s t : Proxy κ}

omit [DecidableEq κ] in
theorem Keyed.of_shrunk (hs : s.Keyed) (hlive : s.Live) (h : s.Shrunk t) : t.Keyed := by
  intro key p d c hp hc
  have hold := h.pairs key p hp
  obtain ⟨hid, htype⟩ := hs key p d c hold hc
  have haccepted := hlive c (.inr (.inr ⟨key, p, hold, d, hc⟩))
  exact ⟨((h.place c).id haccepted).trans hid,
    (congrArg StreamType.side ((h.place c).type haccepted)).trans htype⟩

omit [DecidableEq κ] in
/-- A login keeps the registry keyed exactly if it keeps the entry of its
connection. -/
theorem Keyed.loggedIn_iff (hs : s.Keyed) {c : κ} {l : Login} (h : s.LoggedIn t c l) :
    t.Keyed ↔ s.KeepsEntry c l := by
  constructor
  · rintro ht key p hp ⟨d, hc⟩
    rcases h.pairs with hadd | ⟨hadd, hfind⟩
    · obtain ⟨d', hd', hnew⟩ := PairMap.add_eq_some_iff.1 hadd
      rw [hd'] at hadd
      obtain ⟨⟨q, hq, -, hqother⟩, hrest⟩ := PairMap.find_of_add hadd
      by_cases hkey : key = l.sessionId
      · subst hkey
        -- the connection is in the half that was there, which is not its type any more
        have hother : d = d'.other := by
          rcases hnew with ⟨hnone, -⟩ | ⟨p', hp', hempty, -⟩
          · exact nomatch hnone.symm.trans hp
          · obtain rfl := Option.some.inj (hp'.symm.trans hp)
            refine (d'.eq_or_eq_other d).resolve_left fun heq => ?_
            rw [heq, hempty] at hc
            cases hc
        subst hother
        have hqc : q.get d'.other = some c := by rw [hqother, hp, Option.bind_some, hc]
        obtain ⟨-, htype⟩ := ht _ q _ c hq hqc
        rw [h.type, hd'] at htype
        exact absurd (Option.some.inj htype).symm d'.other_ne
      · obtain ⟨hid, -⟩ := ht key p d c ((hrest key hkey).trans hp) hc
        exact absurd (hid.symm.trans h.id) hkey
    · by_cases hkey : key = l.sessionId
      · exact ⟨hkey.symm, hadd⟩
      · have hp' : t.proxyMgr.find key = some p := by rw [hfind, if_neg hkey, hp]
        exact absurd ((ht key p d c hp' hc).1.symm.trans h.id) hkey
  · intro hkeeps key p d c' hp hc'
    have hsame : ∀ p₀, s.proxyMgr.find key = some p₀ → p₀.get d = some c' → c' ≠ c →
        (t.conns c').session.id = key ∧ (t.conns c').session.type.side = some d := by
      intro p₀ hp₀ hc₀ hne
      rw [h.otherId c' hne, h.otherType c' hne]
      exact hs key p₀ d c' hp₀ hc₀
    rcases h.pairs with hadd | ⟨hadd, hfind⟩
    · have hnot : ∀ key p d, s.proxyMgr.find key = some p → p.get d ≠ some c := by
        intro key p d hp hc
        exact nomatch hadd.symm.trans (hkeeps key p hp ⟨d, hc⟩).2
      obtain ⟨d', hd', -⟩ := PairMap.add_eq_some_iff.1 hadd
      rw [hd'] at hadd
      obtain ⟨⟨q, hq, hqc, hqother⟩, hrest⟩ := PairMap.find_of_add hadd
      by_cases hkey : key = l.sessionId
      · subst hkey
        obtain rfl := Option.some.inj (hq.symm.trans hp)
        rcases d'.eq_or_eq_other d with rfl | rfl
        · obtain rfl := Option.some.inj (hqc.symm.trans hc')
          exact ⟨h.id, (congrArg StreamType.side h.type).trans hd'⟩
        · rw [hqother] at hc'
          obtain ⟨p₀, hp₀, hc₀⟩ := Option.bind_eq_some_iff.1 hc'
          exact hsame p₀ hp₀ hc₀ fun heq => hnot _ p₀ _ hp₀ (heq ▸ hc₀)
      · rw [hrest key hkey] at hp
        exact hsame p hp hc' fun heq => hnot _ p _ hp (heq ▸ hc')
    · rw [hfind] at hp
      obtain ⟨hkey, hp⟩ := Option.ite_none_left_eq_some.1 hp
      refine hsame p hp hc' fun heq => ?_
      exact hkey (hkeeps key p hp ⟨d, heq ▸ hc'⟩).1.symm

end Keyed

structure Watched (κ : Type*) where
  proxy : Proxy κ
  failed : κ → Bool

def watched (A : TextArchive) : System (Watched κ) (ProxyEvent κ) where
  init w := w = ⟨start, fun _ => false⟩
  step w e := (w.proxy.step A e).map fun t =>
    ⟨t, fun c => w.failed c || w.proxy.failure A e = some c⟩

structure EntryInvariant (w : Watched κ) : Prop where
  down : ∀ key p c, w.proxy.proxyMgr.find key = some p → p.down = some c →
    (w.proxy.conns c).session.id = key ∧ (w.proxy.conns c).session.type = .downstream
  up : ∀ key p c, w.proxy.proxyMgr.find key = some p → p.up = some c →
    (w.proxy.conns c).session.id = key ∧ (w.proxy.conns c).session.type = .upstream
  slot : ∀ key key' p p' d d' c, w.proxy.proxyMgr.find key = some p → p.get d = some c →
    w.proxy.proxyMgr.find key' = some p' → p'.get d' = some c → key = key' ∧ d = d'
  released : ∀ c, w.failed c = true → ∀ key p, w.proxy.proxyMgr.find key = some p →
    ¬ p.Contains c

/-- Each complete login keeps the entry of its connection, and is refused if the
failure handler of the connection has run. -/
def LoginsKeepEntries (A : TextArchive) (w : Watched κ) (e : ProxyEvent κ) : Prop :=
  ∀ c l, w.proxy.login A e = some (c, l) → w.proxy.KeepsEntry c l ∧
    (w.failed c = true → w.proxy.proxyMgr.add l.sessionId l.type.side c = none)

def Released (w : Watched κ) : Prop :=
  ∀ c, w.failed c = true → ∀ key p, w.proxy.proxyMgr.find key = some p → ¬ p.Contains c

omit [DecidableEq κ] in
theorem not_contains_of_keyed {t : Proxy κ} (ht : t.Keyed) {c : κ}
    (h : t.proxyMgr.find (t.conns c).session.id = none) {key : Uuid} {p : Pair κ}
    (hp : t.proxyMgr.find key = some p) : ¬ p.Contains c := by
  rintro ⟨d, hc⟩
  rw [(ht key p d c hp hc).1, hp] at h
  cases h

/-- A step adds at most the connection of an accepted login to the pairs. -/
theorem contains_of_step {A : TextArchive} {w : Watched κ} {e : ProxyEvent κ} {t : Proxy κ}
    (h : Effect A w.proxy e t) (hkeeps : LoginsKeepEntries A w e) {c : κ}
    (hc : w.failed c = true) {key : Uuid} {p : Pair κ} (hp : t.proxyMgr.find key = some p)
    (hcontains : p.Contains c) :
    ∃ p₀, w.proxy.proxyMgr.find key = some p₀ ∧ p₀.Contains c := by
  cases hlogin : w.proxy.login A e with
  | none => exact ⟨p, (shrunk_of_effect h hlogin).pairs key p hp, hcontains⟩
  | some login =>
      obtain ⟨c', l⟩ := login
      rcases (loggedIn_of_effect h hlogin).pairs with hadd | ⟨-, hfind⟩
      · have hne : c ≠ c' := by
          rintro rfl
          exact nomatch hadd.symm.trans ((hkeeps c l hlogin).2 hc)
        obtain ⟨d', hd', -⟩ := PairMap.add_eq_some_iff.1 hadd
        rw [hd'] at hadd
        obtain ⟨⟨q, hq, hqc, hqother⟩, hrest⟩ := PairMap.find_of_add hadd
        by_cases hkey : key = l.sessionId
        · subst hkey
          obtain rfl := Option.some.inj (hq.symm.trans hp)
          obtain ⟨d, hd⟩ := hcontains
          rcases d'.eq_or_eq_other d with rfl | rfl
          · exact absurd (Option.some.inj (hqc.symm.trans hd)).symm hne
          · rw [hqother] at hd
            obtain ⟨p₀, hp₀, hd₀⟩ := Option.bind_eq_some_iff.1 hd
            exact ⟨p₀, hp₀, d'.other, hd₀⟩
        · exact ⟨p, (hrest key hkey).symm.trans hp, hcontains⟩
      · rw [hfind] at hp
        exact ⟨p, (Option.ite_none_left_eq_some.1 hp).2, hcontains⟩

theorem registered_of_reachable {A : TextArchive} {w : Watched κ}
    (h : (watched A).ReachableWhile (LoginsKeepEntries A) w) :
    w.proxy.Live ∧ w.proxy.Keyed ∧ Released w := by
  refine h.invariant (I := fun w => w.proxy.Live ∧ w.proxy.Keyed ∧ Released w)
    (fun w hw => ?_) fun w e w' hw hkeeps hstep => ?_
  · obtain rfl : w = ⟨start, fun _ => false⟩ := hw
    refine ⟨?_, by rintro key p d c ⟨⟩, by rintro c ⟨⟩⟩
    rintro c (hreader | ⟨_, hw, -⟩ | ⟨_, _, hp, -⟩)
    · exact absurd rfl hreader
    · cases hw
    · cases hp
  · obtain ⟨hlive, hkeyed, hreleased⟩ := hw
    obtain ⟨t, ht, rfl⟩ := Option.map_eq_some_iff.1 hstep
    obtain ⟨-, heffect⟩ := effect_of_step ht
    have hkeyed' : t.Keyed := by
      cases hlogin : w.proxy.login A e with
      | none => exact hkeyed.of_shrunk hlive (shrunk_of_effect heffect hlogin)
      | some login =>
          obtain ⟨c, l⟩ := login
          exact (hkeyed.loggedIn_iff (loggedIn_of_effect heffect hlogin)).2
            (hkeeps c l hlogin).1
    refine ⟨live_of_effect heffect hlive, hkeyed', fun c hc key p hp => ?_⟩
    rcases Bool.or_eq_true_iff.1 hc with hold | hnew
    · intro hcontains
      obtain ⟨p₀, hp₀, hc₀⟩ := contains_of_step heffect hkeeps hold hp hcontains
      exact hreleased c hold key p₀ hp₀ hc₀
    · exact not_contains_of_keyed hkeyed'
        (find_of_failure heffect (by simpa using hnew)) hp

theorem side_eq_down {type : StreamType} : type.side = some .down ↔ type = .downstream := by
  cases type <;> simp [StreamType.side]

theorem side_eq_up {type : StreamType} : type.side = some .up ↔ type = .upstream := by
  cases type <;> simp [StreamType.side]

/-- In every run in which no login parts a session from its entry, the entries
are under the ids and types of their sessions, each connection has at most one,
and one whose failure handler has run has none. -/
theorem entryInvariant_of_reachable {A : TextArchive} {w : Watched κ}
    (h : (watched A).ReachableWhile (LoginsKeepEntries A) w) : EntryInvariant w := by
  obtain ⟨-, hkeyed, hreleased⟩ := registered_of_reachable h
  refine ⟨fun key p c hp hc => ?_, fun key p c hp hc => ?_, ?_, hreleased⟩
  · obtain ⟨hid, htype⟩ := hkeyed key p .down c hp hc
    exact ⟨hid, side_eq_down.1 htype⟩
  · obtain ⟨hid, htype⟩ := hkeyed key p .up c hp hc
    exact ⟨hid, side_eq_up.1 htype⟩
  · intro key key' p p' d d' c hp hc hp' hc'
    obtain ⟨hid, htype⟩ := hkeyed key p d c hp hc
    obtain ⟨hid', htype'⟩ := hkeyed key' p' d' c hp' hc'
    exact ⟨hid.symm.trans hid', Option.some.inj (htype.symm.trans htype')⟩

/-- A connection logs in to session 1 and then to session 2, and its next read
fails. -/
def twiceRun : List (ProxyEvent Nat) :=
  let second := plainText.serialize (.ofLogin nilUuid 2 .upstream)
  frameRun plainText 0 (.ofLogin nilUuid 1 .upstream) ++
    [.handle 0, .arrive 0 second, .start 0, .read 0 second.length, .handle 0, .start 0,
      .readFail 0]

/-- The entry of the first login is left behind. -/
theorem twiceRun_not_entryInvariant :
    ∃ w : Watched Nat, (watched plainText).Reachable w ∧ ¬ EntryInvariant w := by
  have hrun : ((watched plainText).exec ⟨start, fun _ => false⟩ twiceRun).map
      (fun w => (w.failed 0, w.proxy.proxyMgr.find 1)) =
      some (true, some ⟨none, some 0⟩) := by decide +kernel
  obtain ⟨w, hw, hfinal⟩ := Option.map_eq_some_iff.1 hrun
  obtain ⟨hfailed, hfind⟩ := Prod.mk.inj hfinal
  refine ⟨w, System.Reachable.exec (.init rfl) hw, fun h => ?_⟩
  exact h.released 0 hfailed 1 _ hfind ⟨.up, rfl⟩

section Runs

variable {A : TextArchive} {w : Watched κ}

/-- Events that neither log in nor fail, whatever the state is. -/
theorem reachable_of_exec {es : List (ProxyEvent κ)} {t : Proxy κ}
    (hw : (watched A).ReachableWhile (LoginsKeepEntries A) w)
    (hes : ∀ e ∈ es, ∀ s : Proxy κ, s.login A e = none ∧ s.failure A e = none)
    (h : (system A).exec w.proxy es = some t) :
    (watched A).ReachableWhile (LoginsKeepEntries A) ⟨t, w.failed⟩ := by
  induction es generalizing w with
  | nil =>
      obtain rfl := Option.some.inj h
      exact hw
  | cons e es ih =>
      rw [System.exec_cons] at h
      obtain ⟨s, hs, hrest⟩ := Option.bind_eq_some_iff.1 h
      obtain ⟨hlogin, hfailure⟩ := hes e List.mem_cons_self w.proxy
      have hstep : (watched A).step w e = some ⟨s, w.failed⟩ := by
        have hs' : w.proxy.step A e = some s := hs
        simp [watched, hs', hfailure]
      refine ih (w := ⟨s, w.failed⟩) (hw.step ?_ hstep)
        (fun e' he' => hes e' (List.mem_cons_of_mem e he')) hrest
      intro c l hl
      cases hlogin.symm.trans hl

theorem reachable_of_login {mgr : PairMap Uuid κ} (c : κ) (id : Uuid) (type : StreamType)
    (hw : (watched A).ReachableWhile (LoginsKeepEntries A) w) (hfault : w.proxy.fault = false)
    (hnew : (w.proxy.conns c).accepted = false) (hfailed : w.failed c = false)
    (hfree : ∀ key p, w.proxy.proxyMgr.find key = some p → ¬ p.Contains c)
    (hadd : w.proxy.proxyMgr.add id type.side c = some mgr) :
    (watched A).ReachableWhile (LoginsKeepEntries A)
      ⟨{ w.proxy.modify c fun _ =>
          { session := { id := id, type := type, bytesRead := 0, bytesWrite := 0 }
            accepted := true
            reader := .starting .initializing } with
        proxyMgr := mgr }, w.failed⟩ := by
  have hframe := reachable_of_exec hw (by simp [frameRun, login, failure])
    (exec_frameRun A (c := c) (.ofLogin nilUuid id type) hfault hnew)
  have hrun := exec_loginRun A hfault hnew hadd
  rw [System.exec_append, exec_frameRun A _ hfault hnew, Option.bind_some] at hrun
  obtain ⟨t, ht, hsame⟩ := Option.bind_eq_some_iff.1 hrun
  obtain rfl := Option.some.inj hsame
  have hdecoded := A.deserialize_serialize (.ofLogin nilUuid id type) []
  rw [List.append_nil] at hdecoded
  have hfailure : (w.proxy.modify c fun _ => frameConn A (.ofLogin nilUuid id type)).failure A
      (.handle c) = none := by
    simp only [failure, conns_modify_self, frameConn, body]
    rw [handleInitialize_login (by simpa using hdecoded) rfl rfl]
    simp only [proxyMgr_setReader, proxyMgr_modify]
    rw [show (Event.ofLogin nilUuid id type).login.sessionId = id from rfl,
      show (Event.ofLogin nilUuid id type).login.type = type from rfl, hadd]
  refine hframe.step (e := .handle c) (fun c' l hl => ?_) ?_
  · obtain ⟨he, -⟩ := handle_of_login hl
    obtain rfl := ProxyEvent.handle.inj he
    refine ⟨fun key p hp hc => absurd hc (hfree key p hp), fun h => ?_⟩
    cases hfailed.symm.trans h
  · have ht' : (w.proxy.modify c fun _ => frameConn A (.ofLogin nilUuid id type)).step A
        (.handle c) = some _ := ht
    simp [watched, ht', hfailure]

end Runs

/-- Two connections log in to the up ends of two sessions, and the next read of the first
one fails: its pair is gone, and that of the other one is left. -/
theorem failRun_entryInvariant :
    ∃ w : Watched Nat, (watched plainText).Reachable w ∧ w.failed 0 = true ∧
      w.proxy.proxyMgr.find 1 = none ∧ w.proxy.proxyMgr.find 2 = some (.single 1 .up) ∧
      EntryInvariant w := by
  have hfirst : (watched plainText).ReachableWhile (LoginsKeepEntries plainText) _ :=
    reachable_of_login 0 1 .upstream (.init rfl) rfl rfl rfl
      (fun _ _ hp => by cases hp) rfl
  have hsecond := reachable_of_login 1 2 .upstream hfirst rfl rfl rfl
    (fun key p hp => by
      obtain ⟨-, hp⟩ := Option.ite_none_right_eq_some.1
        ((PairMap.find_update _ 1 key _).symm.trans hp)
      obtain rfl := Option.some.inj hp
      rintro ⟨_ | _, hd⟩ <;> cases hd) rfl
  have hagain := hsecond.step (e := .start 0) (fun _ _ h => by cases h) rfl
  have hfail := hagain.step (e := .readFail 0) (fun _ _ h => by cases h) rfl
  exact ⟨_, hfail.reachable, rfl, rfl, rfl, entryInvariant_of_reachable hfail⟩

end Proxy

end OpenProxy
