import BoostSamples.OpenNat.ClientRoster

/-!
# The connection status of the client

`IsConnected` says whether the client is connected to the server. The flag behind it is
set by a STUN connect request that is accepted and by a reply that a STUN session is
ready, whatever the session, and it is cleared by the failure handler of a session with
the client's own id.

So the flag is right as long as it is only set for the client's own session: such a
session vouches for it, because it stays registered and ready, or it has been stopped and
its outstanding read is going to fail.
-/

namespace OpenNat

open Transition

/-- A change of a session that keeps its id and its type, and its state as far as it is
ready, stopped or being read. -/
structure ClientSession.Holds (x y : ClientSession) : Prop where
  id : y.id = x.id
  type : y.type = x.type
  ready : x.isReady = true → y.isReady = true
  closed : x.isOpen = false → y.isOpen = false
  reads : x.receives + x.rawReceives ≤ y.receives + y.rawReceives

namespace ClientSession.Holds

variable {x y z : ClientSession}

theorem refl (x : ClientSession) : x.Holds x := ⟨rfl, rfl, fun h => h, fun h => h, Nat.le_refl _⟩

theorem trans (h : x.Holds y) (h' : y.Holds z) : x.Holds z where
  id := h'.id.trans h.id
  type := h'.type.trans h.type
  ready hx := h'.ready (h.ready hx)
  closed hx := h'.closed (h.closed hx)
  reads := Nat.le_trans h.reads h'.reads

theorem stop (x : ClientSession) : x.Holds { x with isOpen := false } :=
  ⟨rfl, rfl, fun h => h, fun _ => rfl, Nat.le_refl _⟩

theorem setReady (x : ClientSession) : x.Holds { x with isReady := true } :=
  ⟨rfl, rfl, fun _ => rfl, fun h => h, Nat.le_refl _⟩

theorem postReceive (x : ClientSession) : x.Holds { x with receives := x.receives + 1 } :=
  ⟨rfl, rfl, fun h => h, fun h => h, Nat.add_le_add_right (Nat.le_succ _) _⟩

theorem postReceiveRaw (x : ClientSession) :
    x.Holds { x with rawReceives := x.rawReceives + 1 } :=
  ⟨rfl, rfl, fun h => h, fun h => h, Nat.add_le_add_left (Nat.le_succ _) _⟩

end ClientSession.Holds

namespace Client

/-- A change that does not set the flag, and in which a session holds and stays under its
keys unless it is stopped. -/
structure Keeps (q : SessionPtr) (k t : Client) : Prop where
  clientId : t.clientId = k.clientId
  connected : t.isConnected = true → k.isConnected = true
  length : k.sessions.length ≤ t.sessions.length
  session : q < k.sessions.length → (k.session q).Holds (t.session q)
  find : q < k.sessions.length → ∀ key, k.sessionMgr.find key = some q →
    t.sessionMgr.find key = some q ∨ (t.session q).isOpen = false

theorem session_modify_ne (k : Client) {p q : SessionPtr} (f : ClientSession → ClientSession)
    (h : q ≠ p) : (k.modify p f).session q = k.session q := by
  simp [session, modify, List.getD_eq_getElem?_getD, h.symm]

namespace Keeps

variable {q : SessionPtr} {k t u : Client}

theorem refl (q : SessionPtr) (k : Client) : Keeps q k k :=
  ⟨rfl, id, Nat.le_refl _, fun _ => .refl _, fun _ _ h => .inl h⟩

theorem trans (h : Keeps q k t) (h' : Keeps q t u) : Keeps q k u where
  clientId := h'.clientId.trans h.clientId
  connected hu := h.connected (h'.connected hu)
  length := Nat.le_trans h.length h'.length
  session hq := (h.session hq).trans (h'.session (Nat.lt_of_lt_of_le hq h.length))
  find hq key hkey := by
    have hq' := Nat.lt_of_lt_of_le hq h.length
    rcases h.find hq key hkey with hfind | hclosed
    · exact h'.find hq' key hfind
    · exact .inr ((h'.session hq').closed hclosed)

theorem of_extends (h : k.Extends t) (hflag : t.isConnected = true → k.isConnected = true) :
    Keeps q k t where
  clientId := h.clientId
  connected := hflag
  length := h.sessions.length_le
  session hq := by
    rw [h.session hq]
    exact .refl _
  find _ key hkey := by
    rw [h.sessionMgr]
    exact .inl hkey

theorem of_eq (hid : t.clientId = k.clientId)
    (hflag : t.isConnected = true → k.isConnected = true)
    (hmgr : t.sessionMgr = k.sessionMgr) (hsessions : t.sessions = k.sessions) :
    Keeps q k t :=
  of_extends (.of_eq hid hmgr hsessions) hflag

theorem modify (k : Client) {p : SessionPtr} {f : ClientSession → ClientSession}
    (hf : q = p → (k.session q).Holds (f (k.session q))) : Keeps q k (k.modify p f) where
  clientId := rfl
  connected := id
  length := Nat.le_of_eq (List.length_modify ..).symm
  session hq := by
    by_cases hp : q = p
    · obtain rfl := hp
      rw [session_modify k hq]
      exact hf rfl
    · rw [session_modify_ne k f hp]
      exact .refl _
  find _ _ hkey := .inl hkey

theorem call (k : Client) (callback : Callback) : Keeps q k (k.call callback) :=
  of_eq rfl id rfl rfl

theorem send (k : Client) (id : Uuid) (frame : Frame) : Keeps q k (k.send id frame) := by
  rw [Client.send]
  split
  · exact refl q k
  · exact of_eq rfl (fun h => h) rfl rfl

theorem postReceive (k : Client) (p : SessionPtr) : Keeps q k (k.postReceive p) :=
  modify k fun _ => .postReceive _

theorem postReceiveRaw (k : Client) (p : SessionPtr) : Keeps q k (k.postReceiveRaw p) :=
  modify k fun _ => .postReceiveRaw _

theorem connected_of (k : Client) (p : SessionPtr) : Keeps q k (k.connected p) :=
  (modify k fun _ => .setReady _).trans (call _ _)

theorem construct (k : Client) (x : ClientSession) : Keeps q k (k.construct x) :=
  of_extends (.construct k x) id

theorem doProxy (k : Client) (config : SessionConfig) : Keeps q k (k.doProxy config) :=
  of_extends (.doProxy k config) id

theorem doDirect (k : Client) (config : SessionConfig) : Keeps q k (k.doDirect config) := by
  apply of_extends (.doDirect k config)
  rw [Client.doDirect]
  split
  · exact id
  · exact id

theorem runDirect (k : Client) (i : Nat) (offer : Offer) : Keeps q k (k.runDirect i offer) := by
  rw [Client.runDirect]
  split
  · exact refl q k
  · apply Keeps.trans _ (send _ _ _)
    exact of_eq rfl id rfl rfl

theorem runDoDirect (k : Client) (i : Nat) : Keeps q k (k.runDoDirect i) := by
  rw [Client.runDoDirect]
  split
  · exact refl q k
  · apply Keeps.trans _ (doDirect _ _)
    exact of_eq rfl id rfl rfl

theorem removeSession (k : Client) (id : Uuid) : Keeps q k (k.removeSession id) := by
  rw [Client.removeSession]
  split
  · exact refl q k
  · next p hp =>
      have hstop : Keeps q k (k.modify p fun x => { x with isOpen := false }) :=
        modify k fun _ => .stop _
      refine ⟨hstop.clientId, hstop.connected, hstop.length, hstop.session, fun hq key hkey => ?_⟩
      by_cases hid : key = id
      · rw [hid, hp] at hkey
        obtain rfl := Option.some.inj hkey
        right
        exact congrArg ClientSession.isOpen (session_modify k hq)
      · left
        exact (k.sessionMgr.find_removeSession id key).trans ((if_neg hid).trans hkey)

theorem receiveCatch (k : Client) (p : SessionPtr) : Keeps q k (k.receiveCatch p) := by
  rw [Client.receiveCatch]
  apply Keeps.trans _ (call _ _)
  apply Keeps.trans _ (removeSession _ _)
  split
  · exact of_eq rfl nofun rfl rfl
  · exact refl q k

theorem register (k : Client) (p : SessionPtr) {id : Uuid} (h : k.sessionMgr.find id = none) :
    Keeps q k { k with sessionMgr := ⟨Function.update k.sessionMgr.sessionMap id (some p)⟩ } where
  clientId := rfl
  connected hk := hk
  length := Nat.le_refl _
  session _ := .refl _
  find _ key hkey := by
    have hne : key ≠ id := by
      rintro rfl
      rw [h] at hkey
      cases hkey
    left
    exact (k.sessionMgr.find_update id key (some p)).trans ((if_neg hne).trans hkey)

theorem stunDone (k : Client) (p : SessionPtr) : Keeps q k (k.stunDone p) := by
  rw [Client.stunDone]
  rcases k.sessionMgr.addSession_cases (k.session p).id p with ⟨hnone, hadd⟩ | ⟨-, hadd⟩
  · simp only [hadd]
    exact ((register k p hnone).trans (postReceive _ p)).trans (send _ _ _)
  · simp only [hadd]
    exact call k _

theorem directDone (k : Client) (i : Nat) (ok : Bool) : Keeps q k (k.directDone i ok) := by
  rw [Client.directDone]
  split
  · exact refl q k
  · next p config _ =>
      have hnext : Keeps q k { k with connects := k.connects.eraseIdx i } :=
        of_eq rfl id rfl rfl
      cases ok with
      | false => exact hnext.trans (of_eq rfl id rfl rfl)
      | true =>
          rcases k.sessionMgr.addSession_cases config.sessionId p with ⟨hnone, hadd⟩ | ⟨-, hadd⟩
          · simp only [hadd, if_true]
            exact ((hnext.trans (register _ p hnone)).trans (postReceive _ p)).trans (send _ _ _)
          · simp only [hadd, if_true]
            exact hnext.trans (of_eq rfl id rfl rfl)

theorem proxyDone (k : Client) (i : Nat) (ok : Bool) : Keeps q k (k.proxyDone i ok) := by
  rw [Client.proxyDone]
  split
  · exact refl q k
  · next p _ =>
      have hnext : Keeps q k { k with proxyConnects := k.proxyConnects.eraseIdx i } :=
        of_eq rfl id rfl rfl
      cases ok with
      | false => exact hnext.trans (call _ _)
      | true =>
          rcases k.sessionMgr.addSession_cases (k.session p).id p with ⟨hnone, hadd⟩ | ⟨-, hadd⟩
          · have hregistered := hnext.trans (register _ p hnone)
            cases hkind : proxyRequest (k.session p).type with
            | none =>
                simp only [hadd, hkind, if_true]
                exact hregistered.trans (call _ _)
            | some kind =>
                simp only [hadd, hkind, if_true]
                exact (hregistered.trans (send _ _ _)).trans (postReceive _ p)
          · simp only [hadd, if_true]
            exact hnext.trans (call _ _)

/-- What is done between the completion of a read and the post of the next one. -/
theorem around {p : SessionPtr} {f g : ClientSession → ClientSession}
    (hfg : ∀ x y, (f x).Holds y → x.Holds (g y)) (hg : ∀ y, (g y).isOpen = y.isOpen)
    (h : Keeps q (k.modify p f) t) : Keeps q k (t.modify p g) := by
  have hlength : (k.modify p f).sessions.length = k.sessions.length := List.length_modify ..
  constructor
  · exact h.clientId
  · exact h.connected
  · rw [← hlength]
    exact Nat.le_trans h.length (Nat.le_of_eq (List.length_modify ..).symm)
  · intro hq
    have hheld := h.session (hlength ▸ hq)
    by_cases hp : q = p
    · obtain rfl := hp
      rw [session_modify k hq] at hheld
      rw [session_modify t (Nat.lt_of_lt_of_le hq (hlength ▸ h.length))]
      exact hfg _ _ hheld
    · rw [session_modify_ne k f hp] at hheld
      rw [session_modify_ne t g hp]
      exact hheld
  · intro hq key hkey
    rw [session_modify_proj t p q ClientSession.isOpen hg]
    exact h.find (hlength ▸ hq) key hkey

end Keeps

/-- A reply that a STUN session is ready, which tells no external endpoint or one that
can be parsed. -/
def replied (frame : Frame) : Bool :=
  match frame.command with
  | some { protocol := .connect, connect := some ⟨.reply, .stun, _, _, true, external⟩, .. } =>
      (externalOf external).isSome
  | _ => false

def reads (k : Client) (p : SessionPtr) : ℕ :=
  (k.session p).receives + (k.session p).rawReceives

/-- The read of a session that has been stopped is going to fail. -/
def FailurePending (k : Client) : Prop :=
  ∃ p, (k.session p).isOpen = false ∧ 0 < k.reads p

/-- The STUN session of the client is registered under its own id. -/
structure StunSession (k : Client) (p : SessionPtr) : Prop where
  find : k.sessionMgr.find k.clientId = some p
  type : (k.session p).type = .stun

/-- If the client is connected and no read is going to fail, then its STUN session is
registered and ready. -/
def Truthful (k : Client) : Prop :=
  k.isConnected = true → ¬ k.FailurePending →
    ∃ p, k.StunSession p ∧ (k.session p).id = k.clientId ∧ (k.session p).isReady = true

/-- A session of the client's own id that is read, and is the STUN session of the client and
ready or has been stopped. -/
structure Vouches (k : Client) (p : SessionPtr) : Prop where
  lt_length : p < k.sessions.length
  id : (k.session p).id = k.clientId
  reads : 0 < k.reads p
  upright : (k.session p).isOpen = false ∨ k.StunSession p ∧ (k.session p).isReady = true

variable {k t : Client} {p q : SessionPtr} {frame : Frame}

theorem Vouches.truthful (h : k.Vouches p) : k.Truthful := by
  intro _ hpending
  rcases h.upright with hclosed | ⟨hstun, hready⟩
  · exact absurd ⟨p, hclosed, h.reads⟩ hpending
  · exact ⟨p, hstun, h.id, hready⟩

theorem Vouches.keeps (h : k.Vouches q) (hk : Keeps q k t) : t.Vouches q := by
  have hheld := hk.session h.lt_length
  refine ⟨Nat.lt_of_lt_of_le h.lt_length hk.length, ?_, ?_, ?_⟩
  · rw [hheld.id, h.id, hk.clientId]
  · exact Nat.lt_of_lt_of_le h.reads hheld.reads
  · rcases h.upright with hclosed | ⟨hstun, hready⟩
    · exact .inl (hheld.closed hclosed)
    · rcases hk.find h.lt_length k.clientId hstun.find with hfind | hclosed
      · right
        refine ⟨⟨?_, ?_⟩, hheld.ready hready⟩
        · rw [hk.clientId]
          exact hfind
        · rw [hheld.type]
          exact hstun.type
      · exact .inl hclosed

/-- A handler that has failed on a session leaves the client connected only if the session is
not its own. -/
theorem ne_of_isConnected_receiveCatch (h : (k.receiveCatch p).isConnected = true) :
    (k.session p).id ≠ k.clientId := by
  intro hid
  have hflag : ∀ (u : Client) (id : Uuid), (u.removeSession id).isConnected = u.isConnected := by
    intro u id
    rw [removeSession]
    split <;> rfl
  rw [receiveCatch] at h
  simp only [hid, if_true, call, hflag] at h
  cases h

theorem isConnected_processP2P (k : Client) (p : SessionPtr) (p2p : P2P) :
    (reached (k.processP2P p p2p)).isConnected = k.isConnected := by
  have hsend : ∀ (u : Client) (id : Uuid) (frame : Frame),
      (u.send id frame).isConnected = u.isConnected := by
    intro u id frame
    rw [send]
    split <;> rfl
  have hdirect : ∀ config, (k.doDirect config).isConnected = k.isConnected := by
    intro config
    rw [doDirect]
    split <;> rfl
  have hmake : ∀ fromId m,
      (reached (k.processMakeDirect fromId m)).isConnected = k.isConnected := by
    intro fromId m
    rw [processMakeDirect]
    split
    · rfl
    split
    · split <;> rfl
    split
    · exact hsend _ _ _
    split
    · exact hdirect _
    · rfl
  rw [processP2P]
  split
  · split <;> rfl
  · split
    · rfl
    · exact hmake _ _
  · split <;> rfl
  · split <;> rfl

theorem keeps_processP2P (k : Client) (p : SessionPtr) (p2p : P2P) :
    Keeps q k (reached (k.processP2P p p2p)) := by
  have hflag := isConnected_processP2P k p p2p
  rcases k.processP2P_cases p p2p with ⟨-, t, ht, hext⟩ | ⟨-, t, ht, hext⟩
  · rw [ht] at hflag ⊢
    exact .of_extends hext (hflag ▸ id)
  · rw [ht] at hflag ⊢
    exact .of_extends hext (hflag ▸ id)

/-- A reply that a session is ready sets the flag; no other one does. -/
theorem keeps_processReply {c : Connect} {more : Bool} (h : k.processReply p c = .ok (t, more))
    (hc : c.kind = .stun → c.ready = true → externalOf c.external = none) : Keeps q k t := by
  rw [processReply] at h
  cases hkind : c.kind with
  | stun =>
      simp only [hkind] at h
      split at h
      · cases h
      · next hexternal =>
          rw [if_neg fun hready => by simp [hc hkind hready] at hexternal] at h
          cases h
          exact .refl q k
  | direct =>
      simp only [hkind, Except.ok.injEq] at h
      split at h
      · cases h
        exact .connected_of k p
      · cases h
        exact .refl q k
  | proxyUp =>
      simp only [hkind, Except.ok.injEq] at h
      split at h
      · cases h
        exact .send k _ _
      · split at h
        · cases h
          exact (Keeps.send k _ _).trans (.connected_of _ p)
        · cases h
          exact .refl q k
  | proxyDown =>
      simp only [hkind, Except.ok.injEq] at h
      split at h
      · cases h
        exact .send k _ _
      · split at h
        · cases h
          exact .connected_of k p
        · cases h
          exact .refl q k

theorem replied_of_connect {cmd : Command} {c : Connect} (hframe : frame.command = some cmd)
    (hprotocol : cmd.protocol = .connect) (hconnect : cmd.connect = some c)
    (hreply : c.protocol = .reply) (hkind : c.kind = .stun) (hready : c.ready = true) :
    replied frame = (externalOf c.external).isSome := by
  obtain ⟨protocol, connect, p2p, heartbeat, subscribe, data⟩ := cmd
  obtain ⟨protocol', kind, clientId, initialized, ready, external⟩ := c
  subst hprotocol hconnect hreply hkind hready
  rw [replied, hframe]

/-- A command that is neither a connect request nor a reply that a STUN session is ready. -/
theorem keeps_process {cmd : Command} {more : Bool} (hframe : frame.command = some cmd)
    (hasked : asked frame = none) (hreplied : replied frame = false)
    (h : k.process p cmd = .ok (t, more)) : Keeps q k t := by
  rw [process] at h
  split at h
  · next hprotocol =>
      split at h
      · cases h
        exact .refl q k
      · next c hconnect =>
          obtain ⟨protocol, kind, clientId, initialized, ready, external⟩ := c
          cases protocol with
          | reply =>
              refine keeps_processReply h ?_
              intro hkind hready
              rw [replied_of_connect hframe hprotocol hconnect rfl hkind hready] at hreplied
              exact Option.isNone_iff_eq_none.1 (Option.isSome_eq_false_iff.1 hreplied)
          | request =>
              cases clientId with
              | none =>
                  cases kind with
                  | stun => cases h
                  | direct => cases h
                  | proxyUp => cases h; exact .refl q k
                  | proxyDown => cases h; exact .refl q k
              | some id =>
                  rw [asked_of_connect hframe hprotocol hconnect rfl rfl] at hasked
                  cases kind with
                  | stun => cases hasked
                  | direct => cases hasked
                  | proxyUp => cases h; exact .refl q k
                  | proxyDown => cases h; exact .refl q k
  · dsimp only at h
    split at h
    · cases h
      exact .refl q k
    · split at h
      · cases h
        exact .send k _ _
      · cases h
        exact .refl q k
  · split at h
    · cases h
      exact .call k _
    · cases h
    · cases h
      exact .refl q k
  · cases h
    exact .refl q k
  · cases h
    exact .refl q k

/-- What a frame does that neither makes a connect request nor says that a STUN session is
ready. -/
theorem handleReceive_cases (hasked : asked frame = none) (hreplied : replied frame = false) :
    ∃ t, (∀ q, Keeps q k t) ∧ (k.handleReceive p frame = .ok (t.postReceive p) ∨
      k.handleReceive p frame = .ok (t.postReceiveRaw p) ∨
      k.handleReceive p frame = .error t) := by
  rw [handleReceive]
  cases hframe : frame.command with
  | none => exact ⟨k, fun q => .refl q k, .inr (.inr rfl)⟩
  | some cmd =>
      simp only
      split
      · next p2p _ _ =>
          have hkeeps := fun q => keeps_processP2P (q := q) k p p2p
          cases hp2p : k.processP2P p p2p with
          | ok t =>
              rw [hp2p] at hkeeps
              exact ⟨t, hkeeps, .inl rfl⟩
          | error t =>
              rw [hp2p] at hkeeps
              exact ⟨t, hkeeps, .inr (.inr rfl)⟩
      · split
        · next t hprocess =>
            rw [process_error hprocess]
            exact ⟨k, fun q => .refl q k, .inr (.inr rfl)⟩
        · next t hprocess =>
            exact ⟨t, fun q => keeps_process hframe hasked hreplied hprocess, .inl rfl⟩
        · next t hprocess =>
            exact ⟨t, fun q => keeps_process hframe hasked hreplied hprocess, .inr (.inl rfl)⟩

def Vouched (k : Client) : Prop := k.isConnected = true → ∃ q, k.Vouches q

theorem Vouched.truthful (h : k.Vouched) : k.Truthful := by
  intro hconnected
  obtain ⟨q, hq⟩ := h hconnected
  exact hq.truthful hconnected

theorem Vouched.keeps (h : k.Vouched) (hk : ∀ q, Keeps q k t) : t.Vouched := by
  intro hconnected
  obtain ⟨q, hq⟩ := h ((hk 0).connected hconnected)
  exact ⟨q, hq.keeps (hk q)⟩

theorem holds_receive (x y : ClientSession)
    (h : ClientSession.Holds { x with receives := x.receives - 1 } y) :
    x.Holds { y with receives := y.receives + 1 } :=
  ⟨h.id, h.type, h.ready, h.closed, by
    have hreads := h.reads
    simp only at hreads ⊢
    omega⟩

theorem holds_receiveRaw (x y : ClientSession)
    (h : ClientSession.Holds { x with receives := x.receives - 1 } y) :
    x.Holds { y with rawReceives := y.rawReceives + 1 } :=
  ⟨h.id, h.type, h.ready, h.closed, by
    have hreads := h.reads
    simp only at hreads ⊢
    omega⟩

/-- The failure handler of a read, with what has been done before it throws. -/
theorem Vouched.receiveCatch {f : ClientSession → ClientSession} (h : k.Vouched)
    (hk : ∀ q, Keeps q (k.modify p f) t) (hid : ∀ x, (f x).id = x.id) :
    (t.receiveCatch p).Vouched := by
  intro hconnected
  have hne := ne_of_isConnected_receiveCatch hconnected
  have hflag : k.isConnected = true :=
    (hk p).connected ((Keeps.receiveCatch (q := p) t p).connected hconnected)
  obtain ⟨q, hq⟩ := h hflag
  have hother : q ≠ p := by
    rintro rfl
    have hlt : q < (k.modify q f).sessions.length := by
      rw [Client.modify, List.length_modify]
      exact hq.lt_length
    apply hne
    rw [((hk q).session hlt).id, (hk q).clientId, session_modify k hq.lt_length, hid, hq.id]
    rfl
  have htake : Keeps q k (k.modify p f) := .modify k fun heq => absurd heq hother
  exact ⟨q, hq.keeps ((htake.trans (hk q)).trans (.receiveCatch t p))⟩

theorem Vouches.setConnected (h : k.Vouches q) (b : Bool) :
    Vouches { k with isConnected := b } q := by
  refine ⟨h.lt_length, h.id, h.reads, ?_⟩
  rcases h.upright with hclosed | ⟨hstun, hready⟩
  · exact .inl hclosed
  · exact .inr ⟨⟨hstun.find, hstun.type⟩, hready⟩

theorem Keeps.setConnected (h : Keeps q k t) (b : Bool) :
    Keeps q { k with isConnected := true } { t with isConnected := b } :=
  ⟨h.clientId, fun _ => rfl, h.length, h.session, h.find⟩

/-- A STUN connect request is accepted when its id is not taken. -/
def Accepts (k : Client) (id : Uuid) (type : SessionType) : Prop :=
  type = .stun ∧ k.sessionMgr.find id = none

theorem keeps_acceptRequest (id : Uuid) (type : SessionType) (hq : q ≠ p) :
    Keeps q { k with isConnected := true } (k.acceptRequest p id type).1 := by
  have hnamed : Keeps q k (k.modify p fun x => { x with id := id, type := type }) :=
    .modify k fun heq => absurd heq hq
  rw [acceptRequest]
  rcases k.sessionMgr.addSession_cases id p with ⟨hnone, hadd⟩ | ⟨-, hadd⟩
  · have hready := (hnamed.trans (.register _ p hnone)).trans
      (.modify _ (p := p) (f := fun x => { x with isReady := true }) fun heq => absurd heq hq)
    simp only [modify, hadd]
    split
    · exact ((hready.setConnected true).trans (.call _ _)).trans (.send _ _ _)
    · exact ((hready.trans (.send _ _ _)).trans (.call _ _)).setConnected _
  · simp only [modify, hadd]
    exact (hnamed.trans
      (.modify _ (p := p) (f := fun x => { x with id := nilUuid, isOpen := false })
        fun heq => absurd heq hq)).setConnected _

theorem isConnected_acceptRequest {id : Uuid} {type : SessionType} (hnot : ¬ k.Accepts id type) :
    (k.acceptRequest p id type).1.isConnected = k.isConnected := by
  rw [acceptRequest]
  rcases k.sessionMgr.addSession_cases id p with ⟨hnone, hadd⟩ | ⟨-, hadd⟩
  · have htype : type ≠ .stun := fun htype => hnot ⟨htype, hnone⟩
    simp only [modify, hadd, if_neg htype, sendCommand, send]
    split <;> rfl
  · simp only [modify, hadd]

theorem acceptRequest_of_accepts {id : Uuid} (hp : p < k.sessions.length)
    (hnone : k.sessionMgr.find id = none) :
    (k.acceptRequest p id .stun).2 = true ∧
      (k.acceptRequest p id .stun).1.clientId = k.clientId ∧
      (k.acceptRequest p id .stun).1.sessionMgr.find id = some p ∧
      (k.acceptRequest p id .stun).1.sessions.length = k.sessions.length ∧
      (k.acceptRequest p id .stun).1.session p =
        { k.session p with id := id, type := .stun, isReady := true } := by
  rcases k.sessionMgr.addSession_cases id p with ⟨-, hadd⟩ | ⟨⟨other, hother⟩, -⟩
  · have hfind :
        (⟨Function.update k.sessionMgr.sessionMap id (some p)⟩ : SessionMgr SessionPtr).find id =
          some p := (k.sessionMgr.find_update id id (some p)).trans (if_pos rfl)
    rw [acceptRequest]
    simp only [modify, hadd, if_true, sendCommand, send, call, hfind]
    simp [session, List.getD_eq_getElem?_getD, hp]
  · rw [hnone] at hother
    cases hother

/-- A reply that a STUN session is ready sets the flag and the session. -/
theorem handleReceive_of_replied (hreplied : replied frame = true) : k.handleReceive p frame =
    .ok (({ k with isConnected := true }.connected p).postReceive p) := by
  rw [replied] at hreplied
  split at hreplied
  · next external _ _ _ _ hframe =>
      obtain ⟨eps, heps⟩ := Option.isSome_iff_exists.1 hreplied
      simp only [handleReceive, hframe, process, processReply, heps, if_true]
  · cases hreplied

/-- A STUN session is accepted under the client's own id only, or while the client is
connected; and then its own session makes no request. -/
def OwnRequest (k : Client) (p : SessionPtr) (id : Uuid) (type : SessionType) : Prop :=
  (k.Accepts id type ∧ id = k.clientId) ∨
    if k.isConnected then (k.session p).id ≠ k.clientId else ¬ k.Accepts id type

/-- The session that is ready is the client's own one, or the client is connected. -/
def OwnReply (k : Client) (p : SessionPtr) : Prop :=
  k.isConnected = true ∨
    (k.session p).id = k.clientId ∧ ((k.session p).isOpen = false ∨ k.StunSession p)

theorem lt_length_of_receives (h : (k.session p).receives ≠ 0) : p < k.sessions.length := by
  by_contra hnot
  rw [session_of_length_le k (Nat.not_lt.1 hnot)] at h
  exact h rfl

/-- A session other than the one that makes a connect request goes on to vouch. -/
theorem Vouches.request {id : Uuid} {type : SessionType} (h : k.Vouches q) (hq : q ≠ p)
    (hasked : asked frame = some (id, type)) : (k.receive p frame).Vouches q := by
  have htake : Keeps q k (k.takeReceive p) := .modify k fun heq => absurd heq hq
  have hasks := keeps_acceptRequest (k := k.takeReceive p) id type hq
  have hvouches := ((h.keeps htake).setConnected true).keeps hasks
  rw [receive, handleReceive_of_asked hasked]
  simp only
  split
  · exact hvouches.keeps (.postReceive _ p)
  · exact hvouches.keeps (.postReceiveRaw _ p)

/-- A session that is accepted for STUN under the client's own id vouches. -/
theorem vouches_of_accepts {type : SessionType} (hreads : (k.session p).receives ≠ 0)
    (haccepts : k.Accepts k.clientId type) (hasked : asked frame = some (k.clientId, type)) :
    (k.receive p frame).Vouches p := by
  obtain ⟨rfl, hnone⟩ := haccepts
  have hp := lt_length_of_receives hreads
  have hp' : p < (k.takeReceive p).sessions.length := by
    rw [takeReceive, modify, List.length_modify]
    exact hp
  obtain ⟨hmore, hid, hfind, hlength, hsession⟩ :=
    acceptRequest_of_accepts (k := k.takeReceive p) hp' hnone
  rw [receive, handleReceive_of_asked hasked]
  simp only [hmore, if_true]
  have hpost := session_modify ((k.takeReceive p).acceptRequest p k.clientId .stun).1
    (f := fun x => { x with receives := x.receives + 1 }) (hlength ▸ hp')
  rw [hsession] at hpost
  constructor
  · rw [postReceive, modify, List.length_modify, hlength]
    exact hp'
  · rw [postReceive, hpost]
    exact hid.symm
  · rw [reads, postReceive, hpost]
    exact Nat.add_pos_left (Nat.succ_pos _) _
  · right
    refine ⟨⟨?_, ?_⟩, ?_⟩
    · change SessionMgr.find _ ((k.takeReceive p).acceptRequest p k.clientId .stun).1.clientId = _
      rw [hid]
      exact hfind
    · rw [postReceive, hpost]
    · rw [postReceive, hpost]

theorem Vouched.request {id : Uuid} {type : SessionType} (h : k.Vouched)
    (hreads : (k.session p).receives ≠ 0) (hasked : asked frame = some (id, type))
    (hown : k.OwnRequest p id type) : (k.receive p frame).Vouched := by
  intro hconnected
  rcases hown with ⟨haccepts, rfl⟩ | hown
  · exact ⟨p, vouches_of_accepts hreads haccepts hasked⟩
  · split at hown
    · next hflag =>
        obtain ⟨q, hq⟩ := h hflag
        have hother : q ≠ p := by
          rintro rfl
          exact hown hq.id
        exact ⟨q, hq.request hother hasked⟩
    · next hflag =>
        have hsame := isConnected_acceptRequest (k := k.takeReceive p) (p := p) hown
        rw [receive, handleReceive_of_asked hasked] at hconnected
        simp only at hconnected
        split at hconnected
        · exact absurd (hsame.symm.trans hconnected) hflag
        · exact absurd (hsame.symm.trans hconnected) hflag

theorem keeps_replied (k : Client) (p q : SessionPtr) :
    Keeps q { k with isConnected := true }
      (({ k.takeReceive p with isConnected := true }.connected p).postReceive p) :=
  .around (k := { k with isConnected := true }) holds_receive (fun _ => rfl)
    (.connected_of { k.takeReceive p with isConnected := true } p)

theorem Vouched.reply (h : k.Vouched) (hreads : (k.session p).receives ≠ 0)
    (hreplied : replied frame = true) (hown : k.OwnReply p) :
    (k.receive p frame).Vouched := by
  intro _
  rw [receive, handleReceive_of_replied hreplied]
  rcases hown with hflag | ⟨hid, hown⟩
  · obtain ⟨q, hq⟩ := h hflag
    exact ⟨q, (hq.setConnected true).keeps (keeps_replied k p q)⟩
  · have hp := lt_length_of_receives hreads
    have hkeeps := keeps_replied k p p
    have hheld := hkeeps.session hp
    refine ⟨p, Nat.lt_of_lt_of_le hp hkeeps.length, ?_, ?_, ?_⟩
    · exact hheld.id.trans hid
    · exact Nat.lt_of_lt_of_le (Nat.add_pos_left (Nat.pos_of_ne_zero hreads) _) hheld.reads
    · rcases hown with hclosed | hstun
      · exact .inl (hheld.closed hclosed)
      · rcases hkeeps.find hp k.clientId hstun.find with hfind | hclosed
        · right
          refine ⟨⟨hfind, hheld.type.trans hstun.type⟩, ?_⟩
          simp [session, postReceive, connected, modify, call, takeReceive,
            List.getD_eq_getElem?_getD, hp]
        · exact .inl hclosed

theorem Vouched.receive (h : k.Vouched) (hasked : asked frame = none)
    (hreplied : replied frame = false) : (k.receive p frame).Vouched := by
  obtain ⟨t, hkeeps, hok | hraw | herror⟩ :=
    handleReceive_cases (k := k.takeReceive p) (p := p) hasked hreplied
  · rw [Client.receive, hok]
    exact h.keeps fun q => (hkeeps q).around holds_receive fun _ => rfl
  · rw [Client.receive, hraw]
    exact h.keeps fun q => (hkeeps q).around holds_receiveRaw fun _ => rfl
  · rw [Client.receive, herror]
    exact h.receiveCatch hkeeps fun _ => rfl

end Client

namespace ClientTimers

/-- The flag is only set for the client's own session, or when it is set already. -/
def SetsOwn (s : ClientTimers) : Event → Prop
  | .receive p frame =>
      (∀ x ∈ Client.asked frame, s.client.OwnRequest p x.1 x.2) ∧
        (Client.replied frame = true → s.client.OwnReply p)
  | _ => True

variable {s t : ClientTimers} {e : Event}

theorem vouched_runs {k : Client} (hs : s.client.Vouched) (h : e.runs s.client = some k) :
    k.Vouched := by
  cases e with
  | receiveFail p =>
      cases h
      exact hs.receiveCatch (fun q => .refl q _) fun _ => rfl
  | receiveRaw p frame =>
      cases h
      apply hs.keeps
      intro q
      have hcall : Client.Keeps q (s.client.takeReceiveRaw p)
          ((s.client.takeReceiveRaw p).call (.onReceive (s.client.session p).id frame)) :=
        .call _ _
      refine hcall.around (fun x y hxy => ?_) fun _ => rfl
      refine ⟨hxy.id, hxy.type, hxy.ready, hxy.closed, ?_⟩
      have hreads := hxy.reads
      simp only at hreads ⊢
      omega
  | receiveRawFail p =>
      cases h
      exact hs.receiveCatch (fun q => .refl q _) fun _ => rfl
  | direct clientId sessionId offer =>
      cases h
      exact hs.keeps fun q => .send _ _ _
  | runDirect i offer =>
      cases h
      exact hs.keeps fun q => .runDirect _ _ _
  | runDoDirect i =>
      cases h
      exact hs.keeps fun q => .runDoDirect _ _
  | directDone i ok =>
      cases h
      exact hs.keeps fun q => .directDone _ _ _
  | proxy config =>
      cases h
      exact hs.keeps fun q => .doProxy _ _
  | proxyDone i ok =>
      cases h
      exact hs.keeps fun q => .proxyDone _ _ _
  | send id frame =>
      cases h
      exact hs.keeps fun q => .send _ _ _
  | disconnect id =>
      cases h
      exact hs.keeps fun q => .removeSession _ _
  | close p =>
      cases h
      exact hs.keeps fun q => .modify _ fun _ => .stop _
  | _ => cases h

theorem vouched_connect (hs : s.client.Vouched) (ep : Address × BitVec 16) (id : Uuid) :
    (s.connect ep id).client.Vouched := by
  rw [connect]
  split
  · exact hs.keeps fun q => .construct _ _
  · exact hs

theorem vouched_handleStunTimeout (hs : s.client.Vouched) (sessionId : Uuid) :
    (s.handleStunTimeout sessionId).client.Vouched := by
  rw [handleStunTimeout]
  split
  · exact hs
  · dsimp only
    split
    · split
      · exact hs.keeps fun q => .removeSession _ _
      · exact hs.keeps fun q => .send _ _ _
    · exact hs

theorem vouched_handleConnectionTimeout (hs : s.client.Vouched) (i : ℕ) (w : ConnectionWait) :
    (s.handleConnectionTimeout i w).client.Vouched := by
  rw [handleConnectionTimeout]
  dsimp only
  split
  · exact vouched_connect (s := { s with connectionWaits := s.connectionWaits.eraseIdx i }) hs _ _
  · exact hs

theorem vouched_connectDone (hs : s.client.Vouched) (i : ℕ) (ok : Bool) :
    (s.connectDone i ok).client.Vouched := by
  rw [connectDone]
  split
  · exact hs
  · dsimp only
    split
    · exact hs.keeps fun q => .stunDone _ _
    · exact hs

theorem vouched_resolveFail (hs : s.client.Vouched) (i : ℕ) :
    (s.resolveFail i).client.Vouched := by
  rw [resolveFail]
  split
  · exact hs
  · exact hs.keeps fun q => .call _ _

theorem vouched_receive {p : SessionPtr} {frame : Frame} (hs : s.client.Vouched)
    (hreads : (s.client.session p).receives ≠ 0) (hown : SetsOwn s (.receive p frame)) :
    (s.receive p frame).client.Vouched := by
  have hclient : (s.receive p frame).client = s.client.receive p frame := by
    rw [receive]
    cases frame.command <;> rfl
  rw [hclient]
  cases hasked : Client.asked frame with
  | some x => exact hs.request hreads hasked (hown.1 x hasked)
  | none =>
      cases hreplied : Client.replied frame with
      | true => exact hs.reply hreads hreplied (hown.2 hreplied)
      | false => exact hs.receive hasked hreplied

theorem receives_of_step {p : SessionPtr} {frame : Frame}
    (h : s.step (.receive p frame) = some t) : (s.client.session p).receives ≠ 0 := by
  obtain ⟨-, h⟩ := Option.ite_none_right_eq_some.1 h
  exact (Option.ite_none_left_eq_some.1 h).1

theorem vouched_step (hs : s.client.Vouched) (hown : SetsOwn s e) (h : s.step e = some t) :
    t.client.Vouched := by
  cases move_of_step h with
  | connect ep id => exact vouched_connect hs ep id
  | connectDone _ => exact vouched_connectDone hs _ _
  | resolveFail _ => exact vouched_resolveFail hs _
  | accept => exact hs.keeps fun q => (Client.Keeps.construct _ _).trans (.postReceive _ _)
  | receive p frame => exact vouched_receive hs (receives_of_step h) hown
  | follow hruns => exact vouched_runs hs hruns
  | tick seconds => exact hs
  | expire p i => exact hs
  | stunTimeout _ => exact vouched_handleStunTimeout (s := s.takeWait _ _) hs _
  | connectionExpire i _ => exact hs
  | connectionTimeout _ _ => exact vouched_handleConnectionTimeout hs _ _
  | stop _ hclient _ _ _ =>
      rw [hclient]
      exact hs

/-- In the runs that set the flag so, the client is connected only if its STUN session is
registered and ready, or a read is going to fail. -/
theorem truthful_of_setsOwn : ∀ s, system.ReachableWhile SetsOwn s → s.client.Truthful := by
  intro s h
  have hvouched : s.client.Vouched := by
    apply h.invariant
    · rintro s ⟨clientId, network, rfl⟩ hconnected
      cases hconnected
    · intro s e t hs hown h
      exact vouched_step hs hown h
  exact hvouched.truthful

/-- The client connects to the server with its own id. -/
def connectedRun : List Event :=
  [.connect (.v4 0, 9) 7, .connectDone 0 true, .receive 0 (.ofCommand (Client.readyReply .stun))]

/-- After that run the STUN session is registered and ready. -/
theorem connectedRun_truthful :
    ∃ s, system.exec { client := { clientId := 7 } } connectedRun = some s ∧
      s.client.isConnected = true ∧ s.client.Truthful := by
  have hstart : system.ReachableWhile SetsOwn { client := { clientId := 7 } } :=
    .init ⟨7, 0, rfl⟩
  have hconnect := hstart.step (e := Event.connect (.v4 0, 9) 7) trivial rfl
  have hdone := hconnect.step (e := Event.connectDone 0 true) trivial rfl
  have hready := hdone.step (e := Event.receive 0 (.ofCommand (Client.readyReply .stun)))
    ⟨nofun, fun _ => .inr ⟨rfl, .inr ⟨rfl, rfl⟩⟩⟩ rfl
  exact ⟨_, rfl, rfl, truthful_of_setsOwn _ hready⟩

/-- A stranger connects to the client. -/
def strangerRun : List Event :=
  [.accept, .receive 0 (.ofCommand (Client.connectRequest .stun 8))]

/-- The client is taken for connected with no session under its own id. -/
theorem strangerRun_not_truthful :
    ¬ ∀ s, system.Reachable s → s.client.Truthful := by
  intro h
  have hrun : system.Reachable _ := System.Reachable.exec (.init ⟨7, 0, rfl⟩)
    (show system.exec { client := { clientId := 7 } } strangerRun = some _ from rfl)
  obtain ⟨p, hstun, -⟩ := h _ hrun rfl (by
    rintro ⟨p, hclosed, hreads⟩
    cases p with
    | zero => cases hclosed
    | succ p => cases hreads)
  have hfind : (none : Option SessionPtr) = some p := hstun.find
  cases hfind

end ClientTimers

end OpenNat
