import BoostSamples.OpenNat.Client

/-!
# Commands of another client

A command relayed from another client is handled in the `try` of `Receive`, on
the session to the server. The parsers of its text fields throw, and the only
handler is the one of a failed read, which removes the session. So the session
stays exactly if every field that the branch taken reads can be parsed.
-/

namespace OpenNat

namespace Client

/-- The session to the server: registered under the client's own id, open, with a
read outstanding. -/
structure ServerSession (k : Client) (p : SessionPtr) : Prop where
  find : k.sessionMgr.find k.clientId = some p
  id : (k.session p).id = k.clientId
  isOpen : (k.session p).isOpen = true
  receives : 0 < (k.session p).receives

/-- The session to the server has stayed registered, is not stopped, and its next
read has been posted. -/
structure Survives (k t : Client) (p : SessionPtr) : Prop where
  find : t.sessionMgr.find k.clientId = some p
  isOpen : (t.session p).isOpen = true
  receives : (t.session p).receives = (k.session p).receives

def ReadableEndpoint (e : Endpoint) : Prop := e.address.isSome ∧ e.port.isSome

/-- The fields that `ProcessP2P` reads of a message can be parsed: the sender in
an error and in data; the sender and the session id in a request for a proxy
session and in the answer to one for a direct session; in such a request the
session id, and unless the session is banned also the sender, the network of the
internal endpoint and, if it is the client's own, its address and port, and the
address and port of the external endpoint. -/
def Readable (k : Client) (p2p : P2P) : Prop :=
  match p2p.protocol with
  | .error => p2p.fromId.isSome = true
  | .makeDirect => ∀ m, p2p.makeDirect = some m → ∃ sessionId, m.sessionId = some sessionId ∧
      if m.error then p2p.fromId.isSome = true
      else k.bannedList sessionId = false → p2p.fromId.isSome = true ∧
        (∀ e, m.internal = some e → ∃ n, e.network = some n ∧
          (n = k.network → ReadableEndpoint e)) ∧
        ∀ e, m.external = some e → ReadableEndpoint e
  | .makeProxy => ∀ text, p2p.makeProxy = some text → text.isSome ∧ p2p.fromId.isSome
  | .data => p2p.data.isSome → p2p.fromId.isSome

/-- The registry and the session objects there are stay as they are; new objects
may have been constructed. -/
structure Extends (k t : Client) : Prop where
  clientId : t.clientId = k.clientId
  sessionMgr : t.sessionMgr = k.sessionMgr
  sessions : k.sessions <+: t.sessions

namespace Extends

variable {k t u : Client}

theorem refl (k : Client) : k.Extends k := ⟨rfl, rfl, List.prefix_rfl⟩

theorem trans (h : k.Extends t) (h' : t.Extends u) : k.Extends u :=
  ⟨h'.clientId.trans h.clientId, h'.sessionMgr.trans h.sessionMgr, h.sessions.trans h'.sessions⟩

theorem of_eq (hid : t.clientId = k.clientId) (hmgr : t.sessionMgr = k.sessionMgr)
    (hsessions : t.sessions = k.sessions) : k.Extends t :=
  ⟨hid, hmgr, by rw [hsessions]⟩

theorem session (h : k.Extends t) {p : SessionPtr} (hp : p < k.sessions.length) :
    t.session p = k.session p := by
  obtain ⟨new, hnew⟩ := h.sessions
  rw [Client.session, Client.session, ← hnew, List.getD_eq_getElem?_getD,
    List.getD_eq_getElem?_getD, List.getElem?_append_left hp]

theorem send (k : Client) (id : Uuid) (frame : Frame) : k.Extends (k.send id frame) := by
  unfold Client.send
  split <;> exact of_eq rfl rfl rfl

theorem construct (k : Client) (x : ClientSession) : k.Extends (k.construct x) :=
  ⟨rfl, rfl, List.prefix_append _ _⟩

theorem doProxy (k : Client) (config : SessionConfig) : k.Extends (k.doProxy config) :=
  (construct k _).trans (of_eq rfl rfl rfl)

theorem doDirect (k : Client) (config : SessionConfig) : k.Extends (k.doDirect config) := by
  unfold Client.doDirect
  split
  · exact of_eq rfl rfl rfl
  · exact (construct k _).trans (of_eq rfl rfl rfl)

end Extends

variable {k t : Client} {p : SessionPtr}

theorem isSome_endpointOf (e : Endpoint) : (endpointOf e).isSome ↔ ReadableEndpoint e := by
  unfold endpointOf ReadableEndpoint
  cases e.address <;> cases e.port <;> simp

theorem isSome_internalOf (network : BitVec 32) (e : Option Endpoint) :
    (internalOf network e).isSome ↔ ∀ e', e = some e' → ∃ n, e'.network = some n ∧
      (n = network → ReadableEndpoint e') := by
  cases e with
  | none => simp [internalOf]
  | some e =>
      cases hn : e.network with
      | none => simp [internalOf, hn]
      | some n =>
          by_cases hnetwork : n = network
          · simp [internalOf, hn, hnetwork, isSome_endpointOf]
          · simp [internalOf, hn, hnetwork]

theorem isSome_externalOf (e : Option Endpoint) :
    (externalOf e).isSome ↔ ∀ e', e = some e' → ReadableEndpoint e' := by
  cases e with
  | none => simp [externalOf]
  | some e => simp [externalOf, isSome_endpointOf]

/-- The endpoints of a request can be read if the fields they need can. -/
theorem isSome_endpointsOf (network : BitVec 32) (m : MakeDirect) :
    (endpointsOf network m).isSome ↔
      (∀ e, m.internal = some e → ∃ n, e.network = some n ∧
        (n = network → ReadableEndpoint e)) ∧
      ∀ e, m.external = some e → ReadableEndpoint e := by
  rw [← isSome_internalOf, ← isSome_externalOf, endpointsOf]
  cases internalOf network m.internal <;> simp

/-- `ProcessP2P` acts on a message it can read, and throws on any other; either
way the sessions that are there stay as they are. -/
theorem processP2P_cases (k : Client) (p : SessionPtr) (p2p : P2P) :
    (k.Readable p2p ∧ ∃ t, k.processP2P p p2p = .ok t ∧ k.Extends t) ∨
    (¬ k.Readable p2p ∧ ∃ t, k.processP2P p p2p = .error t ∧ k.Extends t) := by
  unfold processP2P Readable
  cases p2p.protocol with
  | error =>
      cases p2p.fromId with
      | none => exact .inr ⟨by simp, k, rfl, .refl k⟩
      | some id => exact .inl ⟨rfl, _, rfl, .of_eq rfl rfl rfl⟩
  | makeDirect =>
      cases p2p.makeDirect with
      | none => exact .inl ⟨by simp, k, rfl, .refl k⟩
      | some m =>
          simp only [Option.some.injEq, forall_eq', processMakeDirect]
          cases hid : m.sessionId with
          | none => exact .inr ⟨by simp, k, rfl, .refl k⟩
          | some sessionId =>
              simp only [Option.some.injEq, exists_eq_left']
              have hremove : k.Extends (k.removeBan sessionId) := .of_eq rfl rfl rfl
              cases m.error with
              | true =>
                  cases p2p.fromId with
                  | none => exact .inr ⟨by simp, _, rfl, hremove⟩
                  | some clientId => exact .inl ⟨by simp, _, rfl, hremove.trans (.doProxy _ _)⟩
              | false =>
                  simp only [Bool.false_eq_true, if_false, ← isSome_endpointsOf]
                  cases hbanned : k.bannedList sessionId with
                  | true => exact .inl ⟨by simp, _, rfl, hremove.trans (.send _ _ _)⟩
                  | false =>
                      cases p2p.fromId with
                      | none => exact .inr ⟨by simp, k, rfl, .refl k⟩
                      | some clientId =>
                          cases endpointsOf k.network m with
                          | none => exact .inr ⟨by simp, k, rfl, .refl k⟩
                          | some epList => exact .inl ⟨by simp, _, rfl, .doDirect k _⟩
  | makeProxy =>
      cases p2p.makeProxy with
      | none => exact .inl ⟨by simp, k, rfl, .refl k⟩
      | some text =>
          cases text with
          | none => exact .inr ⟨by simp, k, rfl, .refl k⟩
          | some sessionId =>
              cases p2p.fromId with
              | none => exact .inr ⟨by simp, k, rfl, .refl k⟩
              | some clientId => exact .inl ⟨by simp, _, rfl, .doProxy k _⟩
  | data =>
      cases p2p.data with
      | none => exact .inl ⟨by simp, k, rfl, .refl k⟩
      | some data =>
          cases p2p.fromId with
          | none => exact .inr ⟨by simp, k, rfl, .refl k⟩
          | some id => exact .inl ⟨fun _ => rfl, _, rfl, .of_eq rfl rfl rfl⟩

theorem session_of_length_le (k : Client) {p : SessionPtr} (hp : k.sessions.length ≤ p) :
    k.session p = {} := by
  simp [session, List.getD_eq_getElem?_getD, List.getElem?_eq_none hp]

theorem session_modify (k : Client) {p : SessionPtr} {f : ClientSession → ClientSession}
    (hp : p < k.sessions.length) : (k.modify p f).session p = f (k.session p) := by
  simp [session, modify, List.getD_eq_getElem?_getD, hp]

theorem ServerSession.lt_length (h : k.ServerSession p) : p < k.sessions.length := by
  by_contra hnot
  have hreceives := h.receives
  rw [session_of_length_le k (Nat.not_lt.1 hnot)] at hreceives
  exact absurd hreceives (Nat.lt_irrefl 0)

theorem find_receiveCatch (k : Client) (p : SessionPtr) :
    (k.receiveCatch p).sessionMgr.find (k.session p).id = none := by
  have hremove : ∀ (t : Client) (id : Uuid), (t.removeSession id).sessionMgr.find id = none := by
    intro t id
    unfold removeSession
    split
    · next hfind => exact hfind
    · exact (t.sessionMgr.find_removeSession id id).trans (if_pos rfl)
  unfold receiveCatch
  dsimp only [call]
  split <;> exact hremove _ _

theorem session_takeReceive (h : k.ServerSession p) :
    (k.takeReceive p).session p =
      { k.session p with receives := (k.session p).receives - 1 } :=
  k.session_modify h.lt_length

theorem ServerSession.lt_length_takeReceive (h : k.ServerSession p) :
    p < (k.takeReceive p).sessions.length := by
  simpa [takeReceive, modify] using h.lt_length

theorem session_of_handled (h : k.ServerSession p) (hext : (k.takeReceive p).Extends t) :
    (t.postReceive p).session p = k.session p := by
  have hreceives := h.receives
  rw [postReceive,
    t.session_modify (h.lt_length_takeReceive.trans_le hext.sessions.length_le),
    hext.session h.lt_length_takeReceive, session_takeReceive h]
  simp only [Nat.sub_add_cancel hreceives]

/-- A P2P command of another client leaves the session to the server registered,
open and reading exactly if the fields that `ProcessP2P` reads can be parsed. -/
theorem receive_survives_iff {frame : Frame} {cmd : Command} {p2p : P2P}
    (h : k.ServerSession p) (hframe : frame.command = some cmd) (hprotocol : cmd.protocol = .p2p)
    (hp2p : cmd.p2p = some p2p) : k.Survives (k.receive p frame) p ↔ k.Readable p2p := by
  have hreadable : (k.takeReceive p).Readable p2p ↔ k.Readable p2p := Iff.rfl
  rcases (k.takeReceive p).processP2P_cases p p2p with ⟨hread, t, ht, hext⟩ | ⟨hread, t, ht, hext⟩
  · have hreceive : (k.takeReceive p).handleReceive p frame = .ok (t.postReceive p) := by
      simp only [handleReceive, hframe, hprotocol, hp2p, ht]
    refine iff_of_true ?_ (hreadable.1 hread)
    rw [receive, hreceive]
    have hsession : (t.postReceive p).session p = k.session p := session_of_handled h hext
    refine ⟨?_, ?_, ?_⟩
    · exact (congrArg (·.find k.clientId) hext.sessionMgr).trans h.find
    · rw [hsession]
      exact h.isOpen
    · rw [hsession]
  · have hreceive : (k.takeReceive p).handleReceive p frame = .error t := by
      simp only [handleReceive, hframe, hprotocol, hp2p, ht]
    refine iff_of_false (fun hsurvives => ?_) fun hk => hread (hreadable.2 hk)
    have hid : (t.session p).id = k.clientId := by
      rw [hext.session h.lt_length_takeReceive, session_takeReceive h]
      exact h.id
    have hfind := hsurvives.find
    rw [receive, hreceive, ← hid] at hfind
    cases (t.find_receiveCatch p).symm.trans hfind

def connectedClient : Client where
  clientId := 1
  isConnected := true
  network := 0x0a000000
  sessions := [{ id := 1, type := .stun, isReady := true, receives := 1 }]
  sessionMgr := ⟨fun id => if id = 1 then some 0 else none⟩

theorem serverSession_connectedClient : connectedClient.ServerSession 0 :=
  ⟨rfl, rfl, rfl, Nat.one_pos⟩

/-- A request for a direct session whose internal endpoint is on another network
and has no address and no port. -/
def foreignRequest : P2P where
  protocol := .makeDirect
  fromId := some 2
  toId := some 1
  makeDirect := some
    { sessionId := some 9
      internal := some { network := some 0x0b000000 }
      external := some { address := some (.v4 0x01020304), port := some 7 } }

/-- The client acts on it, since it does not read the internal address. -/
theorem foreignRequest_survives :
    connectedClient.Survives
      (connectedClient.receive 0 (.ofCommand (p2pCommand foreignRequest))) 0 :=
  (receive_survives_iff serverSession_connectedClient rfl rfl
    (show (p2pCommand foreignRequest).p2p = some foreignRequest from rfl)).2
    (by simp [Readable, foreignRequest, ReadableEndpoint, connectedClient])

def strayData : P2P where
  protocol := .data
  toId := some 1
  data := some [0x01]

/-- The client loses its session to the server. -/
theorem strayData_not_survives :
    connectedClient.ServerSession 0 ∧ ¬ connectedClient.Survives
      (connectedClient.receive 0 (.ofCommand (p2pCommand strayData))) 0 :=
  ⟨serverSession_connectedClient, fun h => nomatch h.find⟩

end Client

end OpenNat
