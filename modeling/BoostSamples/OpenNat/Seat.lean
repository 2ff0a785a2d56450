import BoostSamples.Transition.System
import BoostSamples.OpenNat.PeerCommand

/-!
# What a client holds about one direct session

The negotiation of a direct session goes through the posted calls, the attempts
in progress, the banned list and the messages of each client. `seat` collects
what a client holds of these under one session id, and each operation of the
client is described by what it does to the seat. An operation about another
session leaves the seat alone.
-/

namespace OpenNat

namespace Client

/-- What a client holds under one session id: the clients that a posted `Direct`
asks, the client, the session type and the number of endpoints left of each posted
`DoDirect` and of each attempt, the remote clients of its PROXYUP sessions, the messages about a
direct session that `Send` has accepted for the server, and the number of direct
connect requests. -/
structure Seat where
  clientId : Uuid
  banned : Bool
  directs : List Uuid
  doDirects : List (Uuid × SessionType × Nat)
  connects : List (Uuid × SessionType × Nat)
  proxies : List Uuid
  spoken : List P2P
  successes : Nat
  deriving DecidableEq

/-- The client that a posted `Direct` asks about the session. -/
def directOf (x : Uuid) (d : Uuid × Uuid) : Option Uuid := if d.2 = x then some d.1 else none

/-- The client, the type and the number of endpoints of a configuration for the
session. -/
def configOf (x : Uuid) (c : SessionConfig) : Option (Uuid × SessionType × Nat) :=
  if c.sessionId = x then some (c.clientId, c.sessionType, c.epList.length) else none

def proxyOf (x : Uuid) (y : ClientSession) : Option Uuid :=
  if y.id = x ∧ y.type = .proxyUp then some y.remoteId else none

def directMessage (x : Uuid) (frame : Frame) : Option P2P :=
  frame.command.bind fun cmd =>
    if cmd.protocol = .p2p then
      cmd.p2p.bind fun m =>
        if m.protocol = .makeDirect ∧ (m.makeDirect.bind (·.sessionId)) = some x then some m
        else none
    else none

/-- The message about the direct session that an entry of `sent` gives to the
server. -/
def spokenOf (x clientId : Uuid) (e : Uuid × Frame) : Option P2P :=
  if e.1 = clientId then directMessage x e.2 else none

def seat (x : Uuid) (k : Client) : Seat where
  clientId := k.clientId
  banned := k.bannedList x
  directs := k.directs.filterMap (directOf x)
  doDirects := k.doDirects.filterMap (configOf x)
  connects := k.connects.filterMap fun c => configOf x c.2
  proxies := k.sessions.filterMap (proxyOf x)
  spoken := k.sent.filterMap (spokenOf x k.clientId)
  successes := k.sent.count (x, .ofCommand (connectRequest .direct x))

def directP2P (fromId toId : Uuid) (m : MakeDirect) : P2P where
  protocol := .makeDirect
  fromId := some fromId
  toId := some toId
  makeDirect := some m

def directRequest (x : Uuid) (offer : Offer) : MakeDirect where
  sessionId := some x
  external := offer.external
  internal := offer.internal

def directRefusal (x : Uuid) : MakeDirect where
  error := true
  sessionId := some x

def Attached (k : Client) : Prop := ∃ p, k.ServerSession p

variable {k t : Client} {x : Uuid} {p : SessionPtr}

@[simp] theorem directMessage_directP2P (fromId toId : Uuid) (m : MakeDirect) :
    directMessage x (.ofCommand (p2pCommand (directP2P fromId toId m))) =
      if m.sessionId = some x then some (directP2P fromId toId m) else none := by
  simp [directMessage, Frame.ofCommand, p2pCommand, directP2P]

@[simp] theorem directMessage_connectRequest (kind : Connect.Kind) (id : Uuid) :
    directMessage x (.ofCommand (connectRequest kind id)) = none := by
  simp [directMessage, Frame.ofCommand, connectRequest]

@[simp] theorem spokenOf_self (clientId : Uuid) (frame : Frame) :
    spokenOf x clientId (clientId, frame) = directMessage x frame := if_pos rfl

/-- What is sent to the server about the session is added to the messages. -/
theorem seat_send (hfind : k.sessionMgr.find k.clientId = some p) (toId : Uuid)
    {m : MakeDirect} (hm : m.sessionId = some x) :
    (k.sendCommand k.clientId (p2pCommand (directP2P k.clientId toId m))).seat x =
      { k.seat x with spoken := (k.seat x).spoken ++ [directP2P k.clientId toId m] } := by
  have hne : ((k.clientId, Frame.ofCommand (p2pCommand (directP2P k.clientId toId m))) ==
      (x, Frame.ofCommand (connectRequest .direct x))) = false := by
    simp [Frame.ofCommand, p2pCommand, connectRequest]
  simp only [sendCommand, send, hfind, seat, List.filterMap_append, List.count_append]
  simp [hm, List.count_cons, hne]

theorem seat_direct (hfind : k.sessionMgr.find k.clientId = some p) (clientId : Uuid)
    (offer : Offer) :
    (k.direct clientId x offer).seat x =
      { k.seat x with
        spoken := (k.seat x).spoken ++
          [directP2P k.clientId clientId (directRequest x offer)] } :=
  seat_send hfind clientId rfl

theorem seat_modify (f : ClientSession → ClientSession)
    (hf : ∀ y, proxyOf x (f y) = proxyOf x y) : (k.modify p f).seat x = k.seat x := by
  have hmap : (k.sessions.modify p f).filterMap (proxyOf x) =
      k.sessions.filterMap (proxyOf x) := by
    induction k.sessions generalizing p with
    | nil => simp
    | cons y ys ih =>
        cases p with
        | zero => simp [List.filterMap_cons, hf]
        | succ p => simp [List.filterMap_cons, ih]
  simp [seat, modify, hmap]

@[simp] theorem seat_postReceive : (k.postReceive p).seat x = k.seat x :=
  seat_modify _ fun _ => rfl

@[simp] theorem seat_takeReceive : (k.takeReceive p).seat x = k.seat x :=
  seat_modify _ fun _ => rfl

theorem seat_removeBan : (k.removeBan x).seat x = { k.seat x with banned := false } := by
  simp [seat, removeBan]

/-- `DoDirect` begins an attempt, or has the session asked for in turn and bans
it. -/
theorem seat_doDirect {config : SessionConfig} (hid : config.sessionId = x)
    (htype : config.sessionType = .direct) :
    (k.doDirect config).seat x =
      if config.epList = [] then
        { k.seat x with
          directs := (k.seat x).directs ++ [config.clientId]
          banned := true }
      else
        { k.seat x with
          connects := (k.seat x).connects ++
            [(config.clientId, .direct, config.epList.length)] } := by
  obtain ⟨id, type, clientId, epList⟩ := config
  cases hid
  cases htype
  cases epList with
  | nil => simp [doDirect, seat, addBan, directOf]
  | cons ep eps => simp [doDirect, seat, construct, configOf, proxyOf]

theorem seat_doProxy (clientId : Uuid) :
    (k.doProxy ⟨x, .proxyUp, clientId, []⟩).seat x =
      { k.seat x with proxies := (k.seat x).proxies ++ [clientId] } := by
  simp [doProxy, seat, construct, proxyOf]

def runDirect (k : Client) (i : Nat) (offer : Offer) : Client :=
  match k.directs[i]? with
  | none => k
  | some (clientId, sessionId) =>
      { k with directs := k.directs.eraseIdx i }.direct clientId sessionId offer

def runDoDirect (k : Client) (i : Nat) : Client :=
  match k.doDirects[i]? with
  | none => k
  | some config => { k with doDirects := k.doDirects.eraseIdx i }.doDirect config

/-- An element of a list that is seen through a filter, and the list without it. -/
theorem exists_filterMap_eraseIdx {α β : Type*} {f : α → Option β} {l : List α} {i : Nat}
    {a : α} {b : β} (h : l[i]? = some a) (hf : f a = some b) :
    ∃ before after, l.filterMap f = before ++ b :: after ∧
      (l.eraseIdx i).filterMap f = before ++ after := by
  obtain ⟨before, after, hl, -, -, herase⟩ := Transition.exists_append_of_getElem? h
  refine ⟨before.filterMap f, after.filterMap f, ?_, ?_⟩
  · rw [hl, List.filterMap_append, List.filterMap_cons_some hf]
  · rw [herase, List.filterMap_append]

theorem seat_runDirect (hfind : k.sessionMgr.find k.clientId = some p) {i : Nat}
    {clientId : Uuid} (offer : Offer) (hi : k.directs[i]? = some (clientId, x)) :
    ∃ before after, (k.seat x).directs = before ++ clientId :: after ∧
      (k.runDirect i offer).seat x =
        { k.seat x with
          directs := before ++ after
          spoken := (k.seat x).spoken ++
            [directP2P k.clientId clientId (directRequest x offer)] } := by
  obtain ⟨before, after, hl, herase⟩ :=
    exists_filterMap_eraseIdx (f := directOf x) hi (if_pos rfl)
  refine ⟨before, after, hl, ?_⟩
  rw [runDirect, hi]
  exact (seat_direct (k := { k with directs := k.directs.eraseIdx i }) hfind clientId offer).trans
    (by simp [seat, herase])

/-- A posted `DoDirect` for the session begins an attempt, or has the session asked
for in turn and bans it. -/
theorem seat_runDoDirect {i : Nat} {config : SessionConfig} (hi : k.doDirects[i]? = some config)
    (hid : config.sessionId = x) (htype : config.sessionType = .direct) :
    ∃ before after, (k.seat x).doDirects =
        before ++ (config.clientId, .direct, config.epList.length) :: after ∧
      (k.runDoDirect i).seat x =
        if config.epList = [] then
          { k.seat x with
            doDirects := before ++ after
            directs := (k.seat x).directs ++ [config.clientId]
            banned := true }
        else
          { k.seat x with
            doDirects := before ++ after
            connects := (k.seat x).connects ++
              [(config.clientId, .direct, config.epList.length)] } := by
  obtain ⟨before, after, hl, herase⟩ :=
    exists_filterMap_eraseIdx (f := configOf x) hi (by rw [configOf, if_pos hid, htype])
  refine ⟨before, after, hl, ?_⟩
  rw [runDoDirect, hi]
  exact (seat_doDirect hid htype).trans (by simp [seat, herase])

/-- An attempt succeeds if its connection does and no session is registered under
the id. -/
def Succeeds (k : Client) (x : Uuid) (ok : Bool) : Prop :=
  ok = true ∧ k.sessionMgr.find x = none

instance (k : Client) (x : Uuid) (ok : Bool) : Decidable (k.Succeeds x ok) :=
  inferInstanceAs (Decidable (_ ∧ _))

theorem seat_sendConnect {q : SessionPtr} (hfind : k.sessionMgr.find x = some q) :
    (k.sendCommand x (connectRequest .direct x)).seat x =
      { k.seat x with successes := (k.seat x).successes + 1 } := by
  simp [sendCommand, send, hfind, seat, spokenOf, List.count_append]

theorem configOf_of_id {c : SessionConfig} (h : c.sessionId = x) :
    configOf x c = some (c.clientId, c.sessionType, c.epList.length) := if_pos h

/-- An attempt for the session ends: its connect request is sent, or the next
endpoint is posted. -/
theorem seat_directDone {i : Nat} {config : SessionConfig} (ok : Bool)
    (hi : k.connects[i]? = some (p, config)) (hid : config.sessionId = x) :
    ∃ before after, (k.seat x).connects =
        before ++ (config.clientId, config.sessionType, config.epList.length) :: after ∧
      (k.directDone i ok).seat x =
        if k.Succeeds x ok then
          { k.seat x with
            connects := before ++ after
            successes := (k.seat x).successes + 1 }
        else
          { k.seat x with
            connects := before ++ after
            doDirects := (k.seat x).doDirects ++
              [(config.clientId, config.sessionType, config.epList.length - 1)] } := by
  obtain ⟨before, after, hl, herase⟩ :=
    exists_filterMap_eraseIdx (f := fun c : SessionPtr × SessionConfig => configOf x c.2) hi
      (configOf_of_id hid)
  refine ⟨before, after, hl, ?_⟩
  have hnext : (seat x { k with
      connects := k.connects.eraseIdx i
      doDirects := k.doDirects ++ [{ config with epList := config.epList.tail }] }) =
      { k.seat x with
        connects := before ++ after
        doDirects := (k.seat x).doDirects ++
          [(config.clientId, config.sessionType, config.epList.length - 1)] } := by
    have hconfig : configOf x { config with epList := config.epList.tail } =
        some (config.clientId, config.sessionType, config.epList.length - 1) := by
      rw [configOf_of_id (by exact hid), List.length_tail]
    simp [seat, herase, hconfig]
  subst hid
  cases ok with
  | false =>
      rw [if_neg fun h => nomatch h.1]
      simpa only [directDone, hi, Bool.false_eq_true, if_false] using hnext
  | true =>
      rcases k.sessionMgr.addSession_cases config.sessionId p with
        ⟨hfind, hadd⟩ | ⟨⟨q, hfind⟩, hadd⟩
      · rw [if_pos ⟨rfl, hfind⟩]
        simp only [directDone, hi, hadd, if_true]
        rw [seat_sendConnect ((k.sessionMgr.find_update _ _ _).trans (if_pos rfl)),
          seat_postReceive]
        simp [seat, herase]
      · rw [if_neg fun h => nomatch h.2.symm.trans hfind]
        simpa only [directDone, hi, hadd, if_true] using hnext

def offerable (offer : Offer) : Bool :=
  (offer.internal.all fun e => e.network.isSome && e.address.isSome && e.port.isSome) &&
    offer.external.all fun e => e.address.isSome && e.port.isSome

/-- What can be said about a direct session: a request with endpoints that can be
parsed, or a refusal. -/
inductive Sayable (x : Uuid) : MakeDirect → Prop
  | request {offer : Offer} : offerable offer = true → Sayable x (directRequest x offer)
  | refusal : Sayable x (directRefusal x)

theorem Sayable.sessionId {m : MakeDirect} (h : Sayable x m) : m.sessionId = some x := by
  cases h <;> rfl

theorem exists_endpointsOf {offer : Offer} (network : BitVec 32) (h : offerable offer = true) :
    ∃ epList, endpointsOf network (directRequest x offer) = some epList ∧
      epList.length ≤ 2 := by
  have hep : ∀ e : Endpoint, e.address.isSome = true → e.port.isSome = true →
      ∃ ep, endpointOf e = some ep := fun e haddress hport =>
    Option.isSome_iff_exists.1 ((isSome_endpointOf e).2 ⟨haddress, hport⟩)
  simp only [offerable, Bool.and_eq_true] at h
  have hinternal : ∃ eps, internalOf network offer.internal = some eps ∧ eps.length ≤ 1 := by
    cases hoffer : offer.internal with
    | none => exact ⟨[], rfl, Nat.zero_le 1⟩
    | some e =>
        have he := h.1
        simp only [hoffer, Option.all_some, Bool.and_eq_true] at he
        obtain ⟨n, hn⟩ := Option.isSome_iff_exists.1 he.1.1
        obtain ⟨ep, hep⟩ := hep e he.1.2 he.2
        by_cases hnetwork : n = network
        · exact ⟨[ep], by simp [internalOf, hn, hnetwork, hep], Nat.le_refl 1⟩
        · exact ⟨[], by simp [internalOf, hn, hnetwork], Nat.zero_le 1⟩
  have hexternal : ∃ eps, externalOf offer.external = some eps ∧ eps.length ≤ 1 := by
    cases hoffer : offer.external with
    | none => exact ⟨[], rfl, Nat.zero_le 1⟩
    | some e =>
        have he := h.2
        simp only [hoffer, Option.all_some, Bool.and_eq_true] at he
        obtain ⟨ep, hep⟩ := hep e he.1 he.2
        exact ⟨[ep], by simp [externalOf, hep], Nat.le_refl 1⟩
  obtain ⟨internal, hi, hilength⟩ := hinternal
  obtain ⟨external, he, helength⟩ := hexternal
  refine ⟨internal ++ external, by simp [endpointsOf, directRequest, hi, he], ?_⟩
  rw [List.length_append]
  exact Nat.add_le_add hilength helength

theorem receive_directP2P {fromId toId : Uuid} {m : MakeDirect}
    (h : (k.takeReceive p).processMakeDirect (some fromId) m = .ok t) :
    k.receive p (.ofCommand (p2pCommand (directP2P fromId toId m))) = t.postReceive p := by
  simp only [receive, handleReceive, Frame.ofCommand, p2pCommand, processP2P, directP2P, h]

theorem ServerSession.of_extends (h : k.ServerSession p) (hext : k.Extends t) :
    t.ServerSession p where
  find := by rw [hext.clientId, hext.sessionMgr, h.find]
  id := by rw [hext.session h.lt_length, hext.clientId, h.id]
  isOpen := by rw [hext.session h.lt_length, h.isOpen]
  receives := by
    rw [hext.session h.lt_length]
    exact h.receives

/-- The session to the server stays after a command that has been acted on. -/
theorem ServerSession.handled (h : k.ServerSession p) (hext : (k.takeReceive p).Extends t) :
    (t.postReceive p).ServerSession p where
  find := (congrArg₂ SessionMgr.find hext.sessionMgr hext.clientId).trans h.find
  id := by
    rw [session_of_handled h hext, h.id]
    exact hext.clientId.symm
  isOpen := by rw [session_of_handled h hext, h.isOpen]
  receives := by
    rw [session_of_handled h hext]
    exact h.receives

theorem ServerSession.direct (h : k.ServerSession p) (clientId sessionId : Uuid)
    (offer : Offer) : (k.direct clientId sessionId offer).ServerSession p :=
  h.of_extends (.send _ _ _)

theorem ServerSession.runDirect (h : k.ServerSession p) (i : Nat) (offer : Offer) :
    (k.runDirect i offer).ServerSession p := by
  unfold Client.runDirect
  split
  · exact h
  · have hnext : ServerSession { k with directs := k.directs.eraseIdx i } p :=
      h.of_extends (.of_eq rfl rfl rfl)
    exact hnext.direct _ _ _

theorem ServerSession.runDoDirect (h : k.ServerSession p) (i : Nat) :
    (k.runDoDirect i).ServerSession p := by
  unfold Client.runDoDirect
  split
  · exact h
  · have hnext : ServerSession { k with doDirects := k.doDirects.eraseIdx i } p :=
      h.of_extends (.of_eq rfl rfl rfl)
    exact hnext.of_extends (.doDirect _ _)

theorem ServerSession.postReceive (h : k.ServerSession p) (q : SessionPtr) :
    (k.postReceive q).ServerSession p := by
  by_cases hq : q = p
  · subst hq
    have hsession : (k.postReceive q).session q =
        { k.session q with receives := (k.session q).receives + 1 } :=
      k.session_modify h.lt_length
    exact ⟨h.find, by rw [hsession]; exact h.id, by rw [hsession]; exact h.isOpen,
      by rw [hsession]; exact Nat.succ_pos _⟩
  · have hsession : (k.postReceive q).session p = k.session p := by
      simp [session, Client.postReceive, modify, List.getD_eq_getElem?_getD, hq]
    exact ⟨h.find, by rw [hsession]; exact h.id, by rw [hsession]; exact h.isOpen,
      by rw [hsession]; exact h.receives⟩

theorem ServerSession.directDone (h : k.ServerSession p) (i : Nat) (ok : Bool) :
    (k.directDone i ok).ServerSession p := by
  unfold Client.directDone
  split
  · exact h
  · next q config hi =>
      have hnext : ServerSession { k with
          connects := k.connects.eraseIdx i
          doDirects := k.doDirects ++ [{ config with epList := config.epList.tail }] } p :=
        h.of_extends (.of_eq rfl rfl rfl)
      cases ok with
      | false => exact hnext
      | true =>
          rcases k.sessionMgr.addSession_cases config.sessionId q with
            ⟨hfind, hadd⟩ | ⟨-, hadd⟩
          · have hne : k.clientId ≠ config.sessionId := by
              rintro hid
              rw [← hid, h.find] at hfind
              exact nomatch hfind
            have hadded : ServerSession { k with
                connects := k.connects.eraseIdx i
                sessionMgr := ⟨Function.update k.sessionMgr.sessionMap config.sessionId
                  (some q)⟩ } p :=
              ⟨((k.sessionMgr.find_update _ _ _).trans (if_neg hne)).trans h.find, h.id, h.isOpen,
                h.receives⟩
            simp only [hadd, if_true]
            exact (hadded.postReceive q).of_extends (.send _ _ _)
          · simpa only [hadd, if_true] using hnext

/-- A request about a banned session is refused. -/
theorem receive_banned (hp : k.ServerSession p) (fromId toId : Uuid) (offer : Offer)
    (hbanned : k.bannedList x = true) :
    (k.receive p (.ofCommand (p2pCommand
        (directP2P fromId toId (directRequest x offer))))).ServerSession p ∧
    (k.receive p (.ofCommand (p2pCommand
        (directP2P fromId toId (directRequest x offer))))).seat x =
      { k.seat x with
        banned := false
        spoken := (k.seat x).spoken ++
          [directP2P k.clientId fromId (directRefusal x)] } := by
  have hprocess : (k.takeReceive p).processMakeDirect (some fromId) (directRequest x offer) =
      .ok (((k.takeReceive p).removeBan x).sendCommand k.clientId
        (p2pCommand (directP2P k.clientId fromId (directRefusal x)))) := by
    have hbanned' : (k.takeReceive p).bannedList x = true := hbanned
    simp only [processMakeDirect, directRequest, hbanned', Bool.false_eq_true, if_false, if_true]
    rfl
  rw [receive_directP2P hprocess]
  have hban : (k.takeReceive p).Extends ((k.takeReceive p).removeBan x) := .of_eq rfl rfl rfl
  refine ⟨hp.handled (hban.trans (.send _ _ _)), ?_⟩
  have hfind : ((k.takeReceive p).removeBan x).sessionMgr.find
      ((k.takeReceive p).removeBan x).clientId = some p := hp.find
  rw [seat_postReceive]
  exact (seat_send hfind fromId rfl).trans (by rw [seat_removeBan, seat_takeReceive]; rfl)

/-- A request about a session that is not banned is tried. -/
theorem receive_request (hp : k.ServerSession p) (fromId toId : Uuid) {offer : Offer}
    (hoffer : offerable offer = true) (hbanned : k.bannedList x = false) :
    (k.receive p (.ofCommand (p2pCommand
        (directP2P fromId toId (directRequest x offer))))).ServerSession p ∧
    ∃ left ≤ 2, (k.receive p (.ofCommand (p2pCommand
        (directP2P fromId toId (directRequest x offer))))).seat x =
      if left = 0 then
        { k.seat x with
          directs := (k.seat x).directs ++ [fromId]
          banned := true }
      else
        { k.seat x with
          connects := (k.seat x).connects ++ [(fromId, .direct, left)] } := by
  obtain ⟨epList, hep, hlength⟩ := exists_endpointsOf (x := x) k.network hoffer
  have hprocess : (k.takeReceive p).processMakeDirect (some fromId) (directRequest x offer) =
      .ok ((k.takeReceive p).doDirect ⟨x, .direct, fromId, epList⟩) := by
    have hbanned' : (k.takeReceive p).bannedList x = false := hbanned
    have hep' : endpointsOf (k.takeReceive p).network (directRequest x offer) = some epList := hep
    have hid : (directRequest x offer).sessionId = some x := rfl
    have herror : (directRequest x offer).error = false := rfl
    simp only [processMakeDirect, hid, herror, hbanned', hep', Bool.false_eq_true, if_false]
  rw [receive_directP2P hprocess]
  refine ⟨hp.handled (.doDirect _ _), epList.length, hlength, ?_⟩
  rw [seat_postReceive, seat_doDirect (x := x) rfl rfl, seat_takeReceive]
  simp only [List.length_eq_zero_iff]

/-- A refusal is followed by a PROXYUP session to the client that refuses. -/
theorem receive_refusal (hp : k.ServerSession p) (fromId toId : Uuid) :
    (k.receive p (.ofCommand (p2pCommand
        (directP2P fromId toId (directRefusal x))))).ServerSession p ∧
    (k.receive p (.ofCommand (p2pCommand
        (directP2P fromId toId (directRefusal x))))).seat x =
      { k.seat x with
        banned := false
        proxies := (k.seat x).proxies ++ [fromId] } := by
  rw [receive_directP2P rfl]
  have hban : (k.takeReceive p).Extends ((k.takeReceive p).removeBan x) := .of_eq rfl rfl rfl
  refine ⟨hp.handled (hban.trans (.doProxy _ _)), ?_⟩
  rw [seat_postReceive, seat_doProxy, seat_removeBan, seat_takeReceive]

end Client

end OpenNat
