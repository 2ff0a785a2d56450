import BoostSamples.OpenNat.Seat
import BoostSamples.OpenNat.Negotiation

/-!
# Two clients and the messages about one direct session

Both clients stay attached to the server, which relays what one says to the other
in order. Either may start the session at any time, with any endpoints that can be
parsed; the posted calls and the attempts of a client run in any order, and an
attempt ends either way. Between these events a client may do anything that
leaves its seat for the session alone.
-/

namespace OpenNat

/-- The two clients, how many messages about the session each has been given, and
whether the session has been started. -/
structure Exchange where
  client : Party → Client
  delivered : Party → Nat := fun _ => 0
  started : Bool := false

inductive ExchangeEvent
  | start (p : Party) (offer : Offer)
  | deliver (p : Party)
  | runDirect (p : Party) (i : Nat) (offer : Offer)
  | runDoDirect (p : Party) (i : Nat)
  | directDone (p : Party) (i : Nat) (ok : Bool)
  | other (p : Party) (k : Client)

instance (k : Client) (p : SessionPtr) : Decidable (k.ServerSession p) :=
  decidable_of_iff (k.sessionMgr.find k.clientId = some p ∧ (k.session p).id = k.clientId ∧
      (k.session p).isOpen = true ∧ 0 < (k.session p).receives)
    ⟨fun h => ⟨h.1, h.2.1, h.2.2.1, h.2.2.2⟩, fun h => ⟨h.find, h.id, h.isOpen, h.receives⟩⟩

instance (k : Client) : Decidable k.Attached :=
  decidable_of_iff (∃ p ∈ k.sessionMgr.find k.clientId, k.ServerSession p)
    ⟨fun ⟨p, _, hp⟩ => ⟨p, hp⟩, fun ⟨p, hp⟩ => ⟨p, hp.find, hp⟩⟩

namespace Exchange

def seat (s : Exchange) (x : Uuid) (p : Party) : Client.Seat := (s.client p).seat x

/-- The messages about the session that are on their way to a client. -/
def inbox (s : Exchange) (x : Uuid) (p : Party) : List P2P :=
  (s.seat x p.other).spoken.drop (s.delivered p)

def set (s : Exchange) (p : Party) (k : Client) : Exchange :=
  { s with client := Function.update s.client p k }

def given (s : Exchange) (p : Party) (k : Client) : Exchange :=
  { s.set p k with delivered := Function.update s.delivered p (s.delivered p + 1) }

/-- What happens next. A message is read by the session to the server; `other` is
anything else that a client does. -/
def step (x : Uuid) (s : Exchange) : ExchangeEvent → Option Exchange
  | .start p offer =>
      if Client.offerable offer then
        some { s.set p ((s.client p).direct (s.client p.other).clientId x offer) with
          started := true }
      else none
  | .deliver p =>
      match s.inbox x p, (s.client p).sessionMgr.find (s.client p).clientId with
      | m :: _, some q =>
          if m.toId = some (s.client p).clientId then
            some (s.given p ((s.client p).receive q (.ofCommand (Client.p2pCommand m))))
          else none
      | _, _ => none
  | .runDirect p i offer =>
      if ((s.client p).directs[i]?.map (·.2)) = some x ∧ Client.offerable offer then
        some (s.set p ((s.client p).runDirect i offer))
      else none
  | .runDoDirect p i =>
      if ((s.client p).doDirects[i]?.map (·.sessionId)) = some x then
        some (s.set p ((s.client p).runDoDirect i))
      else none
  | .directDone p i ok =>
      if ((s.client p).connects[i]?.map (·.2.sessionId)) = some x then
        some (s.set p ((s.client p).directDone i ok))
      else none
  | .other p k =>
      if k.seat x = s.seat x p ∧ k.Attached then some (s.set p k) else none

def isRefusal (m : P2P) : Bool := m.makeDirect.any (·.error)

/-- A client's part in the negotiation: its ban, the number of posted `Direct`, the
endpoints left of each posted `DoDirect` and of each attempt, what is on its way to
it (a refusal is `true`), its PROXYUP sessions, and what it has said and reached. -/
structure Place where
  banned : Bool
  directs : Nat
  doDirects : List Nat
  connects : List Nat
  inbox : List Bool
  proxies : List Uuid
  requests : Nat
  refusals : Nat
  successes : Nat
  deriving DecidableEq

/-- The part of a client with the given seat and messages on their way. -/
def placeOf (seat : Client.Seat) (inbox : List P2P) : Place where
  banned := seat.banned
  directs := seat.directs.length
  doDirects := seat.doDirects.map (·.2.2)
  connects := seat.connects.map (·.2.2)
  inbox := inbox.map isRefusal
  proxies := seat.proxies
  requests := seat.spoken.countP fun m => !isRefusal m
  refusals := seat.spoken.countP isRefusal
  successes := seat.successes

def place (s : Exchange) (x : Uuid) (p : Party) : Place := placeOf (s.seat x p) (s.inbox x p)

/-- A client takes its turn: its part changes, and messages are added to those on
their way to the other. -/
def turn (f : Party → Place) (p : Party) (a : Place) (said : List Bool) : Party → Place :=
  fun q => if q = p then a else { f q with inbox := (f q).inbox ++ said }

@[simp] theorem turn_self (f : Party → Place) (p : Party) (a : Place) (said : List Bool) :
    turn f p a said p = a := if_pos rfl

@[simp] theorem turn_other (f : Party → Place) (p : Party) (a : Place) (said : List Bool) :
    turn f p a said p.other = { f p.other with inbox := (f p.other).inbox ++ said } :=
  if_neg p.other_ne

/-- Everything a client holds about the session concerns the other one, and what it
says can be acted on. -/
structure Civil (x : Uuid) (own peer : Uuid) (seat : Client.Seat) : Prop where
  clientId : seat.clientId = own
  directs : ∀ id ∈ seat.directs, id = peer
  doDirects : ∀ c ∈ seat.doDirects, c.1 = peer ∧ c.2.1 = .direct
  connects : ∀ c ∈ seat.connects, c.1 = peer ∧ c.2.1 = .direct

/-- A message about the session from one client to another that can be acted on. -/
def Proper (x : Uuid) (fromId toId : Uuid) (m : P2P) : Prop :=
  ∃ direct, Client.Sayable x direct ∧ m = Client.directP2P fromId toId direct

/-- Both clients are attached, and the session is a matter between them. -/
structure Orderly (x : Uuid) (ids : Party → Uuid) (s : Exchange) : Prop where
  attached : ∀ p, (s.client p).Attached
  civil : ∀ p, Civil x (ids p) (ids p.other) (s.seat x p)
  delivered : ∀ p, s.delivered p ≤ (s.seat x p.other).spoken.length
  proper : ∀ p, ∀ m ∈ s.inbox x p, Proper x (ids p.other) (ids p) m

variable {x : Uuid} {ids : Party → Uuid} {s t : Exchange} {p : Party} {k : Client}

structure Acts (x : Uuid) (ids : Party → Uuid) (s t : Exchange) (p : Party) (n : Nat)
    (said : List P2P) : Prop where
  other : t.client p.other = s.client p.other
  delivered : t.delivered p = s.delivered p + n
  deliveredOther : t.delivered p.other = s.delivered p.other
  attached : (t.client p).Attached
  civil : Civil x (ids p) (ids p.other) (t.seat x p)
  length : n ≤ (s.inbox x p).length
  spoken : (t.seat x p).spoken = (s.seat x p).spoken ++ said
  proper : ∀ m ∈ said, Proper x (ids p) (ids p.other) m

variable {n : Nat} {said : List P2P}

theorem Acts.seat_other (h : Acts x ids s t p n said) :
    t.seat x p.other = s.seat x p.other :=
  congrArg (·.seat x) h.other

theorem Acts.inbox_self (h : Acts x ids s t p n said) :
    t.inbox x p = (s.inbox x p).drop n := by
  rw [inbox, inbox, h.seat_other, h.delivered, List.drop_drop]

theorem Acts.inbox_other (h : Acts x ids s t p n said) (hs : Orderly x ids s) :
    t.inbox x p.other = s.inbox x p.other ++ said := by
  have hlength := hs.delivered p.other
  rw [Party.other_other] at hlength
  rw [inbox, inbox, Party.other_other, h.deliveredOther, h.spoken,
    List.drop_append_of_le_length hlength]

theorem Acts.place (h : Acts x ids s t p n said) (hs : Orderly x ids s) :
    t.place x = turn (s.place x) p (placeOf (t.seat x p) ((s.inbox x p).drop n))
      (said.map isRefusal) := by
  funext q
  rcases p.eq_or_eq_other q with rfl | rfl
  · rw [turn_self, Exchange.place, h.inbox_self]
  · rw [turn_other, Exchange.place, h.inbox_other hs, h.seat_other]
    simp [placeOf, Exchange.place]

theorem Acts.orderly (h : Acts x ids s t p n said) (hs : Orderly x ids s) :
    Orderly x ids t where
  attached q := by
    rcases p.eq_or_eq_other q with rfl | rfl
    · exact h.attached
    · rw [h.other]
      exact hs.attached _
  civil q := by
    rcases p.eq_or_eq_other q with rfl | rfl
    · exact h.civil
    · rw [h.seat_other]
      exact hs.civil _
  delivered q := by
    rcases p.eq_or_eq_other q with rfl | rfl
    · have hlength := h.length
      rw [inbox, List.length_drop] at hlength
      have hle := hs.delivered q
      rw [h.delivered, h.seat_other]
      omega
    · have hle := hs.delivered p.other
      rw [Party.other_other] at hle ⊢
      rw [h.deliveredOther, h.spoken, List.length_append]
      exact Nat.le_add_right_of_le hle
  proper q m hm := by
    rcases p.eq_or_eq_other q with rfl | rfl
    · rw [h.inbox_self] at hm
      exact hs.proper q m (List.mem_of_mem_drop hm)
    · rw [h.inbox_other hs] at hm
      rcases List.mem_append.1 hm with hold | hnew
      · exact hs.proper _ m hold
      · rw [Party.other_other]
        exact h.proper m hnew

theorem acts (hs : Orderly x ids s) {a : Client.Seat} {b : Place}
    (hclient : t.client = Function.update s.client p k)
    (hdelivered : t.delivered = Function.update s.delivered p (s.delivered p + n))
    (hlength : n ≤ (s.inbox x p).length) (hattached : k.Attached) (hseat : k.seat x = a)
    (hcivil : Civil x (ids p) (ids p.other) a)
    (hspoken : a.spoken = (s.seat x p).spoken ++ said)
    (hproper : ∀ m ∈ said, Proper x (ids p) (ids p.other) m)
    (hplace : placeOf a ((s.inbox x p).drop n) = b) :
    Orderly x ids t ∧ t.place x = turn (s.place x) p b (said.map isRefusal) := by
  have hk : t.client p = k := by rw [hclient, Function.update_self]
  have ha : t.seat x p = a := by rw [seat, hk, hseat]
  have h : Acts x ids s t p n said :=
    { other := by rw [hclient, Function.update_of_ne p.other_ne]
      delivered := by rw [hdelivered, Function.update_self]
      deliveredOther := by rw [hdelivered, Function.update_of_ne p.other_ne]
      attached := hk ▸ hattached
      civil := ha ▸ hcivil
      length := hlength
      spoken := ha ▸ hspoken
      proper := hproper }
  exact ⟨h.orderly hs, hplace ▸ ha ▸ h.place hs⟩

theorem acts_set (hs : Orderly x ids s) {a : Client.Seat} {b : Place} (hattached : k.Attached)
    (hseat : k.seat x = a) (hcivil : Civil x (ids p) (ids p.other) a)
    (hspoken : a.spoken = (s.seat x p).spoken ++ said)
    (hproper : ∀ m ∈ said, Proper x (ids p) (ids p.other) m)
    (hplace : placeOf a (s.inbox x p) = b) :
    Orderly x ids (s.set p k) ∧
      (s.set p k).place x = turn (s.place x) p b (said.map isRefusal) :=
  acts (t := s.set p k) (n := 0) hs rfl (Function.update_eq_self p s.delivered).symm
    (Nat.zero_le _) hattached hseat hcivil hspoken hproper hplace

inductive Deed (x : Uuid) (ids : Party → Uuid) (s : Exchange) :
    ExchangeEvent → (Party → Place) → Prop
  | start (p : Party) (offer : Offer) :
      Deed x ids s (.start p offer) (turn (s.place x) p
        { s.place x p with requests := (s.place x p).requests + 1 } [false])
  | ask {p : Party} {i : Nat} {offer : Offer} {n : Nat} : (s.place x p).directs = n + 1 →
      Deed x ids s (.runDirect p i offer) (turn (s.place x) p
        { s.place x p with directs := n, requests := (s.place x p).requests + 1 } [false])
  | refuse {p : Party} {rest : List Bool} : (s.place x p).inbox = false :: rest →
      (s.place x p).banned = true →
      Deed x ids s (.deliver p) (turn (s.place x) p
        { s.place x p with
          banned := false, inbox := rest, refusals := (s.place x p).refusals + 1 } [true])
  | accept {p : Party} {rest : List Bool} {left : Nat} :
      (s.place x p).inbox = false :: rest → (s.place x p).banned = false → left ≤ 2 → left ≠ 0 →
      Deed x ids s (.deliver p) (turn (s.place x) p
        { s.place x p with inbox := rest, connects := (s.place x p).connects ++ [left] } [])
  | acceptNone {p : Party} {rest : List Bool} :
      (s.place x p).inbox = false :: rest → (s.place x p).banned = false →
      Deed x ids s (.deliver p) (turn (s.place x) p
        { s.place x p with
          inbox := rest, directs := (s.place x p).directs + 1, banned := true } [])
  | fallBack {p : Party} {rest : List Bool} : (s.place x p).inbox = true :: rest →
      Deed x ids s (.deliver p) (turn (s.place x) p
        { s.place x p with
          inbox := rest, banned := false, proxies := (s.place x p).proxies ++ [ids p.other] } [])
  | attempt {p : Party} {i : Nat} {before after : List Nat} {left : Nat} :
      (s.place x p).doDirects = before ++ left :: after → left ≠ 0 →
      Deed x ids s (.runDoDirect p i) (turn (s.place x) p
        { s.place x p with
          doDirects := before ++ after, connects := (s.place x p).connects ++ [left] } [])
  | exhaust {p : Party} {i : Nat} {before after : List Nat} :
      (s.place x p).doDirects = before ++ 0 :: after →
      Deed x ids s (.runDoDirect p i) (turn (s.place x) p
        { s.place x p with
          doDirects := before ++ after, directs := (s.place x p).directs + 1
          banned := true } [])
  | fail {p : Party} {i : Nat} {ok : Bool} {before after : List Nat} {left : Nat} :
      (s.place x p).connects = before ++ left :: after → ¬ (s.client p).Succeeds x ok →
      Deed x ids s (.directDone p i ok) (turn (s.place x) p
        { s.place x p with
          connects := before ++ after, doDirects := (s.place x p).doDirects ++ [left - 1] } [])
  | succeed {p : Party} {i : Nat} {ok : Bool} {before after : List Nat} {left : Nat} :
      (s.place x p).connects = before ++ left :: after → (s.client p).Succeeds x ok →
      Deed x ids s (.directDone p i ok) (turn (s.place x) p
        { s.place x p with
          connects := before ++ after, successes := (s.place x p).successes + 1 } [])
  | other (p : Party) (k : Client) : Deed x ids s (.other p k) (s.place x)

theorem isRefusal_request (fromId toId : Uuid) (offer : Offer) :
    isRefusal (Client.directP2P fromId toId (Client.directRequest x offer)) = false := rfl

theorem isRefusal_refusal (fromId toId : Uuid) :
    isRefusal (Client.directP2P fromId toId (Client.directRefusal x)) = true := rfl

theorem acts_silent (hs : Orderly x ids s) {a : Client.Seat} (hattached : k.Attached)
    (hseat : k.seat x = a) (hcivil : Civil x (ids p) (ids p.other) a)
    (hspoken : a.spoken = (s.seat x p).spoken) :
    Orderly x ids (s.set p k) ∧
      (s.set p k).place x = turn (s.place x) p (placeOf a (s.inbox x p)) [] :=
  have hnil : a.spoken = (s.seat x p).spoken ++ [] := hspoken.trans (List.append_nil _).symm
  acts_set hs hattached hseat hcivil hnil (fun _ hm => absurd hm List.not_mem_nil) rfl

theorem Civil.request (h : Civil x (ids p) (ids p.other) (k.seat x)) {offer : Offer}
    (hoffer : Client.offerable offer = true) :
    ∀ m ∈ [Client.directP2P k.clientId (ids p.other) (Client.directRequest x offer)],
      Proper x (ids p) (ids p.other) m := by
  have hid : k.clientId = ids p := h.clientId
  rw [hid]
  exact List.forall_mem_singleton.2 ⟨_, .request hoffer, rfl⟩

theorem placeOf_request (a : Client.Seat) (inbox : List P2P) (fromId toId : Uuid)
    (offer : Offer) :
    placeOf { a with spoken := a.spoken ++
        [Client.directP2P fromId toId (Client.directRequest x offer)] } inbox =
      { placeOf a inbox with requests := (placeOf a inbox).requests + 1 } := by
  simp [placeOf, isRefusal_request, List.countP_append]

theorem placeOf_refusal (a : Client.Seat) (inbox : List P2P) (fromId toId : Uuid) :
    placeOf { a with spoken := a.spoken ++
        [Client.directP2P fromId toId (Client.directRefusal x)] } inbox =
      { placeOf a inbox with refusals := (placeOf a inbox).refusals + 1 } := by
  simp [placeOf, isRefusal_refusal, List.countP_append]

/-- What is left of a list after an element of it is taken out. -/
theorem mem_of_mem_append {α : Type*} {l before after : List α} {a b : α}
    (hl : l = before ++ a :: after) (hb : b ∈ before ++ after) : b ∈ l := by
  rw [hl]
  rcases List.mem_append.1 hb with hbefore | hafter
  · exact List.mem_append_left _ hbefore
  · exact List.mem_append_right _ (List.mem_cons_of_mem _ hafter)

theorem mem_of_eq_append {α : Type*} {l before after : List α} {a : α}
    (hl : l = before ++ a :: after) : a ∈ l :=
  hl ▸ List.mem_append_right _ (List.mem_cons_self ..)

theorem deed_start (hs : Orderly x ids s) {offer : Offer}
    (h : s.step x (.start p offer) = some t) :
    Orderly x ids t ∧ Deed x ids s (.start p offer) (t.place x) := by
  obtain ⟨hoffer, ht⟩ := Option.ite_none_right_eq_some.1 h
  cases ht
  obtain ⟨q, hq⟩ := hs.attached p
  have hcivil := hs.civil p
  have hpeer : (s.client p.other).clientId = ids p.other := (hs.civil p.other).clientId
  rw [hpeer]
  obtain ⟨horderly, hplace⟩ := acts
    (t := { s.set p ((s.client p).direct (ids p.other) x offer) with started := true }) (n := 0) hs
    rfl (Function.update_eq_self p s.delivered).symm (Nat.zero_le _)
    ⟨q, hq.direct _ _ _⟩ (Client.seat_direct hq.find (ids p.other) offer)
    ⟨hcivil.clientId, hcivil.directs, hcivil.doDirects, hcivil.connects⟩ rfl
    (hcivil.request hoffer) (placeOf_request (s.seat x p) _ _ _ _)
  refine ⟨horderly, ?_⟩
  rw [hplace]
  exact .start p offer

theorem deed_runDirect (hs : Orderly x ids s) {i : Nat} {offer : Offer}
    (h : s.step x (.runDirect p i offer) = some t) :
    Orderly x ids t ∧ Deed x ids s (.runDirect p i offer) (t.place x) := by
  obtain ⟨⟨hid, hoffer⟩, ht⟩ := Option.ite_none_right_eq_some.1 h
  cases ht
  obtain ⟨⟨toId, sessionId⟩, hi, hsession⟩ := Option.map_eq_some_iff.1 hid
  obtain rfl : sessionId = x := hsession
  obtain ⟨q, hq⟩ := hs.attached p
  obtain ⟨before, after, hl, hseat⟩ := Client.seat_runDirect hq.find offer hi
  have hcivil := hs.civil p
  obtain rfl : toId = ids p.other := hcivil.directs toId (mem_of_eq_append hl)
  obtain ⟨horderly, hplace⟩ := acts_set hs ⟨q, hq.runDirect i offer⟩ hseat
    ⟨hcivil.clientId, fun id hid => hcivil.directs id (mem_of_mem_append hl hid),
      hcivil.doDirects, hcivil.connects⟩ rfl
    (hcivil.request hoffer)
    (placeOf_request { s.seat sessionId p with directs := before ++ after } _ _ _ _)
  refine ⟨horderly, ?_⟩
  rw [hplace]
  have hlength : (s.place sessionId p).directs = (before ++ after).length + 1 := by
    simp [Exchange.place, placeOf, seat, hl, Nat.add_assoc]
  exact .ask hlength

theorem deed_runDoDirect (hs : Orderly x ids s) {i : Nat}
    (h : s.step x (.runDoDirect p i) = some t) :
    Orderly x ids t ∧ Deed x ids s (.runDoDirect p i) (t.place x) := by
  obtain ⟨hid, ht⟩ := Option.ite_none_right_eq_some.1 h
  cases ht
  obtain ⟨config, hi, hsession⟩ := Option.map_eq_some_iff.1 hid
  obtain ⟨q, hq⟩ := hs.attached p
  have hcivil := hs.civil p
  obtain ⟨hto, htype⟩ := hcivil.doDirects _
    (List.mem_filterMap.2 ⟨config, List.mem_of_getElem? hi, Client.configOf_of_id hsession⟩)
  obtain ⟨before, after, hl, hseat⟩ := Client.seat_runDoDirect hi hsession htype
  have hrest : ∀ c ∈ before ++ after, c.1 = ids p.other ∧ c.2.1 = .direct := fun c hc =>
    hcivil.doDirects c (mem_of_mem_append hl hc)
  have hleft : (s.place x p).doDirects =
      before.map (·.2.2) ++ config.epList.length :: after.map (·.2.2) := by
    simp [Exchange.place, placeOf, seat, hl]
  by_cases hnone : config.epList = []
  · rw [if_pos hnone] at hseat
    obtain ⟨horderly, hplace⟩ := acts_silent hs ⟨q, hq.runDoDirect i⟩ hseat
      ⟨hcivil.clientId, List.forall_mem_append.2 ⟨hcivil.directs, List.forall_mem_singleton.2 hto⟩,
        hrest, hcivil.connects⟩ rfl
    refine ⟨horderly, ?_⟩
    rw [hplace]
    rw [hnone] at hleft
    have hb : Deed x ids s (.runDoDirect p i) _ := .exhaust hleft
    simpa [placeOf, Exchange.place, seat] using hb
  · rw [if_neg hnone] at hseat
    obtain ⟨horderly, hplace⟩ := acts_silent hs ⟨q, hq.runDoDirect i⟩ hseat
      ⟨hcivil.clientId, hcivil.directs, hrest,
        List.forall_mem_append.2 ⟨hcivil.connects, List.forall_mem_singleton.2 ⟨hto, rfl⟩⟩⟩ rfl
    refine ⟨horderly, ?_⟩
    rw [hplace]
    have hb : Deed x ids s (.runDoDirect p i) _ := .attempt hleft fun hzero =>
      hnone (List.eq_nil_of_length_eq_zero hzero)
    simpa [placeOf, Exchange.place, seat] using hb

theorem deed_directDone (hs : Orderly x ids s) {i : Nat} {ok : Bool}
    (h : s.step x (.directDone p i ok) = some t) :
    Orderly x ids t ∧ Deed x ids s (.directDone p i ok) (t.place x) := by
  obtain ⟨hid, ht⟩ := Option.ite_none_right_eq_some.1 h
  cases ht
  obtain ⟨⟨y, config⟩, hi, hsession⟩ := Option.map_eq_some_iff.1 hid
  obtain ⟨q, hq⟩ := hs.attached p
  have hcivil := hs.civil p
  obtain ⟨before, after, hl, hseat⟩ := Client.seat_directDone ok hi hsession
  obtain ⟨hto, htype⟩ := hcivil.connects _ (mem_of_eq_append hl)
  have hrest : ∀ c ∈ before ++ after, c.1 = ids p.other ∧ c.2.1 = .direct := fun c hc =>
    hcivil.connects c (mem_of_mem_append hl hc)
  have hleft : (s.place x p).connects =
      before.map (·.2.2) ++ config.epList.length :: after.map (·.2.2) := by
    simp [Exchange.place, placeOf, seat, hl]
  by_cases hok : (s.client p).Succeeds x ok
  · rw [if_pos hok] at hseat
    obtain ⟨horderly, hplace⟩ := acts_silent hs ⟨q, hq.directDone i ok⟩ hseat
      ⟨hcivil.clientId, hcivil.directs, hcivil.doDirects, hrest⟩ rfl
    refine ⟨horderly, ?_⟩
    rw [hplace]
    have hb : Deed x ids s (.directDone p i ok) _ := .succeed hleft hok
    simpa [placeOf, Exchange.place, seat] using hb
  · rw [if_neg hok] at hseat
    obtain ⟨horderly, hplace⟩ := acts_silent hs ⟨q, hq.directDone i ok⟩ hseat
      ⟨hcivil.clientId, hcivil.directs,
        List.forall_mem_append.2 ⟨hcivil.doDirects, List.forall_mem_singleton.2 ⟨hto, htype⟩⟩,
        hrest⟩ rfl
    refine ⟨horderly, ?_⟩
    rw [hplace]
    have hb : Deed x ids s (.directDone p i ok) _ := .fail hleft hok
    simpa [placeOf, Exchange.place, seat] using hb

theorem acts_given (hs : Orderly x ids s) {a : Client.Seat} {b : Place} {m : P2P}
    {rest : List P2P} (hinbox : s.inbox x p = m :: rest) (hattached : k.Attached)
    (hseat : k.seat x = a) (hcivil : Civil x (ids p) (ids p.other) a)
    (hspoken : a.spoken = (s.seat x p).spoken ++ said)
    (hproper : ∀ m ∈ said, Proper x (ids p) (ids p.other) m) (hplace : placeOf a rest = b) :
    Orderly x ids (s.given p k) ∧
      (s.given p k).place x = turn (s.place x) p b (said.map isRefusal) := by
  have hdrop : (s.inbox x p).drop 1 = rest := by rw [hinbox, List.drop_one, List.tail_cons]
  exact acts (t := s.given p k) hs rfl rfl (by simp [hinbox]) hattached hseat hcivil hspoken
    hproper (hdrop ▸ hplace)

theorem acts_given_silent (hs : Orderly x ids s) {a : Client.Seat} {m : P2P} {rest : List P2P}
    (hinbox : s.inbox x p = m :: rest) (hattached : k.Attached) (hseat : k.seat x = a)
    (hcivil : Civil x (ids p) (ids p.other) a) (hspoken : a.spoken = (s.seat x p).spoken) :
    Orderly x ids (s.given p k) ∧
      (s.given p k).place x = turn (s.place x) p (placeOf a rest) [] :=
  have hnil : a.spoken = (s.seat x p).spoken ++ [] := hspoken.trans (List.append_nil _).symm
  acts_given hs hinbox hattached hseat hcivil hnil (fun _ hm => absurd hm List.not_mem_nil) rfl

theorem deed_deliver (hs : Orderly x ids s) (h : s.step x (.deliver p) = some t) :
    Orderly x ids t ∧ Deed x ids s (.deliver p) (t.place x) := by
  obtain ⟨q, hq⟩ := hs.attached p
  have hcivil := hs.civil p
  simp only [step, hq.find] at h
  cases hinbox : s.inbox x p with
  | nil => simp [hinbox] at h
  | cons m rest =>
      simp only [hinbox] at h
      obtain ⟨-, ht⟩ := Option.ite_none_right_eq_some.1 h
      obtain ⟨direct, hsayable, rfl⟩ := hs.proper p m (hinbox ▸ List.mem_cons_self ..)
      have hplaceInbox : (s.place x p).inbox =
          isRefusal (Client.directP2P (ids p.other) (ids p) direct) :: rest.map isRefusal := by
        simp [Exchange.place, placeOf, hinbox]
      cases hsayable with
      | refusal =>
          obtain ⟨hsession, hseat⟩ := Client.receive_refusal (x := x) hq (ids p.other) (ids p)
          obtain ⟨horderly, hplace⟩ := acts_given_silent hs hinbox ⟨q, hsession⟩ hseat
            ⟨hcivil.clientId, hcivil.directs, hcivil.doDirects, hcivil.connects⟩
            rfl
          cases ht
          refine ⟨horderly, ?_⟩
          rw [hplace]
          exact .fallBack hplaceInbox
      | @request offer hoffer =>
          cases hbanned : (s.client p).bannedList x with
          | true =>
              obtain ⟨hsession, hseat⟩ :=
                Client.receive_banned hq (ids p.other) (ids p) offer hbanned
              have hid : (s.client p).clientId = ids p := hcivil.clientId
              rw [hid] at hseat
              obtain ⟨horderly, hplace⟩ := acts_given hs hinbox ⟨q, hsession⟩ hseat
                ⟨hcivil.clientId, hcivil.directs, hcivil.doDirects, hcivil.connects⟩ rfl
                (List.forall_mem_singleton.2 ⟨_, .refusal, rfl⟩)
                (placeOf_refusal { s.seat x p with banned := false } _ _ _)
              cases ht
              refine ⟨horderly, ?_⟩
              rw [hplace]
              exact .refuse hplaceInbox hbanned
          | false =>
              obtain ⟨hsession, left, hle, hseat⟩ :=
                Client.receive_request hq (ids p.other) (ids p) hoffer hbanned
              cases ht
              by_cases hleft : left = 0
              · rw [if_pos hleft] at hseat
                obtain ⟨horderly, hplace⟩ := acts_given_silent hs hinbox ⟨q, hsession⟩ hseat
                  ⟨hcivil.clientId,
                    List.forall_mem_append.2 ⟨hcivil.directs, List.forall_mem_singleton.2 rfl⟩,
                    hcivil.doDirects, hcivil.connects⟩
                  rfl
                refine ⟨horderly, ?_⟩
                rw [hplace]
                have hb : Deed x ids s (.deliver p) _ := .acceptNone hplaceInbox hbanned
                simpa [placeOf, Exchange.place, seat] using hb
              · rw [if_neg hleft] at hseat
                obtain ⟨horderly, hplace⟩ := acts_given_silent hs hinbox ⟨q, hsession⟩ hseat
                  ⟨hcivil.clientId, hcivil.directs, hcivil.doDirects,
                    List.forall_mem_append.2
                      ⟨hcivil.connects, List.forall_mem_singleton.2 ⟨rfl, rfl⟩⟩⟩
                  rfl
                refine ⟨horderly, ?_⟩
                rw [hplace]
                have hb : Deed x ids s (.deliver p) _ :=
                  .accept hplaceInbox hbanned hle hleft
                simpa [placeOf, Exchange.place, seat] using hb

theorem deed_other (hs : Orderly x ids s) (h : s.step x (.other p k) = some t) :
    Orderly x ids t ∧ Deed x ids s (.other p k) (t.place x) := by
  obtain ⟨⟨hseat, hattached⟩, ht⟩ := Option.ite_none_right_eq_some.1 h
  cases ht
  obtain ⟨horderly, hplace⟩ := acts_silent hs hattached hseat (hs.civil p) rfl
  refine ⟨horderly, ?_⟩
  have hsame : (s.set p k).place x = s.place x := by
    rw [hplace]
    funext q
    rcases p.eq_or_eq_other q with rfl | rfl
    · rw [turn_self, Exchange.place]
    · rw [turn_other, List.append_nil]
  rw [hsame]
  exact .other p k

/-- The session stays a matter between the two clients, and each event is one of the
deeds. -/
theorem deed_of_step (hs : Orderly x ids s) {e : ExchangeEvent} (h : s.step x e = some t) :
    Orderly x ids t ∧ Deed x ids s e (t.place x) := by
  cases e with
  | start p offer => exact deed_start hs h
  | deliver p => exact deed_deliver hs h
  | runDirect p i offer => exact deed_runDirect hs h
  | runDoDirect p i => exact deed_runDoDirect hs h
  | directDone p i ok => exact deed_directDone hs h
  | other p k => exact deed_other hs h

/-- Nothing is going on about the session: no call is posted, no attempt is in
progress, and no message is on its way. -/
structure Quiet (f : Party → Place) : Prop where
  directs : ∀ p, (f p).directs = 0
  doDirects : ∀ p, (f p).doDirects = []
  connects : ∀ p, (f p).connects = []
  inbox : ∀ p, (f p).inbox = []

/-- Both clients are attached, and nothing is going on about the session yet. -/
structure Idle (x : Uuid) (s : Exchange) : Prop where
  attached : ∀ p, (s.client p).Attached
  started : s.started = false
  delivered : ∀ p, s.delivered p = (s.seat x p.other).spoken.length
  quiet : Quiet (s.place x)

def Over (x : Uuid) (s : Exchange) : Prop := s.started = true ∧ Quiet (s.place x)

def exchange (x : Uuid) : Transition.System Exchange ExchangeEvent where
  init := Idle x
  step := step x

theorem Idle.orderly (h : Idle x s) : Orderly x (fun p => (s.client p).clientId) s where
  attached := h.attached
  civil p :=
    { clientId := rfl
      directs := by
        rw [List.eq_nil_of_length_eq_zero (h.quiet.directs p)]
        exact fun _ hm => absurd hm List.not_mem_nil
      doDirects := by
        rw [List.map_eq_nil_iff.1 (h.quiet.doDirects p)]
        exact fun _ hm => absurd hm List.not_mem_nil
      connects := by
        rw [List.map_eq_nil_iff.1 (h.quiet.connects p)]
        exact fun _ hm => absurd hm List.not_mem_nil }
  delivered p := (h.delivered p).le
  proper p := by
    rw [List.map_eq_nil_iff.1 (h.quiet.inbox p)]
    exact fun _ hm => absurd hm List.not_mem_nil

def starts : ExchangeEvent → Bool
  | .start _ _ => true
  | _ => false

theorem started_of_step {e : ExchangeEvent} (h : s.step x e = some t) :
    (∃ p offer, e = .start p offer ∧ t.started = true) ∨
      (starts e = false ∧ t.started = s.started) := by
  cases e with
  | start p offer =>
      obtain ⟨-, ht⟩ := Option.ite_none_right_eq_some.1 h
      cases ht
      exact .inl ⟨p, offer, rfl, rfl⟩
  | deliver p =>
      simp only [step] at h
      split at h
      · obtain ⟨-, ht⟩ := Option.ite_none_right_eq_some.1 h
        cases ht
        exact .inr ⟨rfl, rfl⟩
      · exact nomatch h
  | runDirect p i offer =>
      obtain ⟨-, ht⟩ := Option.ite_none_right_eq_some.1 h
      cases ht
      exact .inr ⟨rfl, rfl⟩
  | runDoDirect p i =>
      obtain ⟨-, ht⟩ := Option.ite_none_right_eq_some.1 h
      cases ht
      exact .inr ⟨rfl, rfl⟩
  | directDone p i ok =>
      obtain ⟨-, ht⟩ := Option.ite_none_right_eq_some.1 h
      cases ht
      exact .inr ⟨rfl, rfl⟩
  | other p k =>
      obtain ⟨-, ht⟩ := Option.ite_none_right_eq_some.1 h
      cases ht
      exact .inr ⟨rfl, rfl⟩

def attachedClient (id : Uuid) : Client where
  clientId := id
  isConnected := true
  sessions := [{ id := id, type := .stun, isReady := true, receives := 1 }]
  sessionMgr := ⟨fun id' => if id' = id then some 0 else none⟩

def attachedClients : Exchange where
  client p := attachedClient (if p = .a then 1 else 2)

theorem idle_attachedClients (x : Uuid) : Idle x attachedClients where
  attached p := by
    refine ⟨0, ?_, rfl, rfl, Nat.one_pos⟩
    simp [attachedClients, attachedClient, SessionMgr.find]
  started := rfl
  delivered _ := rfl
  quiet := by
    constructor <;> intro p <;> rfl

def view (x : Uuid) (s : Exchange) : Bool × Place × Place :=
  (s.started, s.place x .a, s.place x .b)

theorem over_of_view {b b' : Bool} {ids ids' : List Uuid} {q q' r r' k k' : Nat}
    (h : view x s = (true, ⟨b, 0, [], [], [], ids, q, r, k⟩,
      ⟨b', 0, [], [], [], ids', q', r', k'⟩)) : s.Over x := by
  obtain ⟨hstarted, hplaces⟩ := Prod.mk.inj h
  obtain ⟨ha, hb⟩ := Prod.mk.inj hplaces
  refine ⟨hstarted, ?_⟩
  constructor <;> intro p <;> cases p <;> simp only [ha, hb]

def offer : Offer where
  external := some { address := some (.v4 0x01020304), port := some 7 }

end Exchange

end OpenNat
