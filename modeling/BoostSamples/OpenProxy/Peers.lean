import BoostSamples.OpenProxy.Proxy

/-!
# The two peers of a session

Each half of a session is one connection of the proxy, whose peer sends a login
and then a greeting. Here is what the handlers of the proxy do with these two
frames once they stand at the front of the handshake buffer, however the bytes
have been cut into reads.
-/

namespace OpenProxy

open Framing Registry

def streamType : Side → StreamType
  | .down => .downstream
  | .up => .upstream

@[simp] theorem side_streamType (d : Side) : (streamType d).side = some d := by
  cases d <;> rfl

def Event.ofGreeting (greeting : Greeting) : Event where
  greeting := greeting
  hasGreeting := true

/-- What the two peers of a session send: their ids and their greetings. -/
structure Peers where
  sessionId : Uuid
  clientId : Side → Uuid
  greeting : Side → Greeting

namespace Peers

variable (A : TextArchive) (P : Peers) (d : Side)

def loginEvent : Event := .ofLogin (P.clientId d) P.sessionId (streamType d)

def login : Buff := A.serialize (P.loginEvent d)

def greetingEvent : Event := .ofGreeting (P.greeting d)

def greet : Buff := A.serialize (P.greetingEvent d)

theorem greet_ne_nil : P.greet A d ≠ [] := A.serialize_ne_nil _

end Peers

/-- The session has the id and the type of a peer. -/
def Named (P : Peers) (d : Side) (x : Session) : Prop :=
  x.id = P.sessionId ∧ x.type = streamType d

/-- A delimiter that has been found in a stream with a control frame at its
front is the end of that frame. -/
theorem TextArchive.serialize_of_firstEnd (A : TextArchive) {buff more rest : Buff}
    {event : Event} {n : Nat} (h : buff ++ more = A.serialize event ++ rest)
    (hn : firstEnd delimiter buff = some n) :
    n = (A.serialize event).length ∧
      ∃ left, buff = A.serialize event ++ left ∧ left ++ more = rest := by
  obtain ⟨body, left, rfl, rfl, hbody⟩ := firstEnd_eq_some delimiter_ne_nil hn
  have hfound := firstEnd_append delimiter_unbordered (left ++ more) hbody
  have hlength : body.length + delimiter.length = (A.serialize event).length := by
    rw [← List.append_assoc, h, A.firstEnd_serialize] at hfound
    exact (Option.some.inj hfound).symm
  rw [List.append_assoc] at h
  obtain ⟨hframe, hrest⟩ := List.append_inj h (by simpa using hlength)
  exact ⟨hlength, left, by rw [hframe], hrest⟩

/-- Without a delimiter in it a buffer cannot hold the frame at the front of its
stream, so that more bytes are to come. -/
theorem TextArchive.more_ne_nil (A : TextArchive) {buff more rest : Buff} {event : Event}
    (h : buff ++ more = A.serialize event ++ rest) (hn : firstEnd delimiter buff = none) :
    more ≠ [] := by
  rintro rfl
  rw [List.append_nil] at h
  rw [h, A.firstEnd_serialize] at hn
  cases hn

namespace Reader

def isInitializing : Reader → Bool
  | .starting .initializing => true
  | .reading .initializing => true
  | .completed .initializing _ => true
  | _ => false

theorem until_eq_completed {loop loop' : Loop} {buff : Buff} {n : Nat}
    (h : Reader.until loop buff = .completed loop' n) :
    loop' = loop ∧ firstEnd delimiter buff = some n := by
  unfold Reader.until at h
  split at h
  · next m hm =>
      cases h
      exact ⟨rfl, hm⟩
  · cases h

theorem until_eq_reading {loop loop' : Loop} {buff : Buff}
    (h : Reader.until loop buff = .reading loop') :
    loop' = loop ∧ firstEnd delimiter buff = none := by
  unfold Reader.until at h
  split at h
  · cases h
  · next hnone =>
      cases h
      exact ⟨rfl, hnone⟩

theorem until_ne_starting {loop loop' : Loop} {buff : Buff} :
    Reader.until loop buff ≠ .starting loop' := by
  unfold Reader.until
  split <;> rintro ⟨⟩

end Reader

/-- A read of the given loop is posted or outstanding on its buffer. -/
def Conn.Reads (x : Conn) (loop : Loop) : Prop :=
  x.reader = .starting loop ∨ x.reader = .until loop (x.session.buff loop)

namespace Conn.Reads

variable {x : Conn} {loop loop' : Loop}

theorem starting (h : x.Reads loop) (hreader : x.reader = .starting loop') : loop' = loop := by
  rcases h with h | h
  · cases h.symm.trans hreader
    rfl
  · exact absurd (h.symm.trans hreader) Reader.until_ne_starting

theorem reading (h : x.Reads loop) (hreader : x.reader = .reading loop') :
    loop' = loop ∧ firstEnd delimiter (x.session.buff loop) = none := by
  rcases h with h | h
  · cases h.symm.trans hreader
  · exact Reader.until_eq_reading (h.symm.trans hreader)

theorem completed {n : Nat} (h : x.Reads loop) (hreader : x.reader = .completed loop' n) :
    loop' = loop ∧ firstEnd delimiter (x.session.buff loop) = some n := by
  rcases h with h | h
  · cases h.symm.trans hreader
  · exact Reader.until_eq_completed (h.symm.trans hreader)

theorem isInitializing (h : x.Reads loop) :
    x.reader.isInitializing = decide (loop = .initializing) := by
  rcases h with h | h
  · rw [h]
    cases loop <;> rfl
  · rw [h, Reader.until]
    split <;> cases loop <;> rfl

end Conn.Reads

/-- A read of the given loop will have gone through `total`, of which the peer
still has `pending` to send. -/
structure Conn.Collects (x : Conn) (loop : Loop) (pending total : Buff) : Prop where
  accepted : x.accepted = true
  isOpen : x.session.isOpen = true
  reads : x.Reads loop
  bytes : x.session.buff loop ++ x.inbound ++ pending = total
  unused : loop = .initializing → x.session.buffRead = []

/-- Bytes arrive at a connection, its read starts or its read takes in bytes. -/
inductive Conn.Progress (x : Conn) (pending : Buff) : Conn → Buff → Prop
  | arrive {n : Nat} : x.accepted = true →
      Progress x pending { x with inbound := x.inbound ++ pending.take n } (pending.drop n)
  | start {loop : Loop} : x.reader = .starting loop →
      Progress x pending { x with reader := .until loop (x.session.buff loop) } pending
  | read {n : Nat} {loop : Loop} : x.reader = .reading loop →
      Progress x pending { x with
        session := x.session.append (x.inbound.take n) loop
        inbound := x.inbound.drop n
        reader := .until loop ((x.session.append (x.inbound.take n) loop).buff loop) } pending

@[simp] theorem Session.buff_append (x : Session) (bytes : Buff) (loop : Loop) :
    (x.append bytes loop).buff loop = x.buff loop ++ bytes := by
  cases loop <;> rfl

namespace Conn.Progress

variable {x y : Conn} {loop : Loop} {pending pending' total : Buff}

theorem frame (h : x.Progress pending y pending') :
    y.outbound = x.outbound ∧ y.session.isReady = x.session.isReady ∧
      y.session.id = x.session.id ∧ y.session.type = x.session.type ∧
      y.session.bytesWrite = x.session.bytesWrite ∧ y.session.isOpen = x.session.isOpen ∧
      y.accepted = x.accepted := by
  cases h with
  | arrive _ => exact ⟨rfl, rfl, rfl, rfl, rfl, rfl, rfl⟩
  | start _ => exact ⟨rfl, rfl, rfl, rfl, rfl, rfl, rfl⟩
  | read _ =>
      next loop _ => cases loop <;> exact ⟨rfl, rfl, rfl, rfl, rfl, rfl, rfl⟩

theorem collects (h : x.Progress pending y pending') (hx : x.Collects loop pending total) :
    y.Collects loop pending' total := by
  obtain ⟨-, -, -, -, -, hopen, haccepted⟩ := h.frame
  refine ⟨haccepted.trans hx.accepted, hopen.trans hx.isOpen, ?_, ?_, ?_⟩
  · cases h with
    | arrive _ => exact hx.reads
    | start hreader =>
        obtain rfl := hx.reads.starting hreader
        exact .inr rfl
    | read hreader =>
        obtain ⟨rfl, -⟩ := hx.reads.reading hreader
        exact .inr rfl
  · rw [← hx.bytes]
    cases h with
    | arrive _ => simp
    | start _ => rfl
    | read hreader =>
        obtain ⟨rfl, -⟩ := hx.reads.reading hreader
        simp [List.append_assoc]
  · rintro rfl
    have hunused := hx.unused rfl
    cases h with
    | arrive _ => exact hunused
    | start _ => exact hunused
    | read hreader =>
        obtain ⟨rfl, -⟩ := hx.reads.reading hreader
        exact hunused

theorem buffWrite (h : x.Progress pending y pending') (hx : x.Reads .receiving) :
    y.session.buffWrite = x.session.buffWrite := by
  cases h with
  | arrive _ => rfl
  | start _ => rfl
  | read hreader =>
      obtain ⟨rfl, -⟩ := hx.reading hreader
      rfl

end Conn.Progress

/-- The event is a step of the proxy in which no connection fails. -/
def ProxyEvent.isRegular {κ : Type*} : ProxyEvent κ → Bool
  | .arrive _ _ => false
  | .readFail _ => false
  | .writeFail _ => false
  | _ => true

/-- A proxy that cannot go on has taken in all bytes of a connection that it
reads, and they have no delimiter. -/
theorem Conn.Collects.stuck {κ : Type*} [DecidableEq κ] {A : TextArchive} {s : Proxy κ} {c : κ}
    {loop : Loop} {pending total : Buff} (h : (s.conns c).Collects loop pending total)
    (hfault : s.fault = false)
    (hstuck : ∀ e : ProxyEvent κ, e.isRegular = true → s.step A e = none) :
    (s.conns c).inbound = [] ∧ firstEnd delimiter ((s.conns c).session.buff loop) = none := by
  have hperform : ∀ e : ProxyEvent κ, e.isRegular = true → s.perform A e = none := by
    intro e he
    have hnone := hstuck e he
    rwa [Proxy.step, if_neg (by simp [hfault])] at hnone
  rcases h.reads with hreader | hreader
  · have hstart := hperform (.start c) rfl
    simp [Proxy.perform, hreader] at hstart
  · unfold Reader.until at hreader
    split at hreader
    · have hhandle := hperform (.handle c) rfl
      simp [Proxy.perform, hreader] at hhandle
    · next hnone =>
        refine ⟨?_, hnone⟩
        by_contra hinbound
        have hread := hperform (.read c 1) rfl
        simp [Proxy.perform, hreader, h.isOpen] at hread
        exact hinbound hread

theorem Proxy.writes_of_stuck {κ : Type*} [DecidableEq κ] {A : TextArchive} {s : Proxy κ}
    (hfault : s.fault = false) (hopen : ∀ w ∈ s.writes, (s.conns w.dest).session.isOpen = true)
    (hstuck : ∀ e : ProxyEvent κ, e.isRegular = true → s.step A e = none) : s.writes = [] := by
  have hperform : ∀ e : ProxyEvent κ, e.isRegular = true → s.perform A e = none := by
    intro e he
    have hnone := hstuck e he
    rwa [Proxy.step, if_neg (by simp [hfault])] at hnone
  cases hwrites : s.writes with
  | nil => rfl
  | cons w writes =>
      have hdone := hperform (.writeDone 0) rfl
      have hwrite := hperform (.write 0 w.rest.length) rfl
      simp [Proxy.perform, hwrites] at hdone
      simp [Proxy.perform, hwrites, hopen w (by simp [hwrites])] at hwrite
      exact absurd hwrite hdone

namespace Proxy

variable {A : TextArchive} {P : Peers} {s : Proxy Side} {d : Side} {left : Buff}

def half (s : Proxy Side) (P : Peers) (d : Side) : Option Side :=
  (s.proxyMgr.find P.sessionId).bind (·.get d)

/-- The effect of the handler on the login of a peer whose half is empty. -/
theorem handle_login (hbuff : (s.conns d).session.buffWrite = P.login A d ++ left)
    (hhalf : s.half P d = none) :
    ∃ mgr, (s.setReader d .idle).handleRead A d .initializing (P.login A d).length =
        { s.modify d fun x => { x with
            reader := .starting .initializing
            session := { x.session with
              buffWrite := left
              clientId := P.clientId d
              id := P.sessionId
              type := streamType d } } with proxyMgr := mgr } ∧
      (mgr.find P.sessionId).bind (·.get d) = some d ∧
      (mgr.find P.sessionId).bind (·.get d.other) = s.half P d.other := by
  have hevent : A.deserialize ((s.setReader d .idle).conns d).session.buffWrite
      (P.login A d).length = some (P.loginEvent d) := by
    rw [conns_setReader_self, hbuff]
    exact A.deserialize_serialize (P.loginEvent d) left
  have hadd : ∃ mgr, s.proxyMgr.add P.sessionId (some d) d = some mgr := by
    refine Option.ne_none_iff_exists'.1 fun hnone => ?_
    rcases PairMap.add_eq_none_iff.1 hnone with hside | ⟨_, p, hside, hp, htaken⟩
    · cases hside
    · cases hside
      rw [half, hp, Option.bind_some] at hhalf
      rw [hhalf] at htaken
      cases htaken
  obtain ⟨mgr, hmgr⟩ := hadd
  obtain ⟨⟨p, hp, hself, hother⟩, -⟩ := PairMap.find_of_add hmgr
  refine ⟨mgr, ?_, by simp [hp, hself], by rw [hp, Option.bind_some, hother, half]⟩
  have hmgr' : (s.setReader d .idle).proxyMgr.add (P.loginEvent d).login.sessionId
      (P.loginEvent d).login.type.side d = some mgr := by
    simpa [Peers.loginEvent, Event.ofLogin] using hmgr
  rw [handleRead, handleInitialize_login hevent rfl rfl, hmgr']
  simp [loggedIn, modifySession, setReader, modify, hbuff, Peers.loginEvent, Event.ofLogin]

def AtGreeting (A : TextArchive) (s : Proxy Side) (d : Side) : Prop :=
  match (s.conns d).reader with
  | .completed .initializing bytes =>
      ∃ event ∈ A.deserialize (s.conns d).session.buffWrite bytes, event.hasLogin = false
  | _ => False

instance (A : TextArchive) (s : Proxy Side) (d : Side) : Decidable (s.AtGreeting A d) := by
  unfold AtGreeting
  split <;> infer_instance

theorem atGreeting (hbuff : (s.conns d).session.buffWrite = P.greet A d ++ left)
    (hreader : (s.conns d).reader = .completed .initializing (P.greet A d).length) :
    s.AtGreeting A d := by
  unfold AtGreeting
  rw [hreader, hbuff]
  exact ⟨P.greetingEvent d, A.deserialize_serialize (P.greetingEvent d) left, rfl⟩

def greeted (s : Proxy Side) (d : Side) (bytes : Nat) (writes : List (WriteOp Side)) :
    Proxy Side :=
  { s.modify d fun x => { x with
      reader := .starting .receiving
      session := { x.session with bytesWrite := bytes } } with
    writes := s.writes ++ writes }

def exchange (A : TextArchive) (P : Peers) (s : Proxy Side) (d : Side) :
    List (WriteOp Side) :=
  [⟨.ready, d.other, d, (P.greet A d).length, P.greet A d⟩,
    ⟨.ready, d, d.other, (s.readyBytes d.other).length, s.readyBytes d.other⟩]

theorem handle_greeting (hbuff : (s.conns d).session.buffWrite = P.greet A d ++ left)
    (hid : (s.conns d).session.id = P.sessionId)
    (htype : (s.conns d).session.type = streamType d)
    (hhalf : s.half P d = some d) (hother : ∀ c ∈ s.half P d.other, c = d.other) :
    (s.setReader d .idle).handleRead A d .initializing (P.greet A d).length =
      s.greeted d (P.greet A d).length
        (if (s.half P d.other).isSome then s.exchange A P d else []) := by
  have hevent : A.deserialize ((s.setReader d .idle).conns d).session.buffWrite
      (P.greet A d).length = some (P.greetingEvent d) := by
    rw [conns_setReader_self, hbuff]
    exact A.deserialize_serialize (P.greetingEvent d) left
  obtain ⟨pair, hpair, hself⟩ := Option.bind_eq_some_iff.1 hhalf
  have hopposite : s.half P d.other = pair.get d.other := by
    rw [half, hpair, Option.bind_some]
  rw [handleRead, handleInitialize_greeting (d := d) (p := pair) hevent rfl rfl
    (by simp [hid, hpair]) (by simp [htype]), Proxy.greet]
  rw [hopposite] at hother ⊢
  cases hget : pair.get d.other with
  | none => simp [greeted, setReader, modifySession, modify]
  | some c =>
      obtain rfl := hother c hget
      have hne : d.other ≠ d := d.other_ne
      simp [hself, sendReady, asyncWrite, readyBytes, greeted, exchange, setReader,
        modifySession, modify, hbuff, hne]

end Proxy

end OpenProxy
