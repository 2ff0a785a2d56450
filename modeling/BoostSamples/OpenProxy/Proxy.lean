import BoostSamples.Transition.System
import BoostSamples.OpenProxy.Protocol

/-!
# The proxy server

The handlers of `Proxy` as steps of a system over the bytes on its sockets. A
connection reads in one of two loops: `Initialize` collects control frames in
`BuffWrite`, `Receive` collects data frames in `BuffRead`. A read brings in some
of the bytes that have arrived, and completes when its buffer contains a
delimiter; its handler runs later, so that other handlers may run in between.
A write is started with the bytes it is to write and puts them on the socket of
its destination piece by piece; writes to one socket may alternate. A null
pointer that is dereferenced ends the process (`fault`).
-/

namespace OpenProxy

open Framing Registry Transition

/-- The session object. The byte counts are indeterminate until they are set. -/
structure Session where
  id : Uuid := nilUuid
  clientId : Uuid := nilUuid
  type : StreamType := .unknown
  isReady : Bool := false
  isOpen : Bool := true
  buffRead : Buff := []
  buffWrite : Buff := []
  bytesRead : Nat
  bytesWrite : Nat
  deriving DecidableEq, Repr

namespace Session

def stop (x : Session) : Session :=
  if x.isOpen then { x with isReady := false, isOpen := false } else x

end Session

inductive Loop
  | initializing
  | receiving
  deriving DecidableEq, Repr

def Session.buff (x : Session) : Loop → Buff
  | .initializing => x.buffWrite
  | .receiving => x.buffRead

def Session.append (x : Session) (bytes : Buff) : Loop → Session
  | .initializing => { x with buffWrite := x.buffWrite ++ bytes }
  | .receiving => { x with buffRead := x.buffRead ++ bytes }

/-- The read of a connection: none, posted to the strand, waiting for bytes, or
complete with the position behind the first delimiter and its handler to run. -/
inductive Reader
  | idle
  | starting (loop : Loop)
  | reading (loop : Loop)
  | completed (loop : Loop) (bytes : Nat)
  deriving DecidableEq, Repr

/-- `async_read_until` on the bytes that are in the buffer. -/
def Reader.until (loop : Loop) (buff : Buff) : Reader :=
  match firstEnd delimiter buff with
  | some bytes => .completed loop bytes
  | none => .reading loop

@[simp] theorem Reader.until_nil (loop : Loop) : Reader.until loop [] = .reading loop := rfl

/-- A read that has a control frame at the front of its buffer completes with it. -/
theorem Reader.until_serialize (A : TextArchive) (event : Event) (rest : Buff) (loop : Loop) :
    Reader.until loop (A.serialize event ++ rest) =
      .completed loop (A.serialize event).length := by
  simp [Reader.until, A.firstEnd_serialize event rest]

/-- A connection of the proxy: its session, its read, the bytes that have
arrived on its socket and those written to it. -/
structure Conn where
  session : Session
  accepted : Bool := false
  reader : Reader := .idle
  inbound : Buff := []
  outbound : Buff := []
  deriving DecidableEq, Repr

/-- `Send` writes data, `SendReady` a greeting. -/
inductive WriteKind
  | data
  | ready
  deriving DecidableEq, Repr

/-- A write in progress; `total` bytes in all, of which `rest` are left. -/
structure WriteOp (κ : Type*) where
  kind : WriteKind
  dest : κ
  source : κ
  total : Nat
  rest : Buff
  deriving DecidableEq, Repr

structure Proxy (κ : Type*) where
  conns : κ → Conn
  proxyMgr : PairMap Uuid κ := .empty
  writes : List (WriteOp κ) := []
  fault : Bool := false

/-- What can happen at the proxy; an index picks a write. The counts of `accept`
are the indeterminate values of the new session. -/
inductive ProxyEvent (κ : Type*)
  | accept (c : κ) (bytesRead bytesWrite : Nat)
  | arrive (c : κ) (bytes : Buff)
  | start (c : κ)
  | read (c : κ) (bytes : Nat)
  | handle (c : κ)
  | readFail (c : κ)
  | write (i bytes : Nat)
  | writeDone (i : Nat)
  | writeFail (i : Nat)
  deriving DecidableEq, Repr

namespace Proxy

variable {κ : Type*} [DecidableEq κ]

def modify (s : Proxy κ) (c : κ) (f : Conn → Conn) : Proxy κ :=
  { s with conns := Function.update s.conns c (f (s.conns c)) }

def modifySession (s : Proxy κ) (c : κ) (f : Session → Session) : Proxy κ :=
  s.modify c fun x => { x with session := f x.session }

def setReader (s : Proxy κ) (c : κ) (reader : Reader) : Proxy κ :=
  s.modify c fun x => { x with reader := reader }

def stopHalf (s : Proxy κ) (half : Option κ) : Proxy κ :=
  match half with
  | none => s
  | some c => s.modifySession c Session.stop

/-- `ProxyMgr::RemoveSession`: stops both sessions of the pair and erases it. -/
def removeSession (s : Proxy κ) (id : Uuid) : Proxy κ :=
  match s.proxyMgr.find id with
  | none => s
  | some pair =>
      { (s.stopHalf pair.down).stopHalf pair.up with proxyMgr := s.proxyMgr.remove id }

def asyncWrite (s : Proxy κ) (kind : WriteKind) (dest source : κ) (bytes : Buff) : Proxy κ :=
  { s with writes := s.writes ++ [⟨kind, dest, source, bytes.length, bytes⟩] }

def send (s : Proxy κ) (dest : Option κ) (source : κ) : Proxy κ :=
  match dest with
  | some t =>
      s.asyncWrite .data t source
        ((s.conns source).session.buffRead.take (s.conns source).session.bytesRead)
  | none => { s with fault := true }

/-- The bytes that `SendReady` takes from a session. -/
def readyBytes (s : Proxy κ) (source : κ) : Buff :=
  (s.conns source).session.buffWrite.take (s.conns source).session.bytesWrite

def sendReady (s : Proxy κ) (dest : Option κ) (source : κ) : Proxy κ :=
  match dest with
  | some t => s.asyncWrite .ready t source (s.readyBytes source)
  | none => { s with fault := true }

/-- A greeting on a session of the given half: if the opposite session is there,
each is sent the handshake buffer of the other. -/
def greet (s : Proxy κ) (c : κ) (d : Side) (pair : Pair κ) : Proxy κ :=
  match pair.get d.other with
  | none => s
  | some opposite => (s.sendReady (some opposite) c).sendReady (pair.get d) opposite

/-- The body of the read handler of `Initialize` inside its `try`. An exception
is an error that carries the state in which it was thrown. -/
def handleInitialize (A : TextArchive) (s : Proxy κ) (c : κ) (bytes : Nat) :
    Except (Proxy κ) (Proxy κ) :=
  match A.deserialize (s.conns c).session.buffWrite bytes with
  | none => .error s
  | some event =>
      let consumed := s.modifySession c fun x => { x with buffWrite := x.buffWrite.drop bytes }
      if event.hasLogin then
        let login := event.login
        if login.hasSessionId && login.hasClientId && login.hasType then
          let s := consumed.modifySession c fun x =>
            { x with clientId := login.clientId, id := login.sessionId, type := login.type }
          match s.proxyMgr.add login.sessionId login.type.side c with
          | none => .error s
          | some mgr => .ok ({ s with proxyMgr := mgr }.setReader c (.starting .initializing))
        else .error consumed
      else if event.hasGreeting then
        let s := s.modifySession c fun x => { x with bytesWrite := bytes }
        match s.proxyMgr.find (s.conns c).session.id, (s.conns c).session.type with
        | some pair, .downstream =>
            .ok ((s.greet c .down pair).setReader c (.starting .receiving))
        | some pair, .upstream =>
            .ok ((s.greet c .up pair).setReader c (.starting .receiving))
        | _, _ => .error s
      else .error consumed

/-- The body of the read handler of `Receive` inside its `try`. -/
def handleReceive (s : Proxy κ) (c : κ) (bytes : Nat) : Except (Proxy κ) (Proxy κ) :=
  match s.proxyMgr.find (s.conns c).session.id, (s.conns c).session.type with
  | some pair, .downstream =>
      .ok ((s.modifySession c fun x => { x with bytesRead := bytes }).send pair.up c)
  | some pair, .upstream =>
      .ok ((s.modifySession c fun x => { x with bytesRead := bytes }).send pair.down c)
  | _, _ => .error s

def readCatch (s : Proxy κ) (c : κ) : Proxy κ := s.removeSession (s.conns c).session.id

def handleRead (A : TextArchive) (s : Proxy κ) (c : κ) (loop : Loop) (bytes : Nat) : Proxy κ :=
  match (match loop with
    | .initializing => s.handleInitialize A c bytes
    | .receiving => s.handleReceive c bytes) with
  | .ok s' => s'
  | .error s' => s'.readCatch c

def writeHandler (s : Proxy κ) (w : WriteOp κ) : Proxy κ :=
  match w.kind with
  | .data =>
      s.modify w.source fun x =>
        { x with
          session := { x.session with buffRead := x.session.buffRead.drop w.total }
          reader := .until .receiving (x.session.buffRead.drop w.total) }
  | .ready =>
      (s.modifySession w.source fun x => { x with buffWrite := [] }).modifySession w.dest
        fun x => { x with isReady := true }

def perform (A : TextArchive) (s : Proxy κ) : ProxyEvent κ → Option (Proxy κ)
  | .accept c bytesRead bytesWrite =>
      if (s.conns c).accepted then none
      else some (s.modify c fun _ =>
        { session := { bytesRead := bytesRead, bytesWrite := bytesWrite }
          accepted := true
          reader := .starting .initializing })
  | .arrive c bytes =>
      if (s.conns c).accepted then
        some (s.modify c fun x => { x with inbound := x.inbound ++ bytes })
      else none
  | .start c =>
      match (s.conns c).reader with
      | .starting loop =>
          some (s.setReader c (.until loop ((s.conns c).session.buff loop)))
      | _ => none
  | .read c bytes =>
      match (s.conns c).reader with
      | .reading loop =>
          if (s.conns c).session.isOpen ∧ 0 < bytes ∧ bytes ≤ (s.conns c).inbound.length then
            some (s.modify c fun x =>
              let session := x.session.append (x.inbound.take bytes) loop
              { x with
                session := session
                inbound := x.inbound.drop bytes
                reader := .until loop (session.buff loop) })
          else none
      | _ => none
  | .handle c =>
      match (s.conns c).reader with
      | .completed loop bytes => some ((s.setReader c .idle).handleRead A c loop bytes)
      | _ => none
  | .readFail c =>
      match (s.conns c).reader with
      | .reading _ => some ((s.setReader c .idle).readCatch c)
      | _ => none
  | .write i bytes =>
      match s.writes[i]? with
      | some w =>
          if (s.conns w.dest).session.isOpen ∧ 0 < bytes ∧ bytes ≤ w.rest.length then
            some {
              s.modify w.dest fun x => { x with outbound := x.outbound ++ w.rest.take bytes } with
              writes := s.writes.set i { w with rest := w.rest.drop bytes } }
          else none
      | none => none
  | .writeDone i =>
      match s.writes[i]? with
      | some w =>
          if w.rest = [] then
            some ({ s with writes := s.writes.eraseIdx i }.writeHandler w)
          else none
      | none => none
  | .writeFail i =>
      match s.writes[i]? with
      | some w =>
          if w.rest = [] then none
          else
            some ({ s with writes := s.writes.eraseIdx i }.removeSession
              (s.conns w.dest).session.id)
      | none => none

/-- One step; a crashed proxy does nothing. -/
def step (A : TextArchive) (s : Proxy κ) (e : ProxyEvent κ) : Option (Proxy κ) :=
  if s.fault then none else s.perform A e

def start : Proxy κ where
  conns _ := { session := { bytesRead := 0, bytesWrite := 0 } }

def system (A : TextArchive) : System (Proxy κ) (ProxyEvent κ) where
  init s := s = start
  step := step A

section Operations

variable (s : Proxy κ) (c : κ) (f : Conn → Conn) (g : Session → Session) (reader : Reader)

theorem conns_modify (c' : κ) :
    (s.modify c f).conns c' = if c' = c then f (s.conns c) else s.conns c' :=
  Function.update_apply s.conns c (f (s.conns c)) c'

@[simp] theorem conns_modify_self : (s.modify c f).conns c = f (s.conns c) := by
  simp [conns_modify]

theorem conns_modify_of_ne {c' : κ} (h : c' ≠ c) : (s.modify c f).conns c' = s.conns c' := by
  simp [conns_modify, h]

@[simp] theorem proxyMgr_modify : (s.modify c f).proxyMgr = s.proxyMgr := rfl

@[simp] theorem writes_modify : (s.modify c f).writes = s.writes := rfl

@[simp] theorem fault_modify : (s.modify c f).fault = s.fault := rfl

@[simp] theorem conns_modifySession_self :
    (s.modifySession c g).conns c = { s.conns c with session := g (s.conns c).session } := by
  simp [modifySession]

@[simp] theorem proxyMgr_modifySession : (s.modifySession c g).proxyMgr = s.proxyMgr := rfl

@[simp] theorem writes_modifySession : (s.modifySession c g).writes = s.writes := rfl

@[simp] theorem fault_modifySession : (s.modifySession c g).fault = s.fault := rfl

@[simp] theorem conns_setReader_self :
    (s.setReader c reader).conns c = { s.conns c with reader := reader } := by
  simp [setReader]

@[simp] theorem proxyMgr_setReader : (s.setReader c reader).proxyMgr = s.proxyMgr := rfl

@[simp] theorem writes_setReader : (s.setReader c reader).writes = s.writes := rfl

@[simp] theorem fault_setReader : (s.setReader c reader).fault = s.fault := rfl

theorem modify_modify (f' : Conn → Conn) :
    (s.modify c f).modify c f' = s.modify c fun x => f' (f x) := by
  simp [modify]

end Operations

section Handlers

variable {A : TextArchive} {s : Proxy κ} {c : κ} {bytes : Nat} {event : Event}

def loggedIn (s : Proxy κ) (c : κ) (bytes : Nat) (login : Login) : Proxy κ :=
  s.modifySession c fun x =>
    { x with
      buffWrite := x.buffWrite.drop bytes
      clientId := login.clientId
      id := login.sessionId
      type := login.type }

theorem handleInitialize_login
    (hevent : A.deserialize (s.conns c).session.buffWrite bytes = some event)
    (hlogin : event.hasLogin = true)
    (hcomplete : (event.login.hasSessionId && event.login.hasClientId &&
      event.login.hasType) = true) :
    s.handleInitialize A c bytes =
      match s.proxyMgr.add event.login.sessionId event.login.type.side c with
      | none => .error (s.loggedIn c bytes event.login)
      | some mgr =>
          .ok ({ s.loggedIn c bytes event.login with proxyMgr := mgr }.setReader c
            (.starting .initializing)) := by
  simp only [handleInitialize, hevent, hlogin, hcomplete, if_true, proxyMgr_modifySession]
  simp only [loggedIn, modifySession, modify_modify]

theorem handleInitialize_greeting {p : Pair κ} {d : Side}
    (hevent : A.deserialize (s.conns c).session.buffWrite bytes = some event)
    (hlogin : event.hasLogin = false) (hgreeting : event.hasGreeting = true)
    (hpair : s.proxyMgr.find (s.conns c).session.id = some p)
    (hside : (s.conns c).session.type.side = some d) :
    s.handleInitialize A c bytes =
      .ok (((s.modifySession c fun x => { x with bytesWrite := bytes }).greet c d p).setReader c
        (.starting .receiving)) := by
  simp only [handleInitialize, hevent, hlogin, hgreeting, if_true, Bool.false_eq_true, if_false,
    proxyMgr_modifySession, conns_modifySession_self, hpair]
  cases htype : (s.conns c).session.type with
  | upstream =>
      rw [htype] at hside
      cases hside
      rfl
  | downstream =>
      rw [htype] at hside
      cases hside
      rfl
  | unknown =>
      rw [htype] at hside
      cases hside

theorem handleReceive_data {p : Pair κ} {d : Side}
    (hpair : s.proxyMgr.find (s.conns c).session.id = some p)
    (hside : (s.conns c).session.type.side = some d) :
    s.handleReceive c bytes =
      .ok ((s.modifySession c fun x => { x with bytesRead := bytes }).send (p.get d.other) c) := by
  simp only [handleReceive, hpair]
  cases htype : (s.conns c).session.type with
  | upstream =>
      rw [htype] at hside
      cases hside
      rfl
  | downstream =>
      rw [htype] at hside
      cases hside
      rfl
  | unknown =>
      rw [htype] at hside
      cases hside

theorem conns_writeHandler_ready {w : WriteOp κ} (hw : w.kind = .ready) (c : κ) :
    (s.writeHandler w).conns c = { s.conns c with session := { (s.conns c).session with
      buffWrite := if c = w.source then [] else (s.conns c).session.buffWrite
      isReady := if c = w.dest then true else (s.conns c).session.isReady } } := by
  simp only [writeHandler, hw, modifySession, conns_modify]
  by_cases hdest : c = w.dest <;> by_cases hsource : c = w.source <;> simp_all

theorem conns_writeHandler_data {w : WriteOp κ} (hw : w.kind = .data) :
    s.writeHandler w = s.modify w.source fun x => { x with
      session := { x.session with buffRead := x.session.buffRead.drop w.total }
      reader := .until .receiving (x.session.buffRead.drop w.total) } := by
  simp only [writeHandler, hw]

theorem proxyMgr_writeHandler (w : WriteOp κ) : (s.writeHandler w).proxyMgr = s.proxyMgr := by
  unfold writeHandler
  split <;> rfl

theorem writes_writeHandler (w : WriteOp κ) : (s.writeHandler w).writes = s.writes := by
  unfold writeHandler
  split <;> rfl

theorem fault_writeHandler (w : WriteOp κ) : (s.writeHandler w).fault = s.fault := by
  unfold writeHandler
  split <;> rfl

end Handlers

section Effects

/-- The effects of the events, with a write picked out of its list. -/
inductive Effect (A : TextArchive) (s : Proxy κ) : ProxyEvent κ → Proxy κ → Prop
  | accept {c : κ} {bytesRead bytesWrite : Nat} : (s.conns c).accepted = false →
      Effect A s (.accept c bytesRead bytesWrite) (s.modify c fun _ =>
        { session := { bytesRead := bytesRead, bytesWrite := bytesWrite }
          accepted := true
          reader := .starting .initializing })
  | arrive {c : κ} {bytes : Buff} : (s.conns c).accepted = true →
      Effect A s (.arrive c bytes) (s.modify c fun x => { x with inbound := x.inbound ++ bytes })
  | start {c : κ} {loop : Loop} : (s.conns c).reader = .starting loop →
      Effect A s (.start c) (s.setReader c (.until loop ((s.conns c).session.buff loop)))
  | read {c : κ} {bytes : Nat} {loop : Loop} : (s.conns c).reader = .reading loop →
      (s.conns c).session.isOpen = true → 0 < bytes → bytes ≤ (s.conns c).inbound.length →
      Effect A s (.read c bytes) (s.modify c fun x =>
        { x with
          session := x.session.append (x.inbound.take bytes) loop
          inbound := x.inbound.drop bytes
          reader := .until loop ((x.session.append (x.inbound.take bytes) loop).buff loop) })
  | handle {c : κ} {loop : Loop} {bytes : Nat} : (s.conns c).reader = .completed loop bytes →
      Effect A s (.handle c) ((s.setReader c .idle).handleRead A c loop bytes)
  | readFail {c : κ} {loop : Loop} : (s.conns c).reader = .reading loop →
      Effect A s (.readFail c) ((s.setReader c .idle).readCatch c)
  | write {bytes : Nat} {before after : List (WriteOp κ)} {w : WriteOp κ} :
      s.writes = before ++ w :: after → (s.conns w.dest).session.isOpen = true →
      0 < bytes → bytes ≤ w.rest.length →
      Effect A s (.write before.length bytes)
        { s.modify w.dest fun x => { x with outbound := x.outbound ++ w.rest.take bytes } with
          writes := before ++ { w with rest := w.rest.drop bytes } :: after }
  | writeDone {before after : List (WriteOp κ)} {w : WriteOp κ} :
      s.writes = before ++ w :: after → w.rest = [] →
      Effect A s (.writeDone before.length) ({ s with writes := before ++ after }.writeHandler w)
  | writeFail {before after : List (WriteOp κ)} {w : WriteOp κ} :
      s.writes = before ++ w :: after → w.rest ≠ [] →
      Effect A s (.writeFail before.length) ({ s with writes := before ++ after }.removeSession
        (s.conns w.dest).session.id)

/-- What a step is. -/
theorem effect_of_step {A : TextArchive} {s t : Proxy κ} {e : ProxyEvent κ}
    (h : s.step A e = some t) : s.fault = false ∧ s.Effect A e t := by
  obtain ⟨hfault, h⟩ := Option.ite_none_left_eq_some.1 h
  refine ⟨by simpa using hfault, ?_⟩
  cases e with
  | accept c bytesRead bytesWrite =>
      obtain ⟨hc, h⟩ := Option.ite_none_left_eq_some.1 h
      obtain rfl := Option.some.inj h
      exact .accept (by simpa using hc)
  | arrive c bytes =>
      obtain ⟨hc, h⟩ := Option.ite_none_right_eq_some.1 h
      obtain rfl := Option.some.inj h
      exact .arrive hc
  | start c =>
      simp only [perform] at h
      split at h
      · next hreader =>
          obtain rfl := Option.some.inj h
          exact .start hreader
      · cases h
  | read c bytes =>
      simp only [perform] at h
      split at h
      · next hreader =>
          obtain ⟨⟨hopen, hpos, hle⟩, h⟩ := Option.ite_none_right_eq_some.1 h
          obtain rfl := Option.some.inj h
          exact .read hreader hopen hpos hle
      · cases h
  | handle c =>
      simp only [perform] at h
      split at h
      · next hreader =>
          obtain rfl := Option.some.inj h
          exact .handle hreader
      · cases h
  | readFail c =>
      simp only [perform] at h
      split at h
      · next hreader =>
          obtain rfl := Option.some.inj h
          exact .readFail hreader
      · cases h
  | write i bytes =>
      simp only [perform] at h
      split at h
      · next w hw =>
          obtain ⟨⟨hopen, hpos, hle⟩, h⟩ := Option.ite_none_right_eq_some.1 h
          obtain ⟨before, after, hlist, rfl, hset, -⟩ := exists_append_of_getElem? hw
          obtain rfl := Option.some.inj h
          rw [hset]
          exact .write hlist hopen hpos hle
      · cases h
  | writeDone i =>
      simp only [perform] at h
      split at h
      · next w hw =>
          obtain ⟨hrest, h⟩ := Option.ite_none_right_eq_some.1 h
          obtain ⟨before, after, hlist, rfl, -, herase⟩ := exists_append_of_getElem? hw
          obtain rfl := Option.some.inj h
          rw [herase]
          exact .writeDone hlist hrest
      · cases h
  | writeFail i =>
      simp only [perform] at h
      split at h
      · next w hw =>
          obtain ⟨hrest, h⟩ := Option.ite_none_left_eq_some.1 h
          obtain ⟨before, after, hlist, rfl, -, herase⟩ := exists_append_of_getElem? hw
          obtain rfl := Option.some.inj h
          rw [herase]
          exact .writeFail hlist hrest
      · cases h

end Effects

end Proxy

end OpenProxy
