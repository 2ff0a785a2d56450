import BoostSamples.OpenNat.SessionMgr
import BoostSamples.OpenProxy.Client

/-!
# The sessions of a client

A client carries any number of sessions at a time. `Connect` starts a chain of calls
for a new session, each of which posts the next one from its completion handler, and
`Disconnect` stops the sessions that are registered. The handlers run on several
threads, so a handler that signals and then locks the registry does so in two steps.
A chain that fails reports the error and removes its session by the id, whatever is
registered under it by then.
-/

namespace OpenProxy

open Framing Transition
open OpenNat (SessionMgr)

/-- The calls that carry a session on, in their order. -/
inductive Call
  | resolve
  | connect
  | login
  | sendReady
  | receiveReady
  | receive
  deriving DecidableEq, Repr

inductive Callback
  | connected
  | ready
  | receive (payload : Buff)
  | error
  deriving DecidableEq, Repr

/-- What a session waits for: a call on the strand, its asynchronous operation, which
cannot succeed if the socket was closed before it (`usable`), or the rest of a handler.
`added` has still to signal the connection, `greeted` the readiness, `failed` the error,
and `removing` has still to remove the session. -/
inductive Task
  | posted (call : Call)
  | waiting (call : Call) (usable : Bool)
  | added
  | greeted
  | failed (call : Call)
  | removing
  | ended
  deriving DecidableEq, Repr

/-- A session with its task. `callbacks` and `arrived` record what has been signalled
for it and the bytes that `Receive` has read. -/
structure Chain where
  session : Session
  task : Task
  callbacks : List Callback := []
  arrived : Buff := []
  deriving DecidableEq

/-- The sessions in the order of the calls of `Connect`, and the registry. -/
structure Sessions where
  chains : List Chain := []
  clientMgr : SessionMgr ℕ := .empty

/-- What can happen. `complete` and `read` are the completion of an operation without an
error, `fail` with one. -/
inductive SessionEvent
  | connect (sessionId : Uuid) (bytesRead bytesWrite : ℕ)
  | disconnect
  | advance (i : ℕ)
  | complete (i : ℕ)
  | read (i : ℕ) (more : Buff)
  | fail (i : ℕ)
  deriving DecidableEq, Repr

namespace Call

def loop : Call → Option Loop
  | .receiveReady => some .initializing
  | .receive => some .receiving
  | _ => none

/-- The handler of the call removes the session when it catches an exception. -/
def isEnrolled : Call → Bool
  | .resolve | .connect => false
  | .login | .sendReady | .receiveReady | .receive => true

def start (A : TextArchive) (x : Session) : Call → Session
  | .connect => { x with isOpen := true }
  | .login => { x with buffWrite := x.buffWrite ++ A.serialize (Control.login.event x) }
  | .sendReady => { x with buffWrite := x.buffWrite ++ A.serialize (Control.ready.event x) }
  | .resolve | .receiveReady | .receive => x

end Call

namespace Chain

def client (k : Chain) : Client where
  conn := { session := k.session }

/-- The handlers of the reads. An exception leads to the `catch` block. -/
def handleRead (A : TextArchive) (k : Chain) (loop : Loop) (bytes : ℕ) : Chain :=
  match loop with
  | .initializing =>
      match k.client.receiveReady A bytes with
      | .ok c => { k with session := c.conn.session, task := .greeted }
      | .error c => { k with session := c.conn.session, task := .failed .receiveReady }
  | .receiving =>
      let c := k.client.receive bytes
      { k with
        session := c.conn.session
        callbacks := k.callbacks ++ c.received.map .receive
        task := .posted .receive }

def append (k : Chain) (more : Buff) (loop : Loop) : Chain :=
  { k with
    session := k.session.append more loop
    arrived := if loop = .receiving then k.arrived ++ more else k.arrived }

/-- A read ends when its buffer contains a delimiter; it reads nothing if there is one
at the start. -/
def read (A : TextArchive) (k : Chain) (more : Buff) : Option Chain :=
  match k.task with
  | .waiting call true =>
      call.loop.bind fun loop =>
        if (firstEnd delimiter (k.session.buff loop)).isSome ∧ more ≠ [] then none
        else
          let k := k.append more loop
          (firstEnd delimiter (k.session.buff loop)).map (k.handleRead A loop)
  | _ => none

/-- The next part of a chain that needs no operation to end, apart from the removal of
the session. -/
def advance (A : TextArchive) (k : Chain) : Option Chain :=
  match k.task with
  | .posted call =>
      let session := call.start A k.session
      some { k with session := session, task := .waiting call session.isOpen }
  | .added => some { k with callbacks := k.callbacks ++ [.connected], task := .posted .login }
  | .greeted => some { k with callbacks := k.callbacks ++ [.ready], task := .posted .receive }
  | .failed call =>
      some { k with
        callbacks := k.callbacks ++ [.error]
        task := if call.isEnrolled then .removing else .ended }
  | _ => none

/-- The end of an operation that is no read, apart from the registration. -/
def complete (k : Chain) : Option Chain :=
  match k.task with
  | .waiting .resolve true => some { k with task := .posted .connect }
  | .waiting .login true =>
      some { k with session := { k.session with buffWrite := [] }, task := .posted .sendReady }
  | .waiting .sendReady true =>
      some { k with session := { k.session with buffWrite := [] }, task := .posted .receiveReady }
  | _ => none

def fail (k : Chain) : Option Chain :=
  match k.task with
  | .waiting call _ => some { k with task := .failed call }
  | _ => none

def stop (k : Chain) : Chain := { k with session := k.session.stop }

end Chain

namespace Sessions

variable (A : TextArchive) (clientId : Uuid) (type : StreamType)

def isConnected (s : Sessions) (sessionId : Uuid) : Bool := (s.clientMgr.find sessionId).isSome

def set (s : Sessions) (i : ℕ) (k : Chain) : Sessions := { s with chains := s.chains.set i k }

def removeSession (s : Sessions) (sessionId : Uuid) : Sessions :=
  match s.clientMgr.find sessionId with
  | none => s
  | some i =>
      { s with
        chains := s.chains.modify i Chain.stop
        clientMgr := s.clientMgr.removeSession sessionId }

/-- `ClientMgr::Stop`. A session is registered under its own id, if it is. -/
def stop (s : Sessions) : Sessions where
  chains := s.chains.mapIdx fun i k =>
    if s.clientMgr.find k.session.id = some i then k.stop else k
  clientMgr := .empty

/-- The handler of `DoConnect` without an error, up to the signal. -/
def addSession (s : Sessions) (i : ℕ) (k : Chain) : Sessions :=
  match s.clientMgr.addSession k.session.id i with
  | (clientMgr, true) => { s.set i { k with task := .added } with clientMgr := clientMgr }
  | (_, false) => s.set i { k with task := .failed .connect }

/-- `Client::Connect` up to the resolver. -/
def connect (s : Sessions) (sessionId : Uuid) (bytesRead bytesWrite : ℕ) : Sessions :=
  let session : Session :=
    { id := sessionId
      clientId := clientId
      type := type
      isOpen := false
      bytesRead := bytesRead
      bytesWrite := bytesWrite }
  { s with chains := s.chains ++ [{ session := session, task := .waiting .resolve true }] }

def step (s : Sessions) : SessionEvent → Option Sessions
  | .connect sessionId bytesRead bytesWrite =>
      some (s.connect clientId type sessionId bytesRead bytesWrite)
  | .disconnect => some s.stop
  | .advance i =>
      s.chains[i]?.bind fun k =>
        if k.task = .removing then
          some ((s.set i { k with task := .ended }).removeSession k.session.id)
        else (k.advance A).map (s.set i)
  | .complete i =>
      s.chains[i]?.bind fun k =>
        if k.task = .waiting .connect true then some (s.addSession i k)
        else k.complete.map (s.set i)
  | .read i more => s.chains[i]?.bind fun k => (k.read A more).map (s.set i)
  | .fail i => s.chains[i]?.bind fun k => k.fail.map (s.set i)

/-- A client before its first `Connect`. -/
def system : System Sessions SessionEvent where
  init s := s = {}
  step s e := s.step A clientId type e

end Sessions

inductive Chain.Move (A : TextArchive) (k : Chain) : Chain → Prop
  | posted {call : Call} (h : k.task = .posted call) :
      Move A k { k with
        session := call.start A k.session
        task := .waiting call (call.start A k.session).isOpen }
  | added (h : k.task = .added) :
      Move A k { k with callbacks := k.callbacks ++ [.connected], task := .posted .login }
  | greeted (h : k.task = .greeted) :
      Move A k { k with callbacks := k.callbacks ++ [.ready], task := .posted .receive }
  | failed {call : Call} (h : k.task = .failed call) :
      Move A k { k with
        callbacks := k.callbacks ++ [.error]
        task := if call.isEnrolled then .removing else .ended }
  | resolved (h : k.task = .waiting .resolve true) : Move A k { k with task := .posted .connect }
  | loggedIn (h : k.task = .waiting .login true) :
      Move A k { k with session := { k.session with buffWrite := [] }, task := .posted .sendReady }
  | sentReady (h : k.task = .waiting .sendReady true) :
      Move A k { k with
        session := { k.session with buffWrite := [] }
        task := .posted .receiveReady }
  | handled {buff : Buff} {ready : Bool} {task : Task} (h : k.task = .waiting .receiveReady true)
      (htask : task = .greeted ∨ task = .failed .receiveReady) :
      Move A k { k with
        session := { k.session with buffWrite := buff, isReady := ready }
        task := task }
  | received {more : Buff} {bytes : ℕ} (h : k.task = .waiting .receive true)
      (hbytes : firstEnd delimiter (k.session.buffRead ++ more) = some bytes) :
      Move A k { k with
        session := { k.session with buffRead := (k.session.buffRead ++ more).drop bytes }
        callbacks := k.callbacks ++
          [.receive ((k.session.buffRead ++ more).take (bytes - delimiter.length))]
        arrived := k.arrived ++ more
        task := .posted .receive }
  | fail {call : Call} {usable : Bool} (h : k.task = .waiting call usable) :
      Move A k { k with task := .failed call }

namespace Chain

variable {A : TextArchive} {k k' : Chain}

theorem move_of_advance (h : k.advance A = some k') : k.Move A k' := by
  rw [advance] at h
  split at h
  · next call htask =>
      cases h
      exact .posted htask
  · next htask =>
      cases h
      exact .added htask
  · next htask =>
      cases h
      exact .greeted htask
  · next call htask =>
      cases h
      exact .failed htask
  · cases h

theorem move_of_complete (h : k.complete = some k') : k.Move A k' := by
  rw [complete] at h
  split at h
  · next htask =>
      cases h
      exact .resolved htask
  · next htask =>
      cases h
      exact .loggedIn htask
  · next htask =>
      cases h
      exact .sentReady htask
  · cases h

theorem move_of_fail (h : k.fail = some k') : k.Move A k' := by
  rw [fail] at h
  split at h
  · next call usable htask =>
      cases h
      exact .fail htask
  · cases h

/-- The handler of `ReceiveReady` changes the buffer of the control frames and the
readiness. -/
theorem session_receiveReady {c c' : Client} {bytes : ℕ}
    (h : c.receiveReady A bytes = .ok c' ∨ c.receiveReady A bytes = .error c') :
    ∃ buff ready,
      c'.conn.session = { c.conn.session with buffWrite := buff, isReady := ready } := by
  rw [Client.receiveReady] at h
  split at h
  · obtain h | h := h <;> cases h
    exact ⟨_, _, rfl⟩
  · split at h
    · obtain h | h := h <;> cases h
      exact ⟨[], true, rfl⟩
    · obtain h | h := h <;> cases h
      exact ⟨[], _, rfl⟩

theorem move_of_read {more : Buff} (h : k.read A more = some k') : k.Move A k' := by
  rw [read] at h
  split at h
  · next call htask =>
      obtain ⟨loop, hloop, h⟩ := Option.bind_eq_some_iff.1 h
      obtain ⟨-, h⟩ := Option.ite_none_left_eq_some.1 h
      obtain ⟨bytes, hbytes, rfl⟩ := Option.map_eq_some_iff.1 h
      cases call with
      | receiveReady =>
          cases hloop
          rw [handleRead]
          cases hready : (k.append more .initializing).client.receiveReady A bytes with
          | ok c =>
              obtain ⟨buff, ready, hsession⟩ := session_receiveReady (.inl hready)
              dsimp only
              rw [hsession]
              exact .handled htask (.inl rfl)
          | error c =>
              obtain ⟨buff, ready, hsession⟩ := session_receiveReady (.inr hready)
              dsimp only
              rw [hsession]
              exact .handled htask (.inr rfl)
      | receive =>
          cases hloop
          exact .received htask hbytes
      | resolve | connect | login | sendReady => cases hloop
  · cases h

end Chain

namespace Sessions

variable {A : TextArchive} {clientId : Uuid} {type : StreamType} {s t : Sessions}

inductive Effect (A : TextArchive) (clientId : Uuid) (type : StreamType) (s : Sessions) :
    SessionEvent → Sessions → Prop
  | connect (sessionId : Uuid) (bytesRead bytesWrite : ℕ) :
      Effect A clientId type s (.connect sessionId bytesRead bytesWrite)
        (s.connect clientId type sessionId bytesRead bytesWrite)
  | disconnect : Effect A clientId type s .disconnect s.stop
  | remove {i : ℕ} {k : Chain} (hk : s.chains[i]? = some k) (htask : k.task = .removing) :
      Effect A clientId type s (.advance i)
        ((s.set i { k with task := .ended }).removeSession k.session.id)
  | add {i : ℕ} {k : Chain} (hk : s.chains[i]? = some k) (htask : k.task = .waiting .connect true) :
      Effect A clientId type s (.complete i) (s.addSession i k)
  | move {e : SessionEvent} {i : ℕ} {k k' : Chain} (hk : s.chains[i]? = some k)
      (h : k.Move A k') (he : e = .advance i ∨ e = .complete i ∨ (∃ more, e = .read i more) ∨
        e = .fail i) :
      Effect A clientId type s e (s.set i k')

theorem effect_of_step {e : SessionEvent} (h : s.step A clientId type e = some t) :
    s.Effect A clientId type e t := by
  cases e with
  | connect sessionId bytesRead bytesWrite =>
      cases h
      exact .connect sessionId bytesRead bytesWrite
  | disconnect =>
      cases h
      exact .disconnect
  | advance i =>
      obtain ⟨k, hk, h⟩ := Option.bind_eq_some_iff.1 h
      split at h
      · next htask =>
          cases h
          exact .remove hk htask
      · obtain ⟨k', hk', rfl⟩ := Option.map_eq_some_iff.1 h
        exact .move hk (Chain.move_of_advance hk') (.inl rfl)
  | complete i =>
      obtain ⟨k, hk, h⟩ := Option.bind_eq_some_iff.1 h
      split at h
      · next htask =>
          cases h
          exact .add hk htask
      · obtain ⟨k', hk', rfl⟩ := Option.map_eq_some_iff.1 h
        exact .move hk (Chain.move_of_complete hk') (.inr (.inl rfl))
  | read i more =>
      obtain ⟨k, hk, h⟩ := Option.bind_eq_some_iff.1 h
      obtain ⟨k', hk', rfl⟩ := Option.map_eq_some_iff.1 h
      exact .move hk (Chain.move_of_read hk') (.inr (.inr (.inl ⟨more, rfl⟩)))
  | fail i =>
      obtain ⟨k, hk, h⟩ := Option.bind_eq_some_iff.1 h
      obtain ⟨k', hk', rfl⟩ := Option.map_eq_some_iff.1 h
      exact .move hk (Chain.move_of_fail hk') (.inr (.inr (.inr rfl)))

end Sessions

def SessionEvent.isOf (i : ℕ) : SessionEvent → Bool
  | .connect .. | .disconnect => false
  | .advance j | .complete j | .read j _ | .fail j => j = i

/-- What becomes of a chain in a step, which is one of its own or not. It is added if its
id is not taken. -/
inductive Chain.Step (A : TextArchive) (clientMgr : SessionMgr ℕ) (k : Chain) : Bool → Chain → Prop
  | refl : Step A clientMgr k false k
  | stop : Step A clientMgr k false k.stop
  | move {k' : Chain} (h : k.Move A k') : Step A clientMgr k true k'
  | add {task : Task} (h : k.task = .waiting .connect true)
      (htask : task = .added ∧ clientMgr.find k.session.id = none ∨ task = .failed .connect) :
      Step A clientMgr k true { k with task := task }
  | remove (h : k.task = .removing) : Step A clientMgr k true { k with task := .ended }
  | removeStop (h : k.task = .removing) :
      Step A clientMgr k true { k with task := .ended }.stop

/-- A chain that `Connect` has begun. -/
def Chain.IsNew (k : Chain) : Prop :=
  ∃ session : Session, session.buffRead = [] ∧
    k = { session := session, task := .waiting .resolve true }

namespace Sessions

variable {A : TextArchive} {clientId : Uuid} {type : StreamType} {s t : Sessions}

theorem ne_of_getElem?_none {i p : ℕ} {k : Chain} (hnone : s.chains[p]? = none)
    (hk : s.chains[i]? = some k) : p ≠ i := by
  rintro rfl
  cases hnone.symm.trans hk

theorem getElem?_set {i : ℕ} {k : Chain} (hk : s.chains[i]? = some k) (k' : Chain) (p : ℕ) :
    (s.set i k').chains[p]? = if p = i then some k' else s.chains[p]? := by
  obtain ⟨hi, -⟩ := List.getElem?_eq_some_iff.1 hk
  rw [set, List.getElem?_set]
  by_cases hp : i = p
  · rw [if_pos hp, if_pos (hp ▸ hi), if_pos hp.symm]
  · rw [if_neg hp, if_neg (Ne.symm hp)]

theorem getElem?_removeSession (id : Uuid) (p : ℕ) :
    (s.removeSession id).chains[p]? =
      if s.clientMgr.find id = some p then s.chains[p]?.map Chain.stop else s.chains[p]? := by
  rw [removeSession]
  split
  · next hnone => rw [hnone, if_neg (Option.some_ne_none p).symm]
  · next j hj =>
      rw [hj]
      by_cases hp : j = p
      · subst hp
        rw [if_pos rfl, List.getElem?_modify_eq]
        rfl
      · rw [if_neg fun h => hp (Option.some.inj h), List.getElem?_modify_ne _ _ hp]

theorem getElem?_stop (p : ℕ) :
    s.stop.chains[p]? = s.chains[p]?.map fun k =>
      if s.clientMgr.find k.session.id = some p then k.stop else k :=
  List.getElem?_mapIdx

theorem find_set (i : ℕ) (k : Chain) (id : Uuid) :
    (s.set i k).clientMgr.find id = s.clientMgr.find id := rfl

theorem chains_addSession (s : Sessions) (i : ℕ) (k : Chain) :
    ∃ task, (task = .added ∧ s.clientMgr.find k.session.id = none ∨ task = .failed .connect) ∧
      (s.addSession i k).chains = (s.set i { k with task := task }).chains := by
  rw [addSession]
  rcases s.clientMgr.addSession_cases k.session.id i with ⟨hnone, hadd⟩ | ⟨-, hadd⟩
  · rw [hadd]
    exact ⟨_, .inl ⟨rfl, hnone⟩, rfl⟩
  · rw [hadd]
    exact ⟨_, .inr rfl, rfl⟩

theorem step_of_effect {e : SessionEvent} (h : s.Effect A clientId type e t) {p : ℕ} {k : Chain}
    (hk : s.chains[p]? = some k) :
    ∃ k', t.chains[p]? = some k' ∧ k.Step A s.clientMgr (e.isOf p) k' := by
  cases h with
  | connect sessionId bytesRead bytesWrite =>
      refine ⟨k, ?_, .refl⟩
      rw [connect, List.getElem?_append_left (List.getElem?_eq_some_iff.1 hk).1, hk]
  | disconnect =>
      rw [getElem?_stop, hk]
      refine ⟨_, rfl, ?_⟩
      dsimp only
      split
      · exact .stop
      · exact .refl
  | @remove i k₀ hk₀ htask =>
      rw [getElem?_removeSession, find_set, getElem?_set hk₀]
      by_cases hp : p = i
      · subst hp
        cases hk.symm.trans hk₀
        rw [if_pos rfl, SessionEvent.isOf, decide_eq_true rfl]
        split
        · exact ⟨_, rfl, .removeStop htask⟩
        · exact ⟨_, rfl, .remove htask⟩
      · rw [if_neg hp, hk, SessionEvent.isOf, decide_eq_false (Ne.symm hp)]
        split
        · exact ⟨_, rfl, .stop⟩
        · exact ⟨_, rfl, .refl⟩
  | @add i k₀ hk₀ htask =>
      obtain ⟨task, hadded, hchains⟩ := s.chains_addSession i k₀
      rw [hchains, getElem?_set hk₀]
      by_cases hp : p = i
      · subst hp
        cases hk.symm.trans hk₀
        rw [if_pos rfl, SessionEvent.isOf, decide_eq_true rfl]
        exact ⟨_, rfl, .add htask hadded⟩
      · rw [if_neg hp, hk, SessionEvent.isOf, decide_eq_false (Ne.symm hp)]
        exact ⟨_, rfl, .refl⟩
  | @move _ i k₀ k' hk₀ h he =>
      have hof : e.isOf p = decide (i = p) := by
        obtain rfl | rfl | ⟨more, rfl⟩ | rfl := he <;> rfl
      rw [getElem?_set hk₀, hof]
      by_cases hp : p = i
      · subst hp
        cases hk.symm.trans hk₀
        rw [if_pos rfl, decide_eq_true rfl]
        exact ⟨_, rfl, .move h⟩
      · rw [if_neg hp, hk, decide_eq_false (Ne.symm hp)]
        exact ⟨_, rfl, .refl⟩

theorem isNew_of_effect {e : SessionEvent} (h : s.Effect A clientId type e t) {p : ℕ} {k : Chain}
    (hnone : s.chains[p]? = none) (hk : t.chains[p]? = some k) : k.IsNew := by
  cases h with
  | connect sessionId bytesRead bytesWrite =>
      rw [connect, List.getElem?_append_right (List.getElem?_eq_none_iff.1 hnone)] at hk
      obtain rfl := List.mem_singleton.1 (List.mem_of_getElem? hk)
      exact ⟨_, rfl, rfl⟩
  | disconnect =>
      rw [getElem?_stop, hnone] at hk
      cases hk
  | remove hk₀ =>
      have hne : p ≠ _ := ne_of_getElem?_none hnone hk₀
      rw [getElem?_removeSession, getElem?_set hk₀, if_neg hne, hnone, find_set] at hk
      split at hk <;> cases hk
  | @add i k₀ hk₀ =>
      obtain ⟨task, -, hchains⟩ := s.chains_addSession i k₀
      rw [hchains, getElem?_set hk₀, if_neg (ne_of_getElem?_none hnone hk₀), hnone] at hk
      cases hk
  | move hk₀ =>
      rw [getElem?_set hk₀, if_neg (ne_of_getElem?_none hnone hk₀), hnone] at hk
      cases hk

end Sessions

section Signals

def Call.signalled : Call → List Callback
  | .resolve | .connect => []
  | .login | .sendReady | .receiveReady => [.connected]
  | .receive => [.connected, .ready]

/-- The call that a task belongs to. A chain may end at any. -/
def Task.IsOf : Task → Call → Prop
  | .posted call, call' | .waiting call _, call' | .failed call, call' => call' = call
  | .added, call => call = .connect
  | .greeted, call => call = .receiveReady
  | .removing, _ | .ended, _ => True

def Task.isReported : Task → Bool
  | .removing | .ended => true
  | _ => false

/-- The signals of a session are those before its call, the payloads of the frames that
have arrived, and at the end of a chain one error. -/
structure Chain.Told (k : Chain) (call : Call) (payloads : List Buff) : Prop where
  isOf : k.task.IsOf call
  callbacks : k.callbacks = call.signalled ++ payloads.map .receive ++
    if k.task.isReported then [.error] else []
  eq_nil : call ≠ .receive → payloads = []
  free : ∀ payload ∈ payloads, ¬ delimiter <:+: payload
  arrived : k.arrived = stream delimiter payloads ++ k.session.buffRead

namespace Chain

variable {A : TextArchive} {k k' : Chain} {call : Call} {payloads : List Buff}

theorem buffRead_start (x : Session) (call : Call) : (call.start A x).buffRead = x.buffRead := by
  cases call <;> rfl

theorem buffRead_stop (x : Session) : x.stop.buffRead = x.buffRead := by
  rw [Session.stop]
  split <;> rfl

theorem Told.next {session : Session} {task : Task} {next : Call} (h : k.Told call payloads)
    (htask : task.IsOf next) (hnext : next.signalled = call.signalled)
    (hreceive : call = .receive → next = .receive)
    (hreported : k.task.isReported = task.isReported)
    (hbuff : session.buffRead = k.session.buffRead) :
    Chain.Told { k with session := session, task := task } next payloads where
  isOf := htask
  callbacks := by rw [hnext, ← hreported, h.callbacks]
  eq_nil hne := h.eq_nil fun heq => hne (hreceive heq)
  free := h.free
  arrived := by rw [hbuff, h.arrived]

theorem Told.signal {callback : Callback} {task : Task} {next : Call} (h : k.Told call payloads)
    (htask : task.IsOf next) (hnext : next.signalled = call.signalled ++ [callback])
    (hreceive : call ≠ .receive) (hreported : k.task.isReported = false)
    (hreported' : task.isReported = false) :
    Chain.Told { k with callbacks := k.callbacks ++ [callback], task := task } next payloads where
  isOf := htask
  callbacks := by
    rw [h.callbacks, hreported, hreported', h.eq_nil hreceive, hnext]
    simp
  eq_nil _ := h.eq_nil hreceive
  free := h.free
  arrived := h.arrived

theorem Told.move (h : k.Told call payloads) (hmove : k.Move A k') :
    ∃ call' payloads', k'.Told call' payloads' := by
  have hisOf := h.isOf
  cases hmove with
  | posted htask =>
      rw [htask] at hisOf
      cases hisOf
      exact ⟨_, _, h.next rfl rfl id (by rw [htask]; rfl) (buffRead_start _ _)⟩
  | added htask =>
      rw [htask] at hisOf
      cases hisOf
      exact ⟨.login, _, h.signal rfl rfl (by decide) (by rw [htask]; rfl) rfl⟩
  | greeted htask =>
      rw [htask] at hisOf
      cases hisOf
      exact ⟨.receive, _, h.signal rfl rfl (by decide) (by rw [htask]; rfl) rfl⟩
  | @failed call₀ htask =>
      refine ⟨call, payloads, ?_, ?_, h.eq_nil, h.free, h.arrived⟩
      · split <;> trivial
      · have hreported : (if call₀.isEnrolled then Task.removing else .ended).isReported := by
          split <;> rfl
        have hnot : ¬ (Task.failed call₀).isReported := by simp [Task.isReported]
        rw [h.callbacks, htask, if_neg hnot, if_pos hreported, List.append_nil]
  | resolved htask =>
      rw [htask] at hisOf
      cases hisOf
      exact ⟨.connect, _, h.next rfl rfl (fun h => by cases h) (by rw [htask]; rfl) rfl⟩
  | loggedIn htask =>
      rw [htask] at hisOf
      cases hisOf
      exact ⟨.sendReady, _, h.next rfl rfl (fun h => by cases h) (by rw [htask]; rfl) rfl⟩
  | sentReady htask =>
      rw [htask] at hisOf
      cases hisOf
      exact ⟨.receiveReady, _, h.next rfl rfl (fun h => by cases h) (by rw [htask]; rfl) rfl⟩
  | handled htask hnext =>
      rw [htask] at hisOf
      cases hisOf
      refine ⟨.receiveReady, _, h.next ?_ rfl id ?_ rfl⟩
      · obtain rfl | rfl := hnext <;> rfl
      · rw [htask]
        obtain rfl | rfl := hnext <;> rfl
  | @received more bytes htask hbytes =>
      rw [htask] at hisOf
      cases hisOf
      refine ⟨.receive, payloads ++
        [(k.session.buffRead ++ more).take (bytes - delimiter.length)], rfl, ?_,
        fun h => absurd rfl h, ?_, ?_⟩
      · rw [h.callbacks, htask]
        simp [Task.isReported]
      · intro payload hpayload
        rcases List.mem_append.1 hpayload with hpayload | hpayload
        · exact h.free payload hpayload
        · rw [List.mem_singleton.1 hpayload]
          exact not_infix_take delimiter_ne_nil hbytes
      · obtain ⟨body, rest, hbuff, rfl, -⟩ := firstEnd_eq_some delimiter_ne_nil hbytes
        rw [h.arrived, List.append_assoc, hbuff, stream_append]
        simp
  | fail htask =>
      rw [htask] at hisOf
      cases hisOf
      exact ⟨_, _, h.next rfl rfl id (by rw [htask]; rfl) rfl⟩

theorem Told.step {clientMgr : SessionMgr ℕ} {own : Bool} (h : k.Told call payloads)
    (hstep : k.Step A clientMgr own k') :
    ∃ call' payloads', k'.Told call' payloads' := by
  have hisOf := h.isOf
  cases hstep with
  | refl => exact ⟨_, _, h⟩
  | stop => exact ⟨_, _, h.next h.isOf rfl id rfl (buffRead_stop _)⟩
  | move hmove => exact h.move hmove
  | add htask hadded =>
      rw [htask] at hisOf
      cases hisOf
      refine ⟨.connect, _, h.next ?_ rfl id ?_ rfl⟩
      · obtain ⟨rfl, -⟩ | rfl := hadded <;> rfl
      · rw [htask]
        obtain ⟨rfl, -⟩ | rfl := hadded <;> rfl
  | remove htask => exact ⟨call, _, h.next trivial rfl id (by rw [htask]; rfl) rfl⟩
  | removeStop htask =>
      exact ⟨call, _, h.next trivial rfl id (by rw [htask]; rfl) (buffRead_stop _)⟩

end Chain

namespace Sessions

variable {A : TextArchive} {clientId : Uuid} {type : StreamType} {s t : Sessions}

/-- The position of a chain after a step, and the chain there before it. -/
theorem exists_step {e : SessionEvent} (h : s.step A clientId type e = some t) {k' : Chain}
    (hk' : k' ∈ t.chains) :
    k'.IsNew ∨ ∃ k ∈ s.chains, ∃ own, k.Step A s.clientMgr own k' := by
  obtain ⟨p, hp⟩ := List.mem_iff_getElem?.1 hk'
  have heffect := effect_of_step h
  cases hk : s.chains[p]? with
  | none => exact .inl (isNew_of_effect heffect hk hp)
  | some k =>
      obtain ⟨k'', hk'', hstep⟩ := step_of_effect heffect hk
      cases hp.symm.trans hk''
      exact .inr ⟨k, List.mem_of_getElem? hk, _, hstep⟩

/-- Whatever connects, fails and is disconnected meanwhile, a session signals in this
order: its connection, its readiness, the payloads of the frames that arrive, each once;
and if it fails one error, behind which there is nothing. -/
theorem signalled_in_order : ∀ s, (system A clientId type).Reachable s →
    ∀ k ∈ s.chains, ∃ call payloads, k.Told call payloads := by
  intro s h
  refine h.invariant (I := fun s => ∀ k ∈ s.chains, ∃ call payloads, k.Told call payloads) ?_ ?_
  · rintro s rfl k hk
    cases hk
  · intro s e t hs _ hstep k' hk'
    rcases exists_step hstep hk' with ⟨session, hbuff, rfl⟩ | ⟨k, hk, own, hkstep⟩
    · refine ⟨.resolve, [], rfl, rfl, fun _ => rfl, fun _ h => (by cases h), ?_⟩
      rw [hbuff]
      rfl
    · obtain ⟨call, payloads, htold⟩ := hs k hk
      exact htold.step hkstep

/-- A session up to the registration: resolved, connected and added. -/
def addedRun (i : ℕ) : List SessionEvent :=
  [.connect 7 0 0, .complete i, .advance i, .complete i]

/-- A session that logs in, greets and is greeted, receives one payload and fails. -/
def failedRun : List SessionEvent :=
  addedRun 0 ++ [.advance 0, .advance 0, .complete 0, .advance 0, .complete 0, .advance 0,
    .read 0 (plainText.serialize .ofReady), .advance 0, .advance 0,
    .read 0 (frame delimiter [1, 2]), .advance 0, .fail 0, .advance 0, .advance 0]

theorem failedRun_signalled :
    ∃ s, (system plainText nilUuid .upstream).exec {} failedRun = some s ∧
      s.chains.map Chain.callbacks = [[.connected, .ready, .receive [1, 2], .error]] ∧
      ∀ k ∈ s.chains, ∃ call payloads, k.Told call payloads := by
  have hrun : ((system plainText nilUuid .upstream).exec {} failedRun).map
      (fun s => s.chains.map Chain.callbacks) =
      some [[.connected, .ready, .receive [1, 2], .error]] := by decide +kernel
  obtain ⟨s, hs, hcallbacks⟩ := Option.map_eq_some_iff.1 hrun
  exact ⟨s, hs, hcallbacks, signalled_in_order s (System.Reachable.exec (.init rfl) hs)⟩

end Sessions

end Signals

section Registered

/-- The session is registered, or would be if it had not been stopped: it has been added
and not yet removed. -/
def Task.isEnrolled : Task → Bool
  | .posted call | .waiting call _ | .failed call => call.isEnrolled
  | .added | .greeted | .removing => true
  | .ended => false

/-- The session is enrolled and its socket open. -/
def Chain.IsHeld (k : Chain) : Prop := k.task.isEnrolled ∧ k.session.isOpen

namespace Chain

variable {A : TextArchive} {k k' : Chain}

theorem id_start (x : Session) (call : Call) : (call.start A x).id = x.id := by
  cases call <;> rfl

theorem id_stop (x : Session) : x.stop.id = x.id := by
  rw [Session.stop]
  split <;> rfl

theorem isOpen_stop (x : Session) : x.stop.isOpen = false := by
  rw [Session.stop]
  split
  · rfl
  · next h => exact Bool.eq_false_iff.2 h

/-- A chain that moves keeps its id, it stays enrolled or not, and as long as it is
enrolled its socket stays as it is. -/
theorem Move.keeps (h : k.Move A k') : k'.session.id = k.session.id ∧
    k'.task.isEnrolled = k.task.isEnrolled ∧
      (k.task.isEnrolled → k'.session.isOpen = k.session.isOpen) := by
  cases h with
  | @posted call htask =>
      rw [htask]
      refine ⟨id_start _ _, rfl, fun henrolled => ?_⟩
      cases call with
      | resolve | connect => cases henrolled
      | login | sendReady | receiveReady | receive => rfl
  | added htask | greeted htask | loggedIn htask | sentReady htask | received htask
  | fail htask | resolved htask =>
      rw [htask]
      exact ⟨rfl, rfl, fun _ => rfl⟩
  | handled htask hnext =>
      rw [htask]
      obtain rfl | rfl := hnext <;> exact ⟨rfl, rfl, fun _ => rfl⟩
  | @failed call htask =>
      rw [htask]
      refine ⟨rfl, ?_, fun _ => rfl⟩
      cases call <;> rfl

theorem Move.isHeld_iff (h : k.Move A k') : k'.IsHeld ↔ k.IsHeld := by
  obtain ⟨-, henrolled, hopen⟩ := h.keeps
  rw [IsHeld, IsHeld, henrolled]
  exact and_congr_right fun hk => by rw [hopen hk]

/-- A socket that is being connected is open, whatever else happens to the chain. -/
theorem Move.isOpen_connecting (h : k.Move A k') {usable : Bool}
    (htask : k'.task = .waiting .connect usable) : k'.session.isOpen := by
  cases h with
  | posted =>
      obtain ⟨rfl, -⟩ := Task.waiting.inj htask
      rfl
  | handled h hnext =>
      obtain rfl | rfl := hnext <;> cases htask
  | failed =>
      dsimp only at htask
      split at htask <;> cases htask
  | added | greeted | resolved | loggedIn | sentReady | received | fail => cases htask

theorem not_isHeld_stop (k : Chain) : ¬ k.stop.IsHeld := fun h =>
  Bool.false_ne_true ((isOpen_stop k.session).symm.trans h.2)

end Chain

namespace Sessions

variable {A : TextArchive} {clientId : Uuid} {type : StreamType} {s t : Sessions}

/-- The registry maps the ids of the held sessions to them, and nothing else. -/
structure Registers (s : Sessions) : Prop where
  held : ∀ id p, s.clientMgr.find id = some p ↔
    ∃ k, s.chains[p]? = some k ∧ k.session.id = id ∧ k.IsHeld
  connecting : ∀ (p : ℕ) k usable, s.chains[p]? = some k → k.task = .waiting .connect usable →
    k.session.isOpen

theorem Registers.find_of_held (h : s.Registers) {p : ℕ} {k : Chain} (hk : s.chains[p]? = some k)
    (hheld : k.IsHeld) : s.clientMgr.find k.session.id = some p :=
  (h.held _ _).2 ⟨k, hk, rfl, hheld⟩

theorem Registers.held_of_find (h : s.Registers) {p : ℕ} {k : Chain} {id : Uuid}
    (hk : s.chains[p]? = some k) (hfind : s.clientMgr.find id = some p) :
    k.session.id = id ∧ k.IsHeld := by
  obtain ⟨k', hk', hid, hheld⟩ := (h.held _ _).1 hfind
  cases hk.symm.trans hk'
  exact ⟨hid, hheld⟩

theorem Registers.set (h : s.Registers) {i : ℕ} {k k' : Chain} (hk : s.chains[i]? = some k)
    (hid : k'.session.id = k.session.id) (hheld : k'.IsHeld ↔ k.IsHeld)
    (hconnecting : ∀ usable, k'.task = .waiting .connect usable → k'.session.isOpen) :
    (s.set i k').Registers where
  held id p := by
    rw [find_set, h.held, getElem?_set hk]
    by_cases hp : p = i
    · subst hp
      simp [hk, hid, hheld]
    · rw [if_neg hp]
  connecting p k₀ usable hk₀ htask := by
    rw [getElem?_set hk] at hk₀
    split at hk₀
    · cases hk₀
      exact hconnecting usable htask
    · exact h.connecting p k₀ usable hk₀ htask

theorem find_removeSession (id id' : Uuid) : (s.removeSession id).clientMgr.find id' =
    if id' = id then none else s.clientMgr.find id' := by
  rw [removeSession]
  split
  · next hnone =>
      split
      · next hid => rw [hid, hnone]
      · rfl
  · exact SessionMgr.find_removeSession ..

theorem Registers.removeSession (h : s.Registers) (id : Uuid) : (s.removeSession id).Registers := by
  refine ⟨fun id' p => ?_, fun p k usable hk htask => ?_⟩
  · rw [find_removeSession, getElem?_removeSession]
    by_cases hp : s.clientMgr.find id = some p
    · obtain ⟨k₀, hk₀, hid₀, -⟩ := (h.held _ _).1 hp
      rw [if_pos hp, hk₀]
      constructor
      · intro hfind'
        obtain ⟨hne, hfind'⟩ := Option.ite_none_left_eq_some.1 hfind'
        exact absurd ((h.held_of_find hk₀ hfind').1.symm.trans hid₀) hne
      · rintro ⟨k, hk, -, hheld⟩
        cases hk
        exact absurd hheld k₀.not_isHeld_stop
    · rw [if_neg hp, ← h.held]
      by_cases hid : id' = id
      · rw [if_pos hid, hid]
        exact ⟨fun hnone => (by cases hnone), fun hfind' => absurd hfind' hp⟩
      · rw [if_neg hid]
  · rw [getElem?_removeSession] at hk
    split at hk
    · next hp =>
        obtain ⟨k₀, hk₀, rfl⟩ := Option.map_eq_some_iff.1 hk
        obtain ⟨-, henrolled, -⟩ := h.held_of_find hk₀ hp
        have htask₀ : k₀.task = .waiting .connect usable := htask
        rw [htask₀] at henrolled
        cases henrolled
    · exact h.connecting p k usable hk htask

theorem Registers.stop (h : s.Registers) : s.stop.Registers := by
  refine ⟨fun id p => ?_, fun p k usable hk htask => ?_⟩
  · refine ⟨fun hfind => (by cases hfind), ?_⟩
    rintro ⟨k, hk, -, hheld⟩
    rw [getElem?_stop] at hk
    obtain ⟨k₀, hk₀, rfl⟩ := Option.map_eq_some_iff.1 hk
    split at hheld
    · exact absurd hheld k₀.not_isHeld_stop
    · next hnot => exact absurd (h.find_of_held hk₀ hheld) hnot
  · rw [getElem?_stop] at hk
    obtain ⟨k₀, hk₀, rfl⟩ := Option.map_eq_some_iff.1 hk
    split at htask
    · next hp =>
        obtain ⟨-, henrolled, -⟩ := h.held_of_find hk₀ hp
        have htask₀ : k₀.task = .waiting .connect usable := htask
        rw [htask₀] at henrolled
        cases henrolled
    · next hnot =>
        rw [if_neg hnot]
        exact h.connecting p k₀ usable hk₀ htask

theorem Registers.addSession (h : s.Registers) {i : ℕ} {k : Chain} (hk : s.chains[i]? = some k)
    (htask : k.task = .waiting .connect true) : (s.addSession i k).Registers := by
  have hopen := h.connecting i k true hk htask
  have hnot : ¬ k.IsHeld := by
    rw [Chain.IsHeld, htask]
    exact fun hheld => Bool.false_ne_true hheld.1
  rw [Sessions.addSession]
  rcases s.clientMgr.addSession_cases k.session.id i with ⟨hnone, hadd⟩ | ⟨-, hadd⟩
  · rw [hadd]
    refine ⟨fun id p => ?_, fun p k' usable hk' htask' => ?_⟩
    · rw [SessionMgr.find_update, getElem?_set hk]
      by_cases hid : id = k.session.id
      · subst hid
        rw [if_pos rfl]
        constructor
        · intro hp
          obtain rfl := Option.some.inj hp
          exact ⟨_, if_pos rfl, rfl, rfl, hopen⟩
        · rintro ⟨k', hk', hid', hheld⟩
          by_cases hp : p = i
          · rw [hp]
          · rw [if_neg hp] at hk'
            have hfind := h.find_of_held hk' hheld
            rw [hid', hnone] at hfind
            cases hfind
      · rw [if_neg hid, h.held]
        by_cases hp : p = i
        · subst hp
          rw [if_pos rfl, hk]
          constructor
          · rintro ⟨k', hk', -, hheld⟩
            cases hk'
            exact absurd hheld hnot
          · rintro ⟨k', hk', hid', -⟩
            cases hk'
            exact absurd hid'.symm hid
        · rw [if_neg hp]
    · dsimp only at hk'
      rw [getElem?_set hk] at hk'
      split at hk'
      · cases hk'
        cases htask'
      · exact h.connecting p k' usable hk' htask'
  · rw [hadd]
    refine h.set hk rfl ?_ fun usable htask' => (by cases htask')
    exact ⟨fun hheld => absurd hheld.1 Bool.false_ne_true, fun hheld => absurd hheld hnot⟩

theorem Registers.connect (h : s.Registers) (sessionId : Uuid) (bytesRead bytesWrite : ℕ) :
    (s.connect clientId type sessionId bytesRead bytesWrite).Registers := by
  have hchain : ∀ {p : ℕ} {k : Chain},
      (s.connect clientId type sessionId bytesRead bytesWrite).chains[p]? = some k →
        s.chains[p]? = some k ∨ k.task = .waiting .resolve true := by
    intro p k hk
    rcases Nat.lt_or_ge p s.chains.length with hlt | hge
    · rw [Sessions.connect, List.getElem?_append_left hlt] at hk
      exact .inl hk
    · rw [Sessions.connect, List.getElem?_append_right hge] at hk
      rw [List.mem_singleton.1 (List.mem_of_getElem? hk)]
      exact .inr rfl
  refine ⟨fun id p => (h.held id p).trans ⟨?_, ?_⟩, fun p k usable hk htask => ?_⟩
  · rintro ⟨k, hk, hid, hheld⟩
    refine ⟨k, ?_, hid, hheld⟩
    rw [Sessions.connect, List.getElem?_append_left (List.getElem?_eq_some_iff.1 hk).1, hk]
  · rintro ⟨k, hk, hid, hheld⟩
    rcases hchain hk with hk | htask
    · exact ⟨k, hk, hid, hheld⟩
    · rw [Chain.IsHeld, htask] at hheld
      exact absurd hheld.1 Bool.false_ne_true
  · rcases hchain hk with hk | htask'
    · exact h.connecting p k usable hk htask
    · rw [htask] at htask'
      cases htask'

theorem removeSession_set (s : Sessions) (i : ℕ) (k : Chain) (id : Uuid) :
    (s.set i k).removeSession id =
      (s.removeSession id).set i (if s.clientMgr.find id = some i then k.stop else k) := by
  rw [removeSession, find_set, removeSession]
  cases s.clientMgr.find id with
  | none => rw [if_neg (Option.some_ne_none i).symm]
  | some j =>
      dsimp only [set]
      congr 1
      refine List.ext_getElem? fun p => ?_
      rw [List.getElem?_modify, List.getElem?_set, List.getElem?_set, List.getElem?_modify,
        List.length_modify]
      by_cases hp : i = p
      · subst hp
        by_cases hj : j = i
        · subst hj
          by_cases hlt : j < s.chains.length <;> simp [hlt]
        · by_cases hlt : i < s.chains.length <;> simp [hlt, hj]
      · rw [if_neg hp, if_neg hp]

theorem Registers.effect (h : s.Registers) {e : SessionEvent} (he : s.Effect A clientId type e t) :
    t.Registers := by
  cases he with
  | connect sessionId bytesRead bytesWrite => exact h.connect sessionId bytesRead bytesWrite
  | disconnect => exact h.stop
  | @remove i k hk htask =>
      have hended : ¬ Chain.IsHeld { k with task := .ended } := fun hheld =>
        Bool.false_ne_true hheld.1
      have hended' : ¬ (Chain.stop { k with task := .ended }).IsHeld := fun hheld =>
        Bool.false_ne_true hheld.1
      have hremoved := h.removeSession k.session.id
      have hk' := s.getElem?_removeSession k.session.id i
      rw [hk] at hk'
      rw [removeSession_set]
      by_cases hfind : s.clientMgr.find k.session.id = some i
      · rw [if_pos hfind] at hk' ⊢
        refine hremoved.set hk' rfl ?_ fun usable htask' => (by cases htask')
        exact ⟨fun hheld => absurd hheld hended', fun hheld => absurd hheld k.not_isHeld_stop⟩
      · rw [if_neg hfind] at hk' ⊢
        refine hremoved.set hk' rfl ?_ fun usable htask' => (by cases htask')
        exact ⟨fun hheld => absurd hheld hended,
          fun hheld => absurd (h.find_of_held hk hheld) hfind⟩
  | add hk htask => exact h.addSession hk htask
  | move hk hmove =>
      exact h.set hk hmove.keeps.1 hmove.isHeld_iff fun _ => hmove.isOpen_connecting

theorem registers_of_reachable (h : (system A clientId type).Reachable s) : s.Registers := by
  refine h.invariant ?_ fun s e t hs _ hstep => hs.effect (effect_of_step hstep)
  rintro s rfl
  refine ⟨fun id p => ⟨fun hfind => (by cases hfind), ?_⟩, fun p k usable hk => (by cases hk)⟩
  rintro ⟨k, hk, -⟩
  cases hk

/-- A session is registered under an id if and only if it has been added with this id, has
not been removed since, and its socket is open. So no id has two open sessions. -/
theorem find_eq_some_iff : ∀ s, (system A clientId type).Reachable s → ∀ sessionId i,
    s.clientMgr.find sessionId = some i ↔
      ∃ k, s.chains[i]? = some k ∧ k.session.id = sessionId ∧ k.task.isEnrolled ∧
        k.session.isOpen :=
  fun _ h => (registers_of_reachable h).held

/-- `IsConnected` tells whether a session with the id is in that state. -/
theorem isConnected_iff (h : (system A clientId type).Reachable s) (sessionId : Uuid) :
    s.isConnected sessionId ↔
      ∃ k ∈ s.chains, k.session.id = sessionId ∧ k.task.isEnrolled ∧ k.session.isOpen := by
  rw [isConnected, Option.isSome_iff_exists]
  constructor
  · rintro ⟨i, hi⟩
    obtain ⟨k, hk, hheld⟩ := ((registers_of_reachable h).held _ _).1 hi
    exact ⟨k, List.mem_of_getElem? hk, hheld⟩
  · rintro ⟨k, hk, hheld⟩
    obtain ⟨i, hi⟩ := List.mem_iff_getElem?.1 hk
    exact ⟨i, ((registers_of_reachable h).held _ _).2 ⟨k, hi, hheld⟩⟩

theorem addedRun_find :
    ∃ s, (system plainText nilUuid .upstream).exec {} (addedRun 0) = some s ∧
      s.clientMgr.find 7 = some 0 ∧
      ∃ k, s.chains[0]? = some k ∧ k.session.id = 7 ∧ k.task.isEnrolled ∧ k.session.isOpen := by
  have hrun : ((system plainText nilUuid .upstream).exec {} (addedRun 0)).map
      (fun s => s.clientMgr.find 7) = some (some 0) := by decide +kernel
  obtain ⟨s, hs, hfind⟩ := Option.map_eq_some_iff.1 hrun
  exact ⟨s, hs, hfind,
    (find_eq_some_iff s (System.Reachable.exec (.init rfl) hs) 7 0).1 hfind⟩

end Sessions

end Registered

section Removed

namespace Sessions

variable {A : TextArchive} {clientId : Uuid} {type : StreamType} {s t : Sessions}

/-- The session is registered under the id, and no other chain is going to remove it. -/
structure Alone (s : Sessions) (id : Uuid) (p : ℕ) : Prop where
  find : s.clientMgr.find id = some p
  eq : ∀ q k, s.chains[q]? = some k → k.session.id = id → k.task.isEnrolled → q = p

theorem enrolled_of_step {clientMgr : SessionMgr ℕ} {k k' : Chain} {own : Bool}
    (h : k.Step A clientMgr own k') (hk' : k'.task.isEnrolled) :
    k'.session.id = k.session.id ∧
      (k.task.isEnrolled ∨ clientMgr.find k.session.id = none) := by
  cases h with
  | refl => exact ⟨rfl, .inl hk'⟩
  | stop => exact ⟨Chain.id_stop _, .inl hk'⟩
  | move hmove =>
      obtain ⟨hid, henrolled, -⟩ := hmove.keeps
      exact ⟨hid, .inl (henrolled ▸ hk')⟩
  | add htask hadded =>
      obtain ⟨rfl, hnone⟩ | rfl := hadded
      · exact ⟨rfl, .inr hnone⟩
      · cases hk'
  | remove => cases hk'
  | removeStop => cases hk'

theorem Alone.effect {id : Uuid} {p : ℕ} (h : s.Alone id p) {e : SessionEvent}
    (he : s.Effect A clientId type e t) (hdisconnect : e ≠ .disconnect)
    (hof : e.isOf p = false) : t.Alone id p := by
  constructor
  · cases he with
    | connect => exact h.find
    | disconnect => exact absurd rfl hdisconnect
    | @remove i k hk htask =>
        rw [find_removeSession, find_set]
        split
        · next hid =>
            have henrolled : k.task.isEnrolled := by
              rw [htask]
              rfl
            have hp := h.eq i k hk hid.symm henrolled
            exact absurd (decide_eq_true hp) (Bool.eq_false_iff.1 hof)
        · exact h.find
    | @add i k hk htask =>
        rw [addSession]
        rcases s.clientMgr.addSession_cases k.session.id i with ⟨hnone, hadd⟩ | ⟨-, hadd⟩
        · rw [hadd]
          dsimp only
          rw [SessionMgr.find_update, if_neg, h.find]
          rintro rfl
          rw [h.find] at hnone
          cases hnone
        · rw [hadd]
          exact h.find
    | move => exact h.find
  · intro q k' hk' hid henrolled
    cases hk : s.chains[q]? with
    | none =>
        obtain ⟨session, -, rfl⟩ := isNew_of_effect he hk hk'
        cases henrolled
    | some k =>
        obtain ⟨k'', hk'', hstep⟩ := step_of_effect he hk
        cases hk'.symm.trans hk''
        obtain ⟨hsame, hbefore | hnone⟩ := enrolled_of_step hstep henrolled
        · exact h.eq q k hk (hsame.symm.trans hid) hbefore
        · rw [← hsame, hid, h.find] at hnone
          cases hnone

theorem Alone.exec {id : Uuid} {p : ℕ} {es : List SessionEvent} (h : s.Alone id p)
    (hall : ∀ e ∈ es, e ≠ .disconnect ∧ e.isOf p = false)
    (hexec : (system A clientId type).exec s es = some t) : t.Alone id p := by
  induction es generalizing s with
  | nil =>
      cases hexec
      exact h
  | cons e es ih =>
      obtain ⟨⟨hdisconnect, hof⟩, hall⟩ := List.forall_mem_cons.1 hall
      obtain ⟨u, hu, hexec⟩ := Option.bind_eq_some_iff.1 hexec
      exact ih (h.effect (effect_of_step hu) hdisconnect hof) hall hexec

theorem not_isOf_of_isOf {p q : ℕ} (hne : p ≠ q) {e : SessionEvent} (h : e.isOf q) :
    e ≠ .disconnect ∧ e.isOf p = false := by
  cases e with
  | connect => cases h
  | disconnect => cases h
  | advance j | complete j | read j _ | fail j =>
      obtain rfl := of_decide_eq_true h
      exact ⟨fun h => (by cases h), decide_eq_false (Ne.symm hne)⟩

/-- Some events of one chain lead to a state in which nothing is registered under the
id. -/
def CanRemove (A : TextArchive) (clientId : Uuid) (type : StreamType) (id : Uuid) (q : ℕ)
    (s : Sessions) : Prop :=
  ∃ es t, (∀ e ∈ es, e.isOf q) ∧ (system A clientId type).exec s es = some t ∧
    t.clientMgr.find id = none

theorem CanRemove.cons {id : Uuid} {q : ℕ} {e : SessionEvent} (hof : e.isOf q)
    (hstep : s.step A clientId type e = some t) (h : t.CanRemove A clientId type id q) :
    s.CanRemove A clientId type id q := by
  obtain ⟨es, u, hall, hexec, hfind⟩ := h
  exact ⟨e :: es, u, List.forall_mem_cons.2 ⟨hof, hall⟩,
    Option.bind_eq_some_iff.2 ⟨t, hstep, hexec⟩, hfind⟩

theorem isOf_advance (q : ℕ) : (SessionEvent.advance q).isOf q := decide_eq_true rfl

theorem isOf_fail (q : ℕ) : (SessionEvent.fail q).isOf q := decide_eq_true rfl

theorem step_advance {q : ℕ} {k k' : Chain} (hk : s.chains[q]? = some k)
    (htask : k.task ≠ .removing) (h : k.advance A = some k') :
    s.step A clientId type (.advance q) = some (s.set q k') := by
  rw [step, hk, Option.bind_some, if_neg htask, h]
  rfl

theorem step_fail {q : ℕ} {k k' : Chain} (hk : s.chains[q]? = some k) (h : k.fail = some k') :
    s.step A clientId type (.fail q) = some (s.set q k') := by
  rw [step, hk, Option.bind_some, h]
  rfl

variable {id : Uuid} {q : ℕ} {k : Chain}

theorem getElem?_set_self (hk : s.chains[q]? = some k) (k' : Chain) :
    (s.set q k').chains[q]? = some k' := by
  rw [getElem?_set hk, if_pos rfl]

theorem canRemove_removing (hk : s.chains[q]? = some k) (hid : k.session.id = id)
    (htask : k.task = .removing) : s.CanRemove A clientId type id q := by
  have hstep : s.step A clientId type (.advance q) =
      some ((s.set q { k with task := .ended }).removeSession k.session.id) := by
    rw [step, hk, Option.bind_some, if_pos htask]
  refine .cons (isOf_advance q) hstep ⟨[], _, List.forall_mem_nil _, rfl, ?_⟩
  rw [find_removeSession, if_pos hid.symm]

theorem canRemove_failed {call : Call} (hk : s.chains[q]? = some k) (hid : k.session.id = id)
    (htask : k.task = .failed call) (hcall : call.isEnrolled) :
    s.CanRemove A clientId type id q := by
  refine .cons (isOf_advance q)
    (step_advance hk (fun h => by cases htask.symm.trans h) (by rw [Chain.advance, htask])) ?_
  exact canRemove_removing (getElem?_set_self hk _) hid (if_pos hcall)

theorem canRemove_waiting {call : Call} {usable : Bool} (hk : s.chains[q]? = some k)
    (hid : k.session.id = id) (htask : k.task = .waiting call usable) (hcall : call.isEnrolled) :
    s.CanRemove A clientId type id q := by
  refine .cons (isOf_fail q) (step_fail hk (by rw [Chain.fail, htask])) ?_
  exact canRemove_failed (getElem?_set_self hk _) hid rfl hcall

theorem canRemove_posted {call : Call} (hk : s.chains[q]? = some k) (hid : k.session.id = id)
    (htask : k.task = .posted call) (hcall : call.isEnrolled) :
    s.CanRemove A clientId type id q := by
  refine .cons (isOf_advance q)
    (step_advance hk (fun h => by cases htask.symm.trans h) (by rw [Chain.advance, htask])) ?_
  exact canRemove_waiting (getElem?_set_self hk _) ((Chain.id_start _ _).trans hid) rfl hcall

/-- An enrolled chain can fail, and then it removes whatever is registered under its id. -/
theorem canRemove (hk : s.chains[q]? = some k) (hid : k.session.id = id)
    (henrolled : k.task.isEnrolled) : s.CanRemove A clientId type id q := by
  cases htask : k.task with
  | posted call =>
      rw [htask] at henrolled
      exact canRemove_posted hk hid htask henrolled
  | waiting call usable =>
      rw [htask] at henrolled
      exact canRemove_waiting hk hid htask henrolled
  | failed call =>
      rw [htask] at henrolled
      exact canRemove_failed hk hid htask henrolled
  | added =>
      refine .cons (isOf_advance q)
        (step_advance hk (fun h => by cases htask.symm.trans h) (by rw [Chain.advance, htask])) ?_
      exact canRemove_posted (getElem?_set_self hk _) hid rfl rfl
  | greeted =>
      refine .cons (isOf_advance q)
        (step_advance hk (fun h => by cases htask.symm.trans h) (by rw [Chain.advance, htask])) ?_
      exact canRemove_posted (getElem?_set_self hk _) hid rfl rfl
  | removing => exact canRemove_removing hk hid htask
  | ended =>
      rw [htask] at henrolled
      cases henrolled

/-- A registered session stays registered, whatever the rest of the client does, until
`Disconnect` or a step of its own, if and only if no other session with its id has still to
be removed. -/
theorem stays_registered_iff : ∀ (s : Sessions) (id : Uuid) (p : ℕ),
    s.clientMgr.find id = some p →
      ((∀ es t, (∀ e ∈ es, e ≠ .disconnect ∧ e.isOf p = false) →
          (system A clientId type).exec s es = some t → t.clientMgr.find id = some p) ↔
        ∀ q k, s.chains[q]? = some k → k.session.id = id → k.task.isEnrolled → q = p) := by
  intro s id p hfind
  constructor
  · intro hstays q k hk hid henrolled
    by_contra hne
    obtain ⟨es, t, hall, hexec, hnone⟩ := @canRemove A clientId type s id q k
      hk hid henrolled
    have hsome := hstays es t (fun e he => not_isOf_of_isOf (Ne.symm hne) (hall e he)) hexec
    rw [hsome] at hnone
    cases hnone
  · intro hsole es t hall hexec
    exact (Alone.exec ⟨hfind, hsole⟩ hall hexec).find

/-- A session is connected anew after `Disconnect`, before the chain of the old one has
noticed that its socket is closed. -/
def reconnectedRun : List SessionEvent := addedRun 0 ++ .disconnect :: addedRun 1

/-- The new session is registered, but the failure of the old one can remove it. -/
theorem reconnectedRun_not_stays :
    ∃ s, (system plainText nilUuid .upstream).exec {} reconnectedRun = some s ∧
      s.clientMgr.find 7 = some 1 ∧
      ¬ ∀ es t, (∀ e ∈ es, e ≠ .disconnect ∧ e.isOf 1 = false) →
        (system plainText nilUuid .upstream).exec s es = some t → t.clientMgr.find 7 = some 1 := by
  have hrun : ((system plainText nilUuid .upstream).exec {} reconnectedRun).map
      (fun s => (s.clientMgr.find 7, s.chains[0]?.map fun k => (k.session.id, k.task))) =
      some (some 1, some (7, .added)) := by decide +kernel
  obtain ⟨s, hs, hfinal⟩ := Option.map_eq_some_iff.1 hrun
  obtain ⟨hfind, hchain⟩ := Prod.mk.inj hfinal
  obtain ⟨k, hk, hold⟩ := Option.map_eq_some_iff.1 hchain
  obtain ⟨hid, htask⟩ := Prod.mk.inj hold
  refine ⟨s, hs, hfind, fun hstays => ?_⟩
  have hzero := (stays_registered_iff s 7 1 hfind).1 hstays 0 k hk hid (by rw [htask]; rfl)
  cases hzero

end Sessions

end Removed

section Stopped

def Task.stepsLeft : Task → ℕ
  | .waiting .receiveReady true => 6
  | .waiting _ true | .added | .greeted => 5
  | .posted _ => 4
  | .waiting _ false => 3
  | .failed _ => 2
  | .removing => 1
  | .ended => 0

def Task.signalsLeft : Task → ℕ
  | .waiting .receiveReady true | .waiting .receive true | .added | .greeted => 2
  | .waiting _ _ | .posted _ | .failed _ => 1
  | .removing | .ended => 0

theorem Task.left_le (task : Task) : task.stepsLeft ≤ 6 ∧ task.signalsLeft ≤ 2 := by
  cases task with
  | waiting call usable => cases call <;> cases usable <;> decide
  | posted | added | greeted | failed | removing | ended =>
      simp [Task.stepsLeft, Task.signalsLeft]

/-- The socket of an added session is closed. -/
structure Chain.IsStopped (k : Chain) : Prop where
  past : k.task.isEnrolled ∨ k.task = .ended
  closed : k.session.isOpen = false

namespace Chain

variable {A : TextArchive} {k k' : Chain}

theorem not_move_ended (h : k.task = .ended) : ¬ k.Move A k' := by
  intro hmove
  cases hmove with
  | posted htask | added htask | greeted htask | failed htask | resolved htask | loggedIn htask
  | sentReady htask | handled htask _ | received htask _ | fail htask =>
      cases h.symm.trans htask

/-- A stopped chain signals at most what it has in hand. -/
theorem IsStopped.move (h : k.IsStopped) (hmove : k.Move A k') :
    k'.IsStopped ∧ k'.task.stepsLeft < k.task.stepsLeft ∧
      ∃ signals, k'.callbacks = k.callbacks ++ signals ∧
        signals.length + k'.task.signalsLeft ≤ k.task.signalsLeft := by
  have henrolled : k.task.isEnrolled :=
    h.past.resolve_right fun hended => not_move_ended hended hmove
  obtain ⟨-, hsame, hopen⟩ := hmove.keeps
  have hclosed := (hopen henrolled).trans h.closed
  refine ⟨⟨.inl (hsame ▸ henrolled), hclosed⟩, ?_⟩
  cases hmove with
  | @posted call htask =>
      dsimp only at hclosed ⊢
      rw [htask, hclosed]
      refine ⟨?_, [], (List.append_nil _).symm, ?_⟩ <;> cases call <;> decide
  | added htask =>
      rw [htask]
      exact ⟨by simp [Task.stepsLeft], _, rfl, by simp [Task.signalsLeft]⟩
  | greeted htask =>
      rw [htask]
      exact ⟨by simp [Task.stepsLeft], _, rfl, by simp [Task.signalsLeft]⟩
  | @failed call htask =>
      rw [htask] at henrolled ⊢
      have hcall : call.isEnrolled := henrolled
      rw [if_pos hcall]
      exact ⟨by simp [Task.stepsLeft], _, rfl, by simp [Task.signalsLeft]⟩
  | resolved htask =>
      rw [htask] at henrolled
      cases henrolled
  | loggedIn htask =>
      rw [htask]
      exact ⟨by simp [Task.stepsLeft], [], (List.append_nil _).symm, by simp [Task.signalsLeft]⟩
  | sentReady htask =>
      rw [htask]
      exact ⟨by simp [Task.stepsLeft], [], (List.append_nil _).symm, by simp [Task.signalsLeft]⟩
  | handled htask hnext =>
      rw [htask]
      obtain rfl | rfl := hnext
      · exact ⟨by simp [Task.stepsLeft], [], (List.append_nil _).symm, by simp [Task.signalsLeft]⟩
      · exact ⟨by simp [Task.stepsLeft], [], (List.append_nil _).symm, by simp [Task.signalsLeft]⟩
  | received htask =>
      rw [htask]
      exact ⟨by simp [Task.stepsLeft], _, rfl, by simp [Task.signalsLeft]⟩
  | @fail call usable htask =>
      dsimp only
      rw [htask]
      refine ⟨?_, [], (List.append_nil _).symm, ?_⟩ <;> cases call <;> cases usable <;> decide

/-- The same for a step of the client, which is one of the chain or not. -/
theorem IsStopped.step {clientMgr : SessionMgr ℕ} {own : Bool} (h : k.IsStopped)
    (hstep : k.Step A clientMgr own k') :
    k'.IsStopped ∧ k'.task.stepsLeft + own.toNat ≤ k.task.stepsLeft ∧
      ∃ signals, k'.callbacks = k.callbacks ++ signals ∧
        signals.length + k'.task.signalsLeft ≤ k.task.signalsLeft := by
  cases hstep with
  | refl => exact ⟨h, Nat.le_refl _, [], (List.append_nil _).symm, by simp⟩
  | stop =>
      exact ⟨⟨h.past, isOpen_stop _⟩, Nat.le_refl _, [], (List.append_nil _).symm, by simp [stop]⟩
  | move hmove => exact h.move hmove
  | add htask =>
      have hpast := h.past
      rw [htask] at hpast
      rcases hpast with henrolled | hended
      · cases henrolled
      · cases hended
  | remove htask =>
      rw [htask]
      exact ⟨⟨.inr rfl, h.closed⟩, by simp [Task.stepsLeft], [], (List.append_nil _).symm,
        by simp [Task.signalsLeft]⟩
  | removeStop htask =>
      rw [htask]
      exact ⟨⟨.inr rfl, isOpen_stop _⟩, by simp [Task.stepsLeft, stop], [],
        (List.append_nil _).symm, by simp [Task.signalsLeft, stop]⟩

end Chain

namespace Sessions

variable {A : TextArchive} {clientId : Uuid} {type : StreamType} {s t : Sessions} {p : ℕ}
  {k : Chain} {es : List SessionEvent}

theorem exec_of_isStopped (hk : s.chains[p]? = some k) (h : k.IsStopped)
    (hexec : (system A clientId type).exec s es = some t) :
    ∃ k', t.chains[p]? = some k' ∧
      (es.filter (·.isOf p)).length + k'.task.stepsLeft ≤ k.task.stepsLeft ∧
        ∃ signals, k'.callbacks = k.callbacks ++ signals ∧
          signals.length + k'.task.signalsLeft ≤ k.task.signalsLeft := by
  induction es generalizing s k with
  | nil =>
      cases hexec
      exact ⟨k, hk, by simp, [], (List.append_nil _).symm, by simp⟩
  | cons e es ih =>
      obtain ⟨u, hu, hexec⟩ := Option.bind_eq_some_iff.1 hexec
      obtain ⟨k₁, hk₁, hstep⟩ := step_of_effect (effect_of_step hu) hk
      obtain ⟨h₁, hsteps₁, signals₁, hcallbacks₁, hsignals₁⟩ := h.step hstep
      obtain ⟨k', hk', hsteps, signals, hcallbacks, hsignals⟩ := ih hk₁ h₁ hexec
      refine ⟨k', hk', ?_, signals₁ ++ signals, ?_, ?_⟩
      · rw [List.filter_cons]
        cases hof : e.isOf p with
        | false =>
            rw [hof] at hsteps₁
            exact Nat.le_trans hsteps hsteps₁
        | true =>
            rw [hof, Bool.toNat_true] at hsteps₁
            rw [if_pos rfl, List.length_cons]
            omega
      · rw [hcallbacks, hcallbacks₁, List.append_assoc]
      · rw [List.length_append]
        omega

/-- After `Disconnect` a session that was registered takes at most six more steps, and with
them it signals at most one thing and its error. -/
theorem disconnect_ends : ∀ s, (system A clientId type).Reachable s → ∀ id p es t,
    s.clientMgr.find id = some p →
      (system A clientId type).exec s (.disconnect :: es) = some t →
        ∃ k k', s.chains[p]? = some k ∧ t.chains[p]? = some k' ∧
          (es.filter (·.isOf p)).length ≤ 6 ∧
            ∃ signals, k'.callbacks = k.callbacks ++ signals ∧ signals.length ≤ 2 := by
  intro s h id p es t hfind hexec
  obtain ⟨k, hk, rfl, henrolled, -⟩ := ((registers_of_reachable h).held id p).1 hfind
  obtain ⟨u, hu, hexec⟩ := Option.bind_eq_some_iff.1 hexec
  obtain rfl := Option.some.inj hu
  have hstop : s.stop.chains[p]? = some k.stop := by
    rw [getElem?_stop, hk, Option.map_some, if_pos hfind]
  obtain ⟨k', hk', hsteps, signals, hcallbacks, hsignals⟩ :=
    exec_of_isStopped hstop ⟨.inl henrolled, Chain.isOpen_stop _⟩ hexec
  have hmost := k.stop.task.left_le
  exact ⟨k, k', hk, hk', by omega, signals, hcallbacks, by omega⟩

/-- The old session signals its connection and the error. -/
theorem addedRun_disconnect_ends :
    ∃ s t, (system plainText nilUuid .upstream).exec {} (addedRun 0) = some s ∧
      (system plainText nilUuid .upstream).exec s
        [.disconnect, .advance 0, .advance 0, .fail 0, .advance 0, .advance 0] = some t ∧
      ∃ k k', s.chains[0]? = some k ∧ t.chains[0]? = some k' ∧
        ∃ signals, k'.callbacks = k.callbacks ++ signals ∧ signals.length ≤ 2 := by
  have hrun : (((system plainText nilUuid .upstream).exec {} (addedRun 0)).bind fun s =>
      ((system plainText nilUuid .upstream).exec s
        [.disconnect, .advance 0, .advance 0, .fail 0, .advance 0, .advance 0]).map fun _ =>
          s.clientMgr.find 7) = some (some 0) := by decide +kernel
  obtain ⟨s, hs, hend⟩ := Option.bind_eq_some_iff.1 hrun
  obtain ⟨t, ht, hfind⟩ := Option.map_eq_some_iff.1 hend
  obtain ⟨k, k', hk, hk', -, hsignals⟩ :=
    disconnect_ends s (System.Reachable.exec (.init rfl) hs) 7 0 _ t hfind ht
  exact ⟨s, t, hs, ht, k, k', hk, hk', hsignals⟩

end Sessions

end Stopped

end OpenProxy
