import BoostSamples.Transition.System
import BoostSamples.OpenNat.Framing
import BoostSamples.OpenNat.SessionMgr

/-!
# The send queue of the opennat client

One queue serves all sessions of a client. `Client::Send` finds the session,
enters the lock of the queue, appends its message and posts `DoSend` if the
queue was empty; the completion handler of `DoSend` pops the message that was
written and, still in the lock, drops the messages whose session is gone until
it can post the next one. Calls of `Send`, completions and changes of the
registry interleave freely: what a call or a handler does outside the lock, and
each look into the registry, is an event of its own.

The abstract statement is that the queue has one token. It is with the call
that found the queue empty, with a posted `DoSend`, with the write in flight or
with the handler that looks for the next message, and there is a token exactly
while the queue is not empty.
-/

namespace OpenNat

open Transition

/-- A queued message. `number` counts the messages enqueued before it, so it
tells two entries with the same content apart. -/
structure SendEntry where
  number : Nat
  sessionId : Uuid
  msg : Message

/-- The queue, what is under way with it, and its history. Sessions are session
pointers, numbered. -/
structure ClientSend where
  sessionMgr : SessionMgr Nat := .empty
  sendQueue : List SendEntry := []
  /-- Calls of `Send` that have found their session and not yet locked. -/
  found : List (Nat × Uuid × Message) := []
  /-- Calls of `Send` that have left the lock and still have to post. -/
  starting : List (Nat × SendEntry) := []
  /-- `DoSend` posted to the strand. -/
  posted : List (Nat × SendEntry) := []
  /-- Writes started and not completed. -/
  inFlight : List (Nat × SendEntry) := []
  /-- A completion handler holds the lock and looks for the next message. -/
  draining : Bool := false
  enqueued : List SendEntry := []
  written : List SendEntry := []
  skipped : List SendEntry := []

namespace ClientSend

/-- What can happen to the queue. An index picks one of the calls, posts or
writes under way. -/
inductive Event
  | find (sessionId : Uuid) (msg : Message)
  | enqueue (i : Nat)
  | post (i : Nat)
  | doSend (i : Nat)
  | complete (i : Nat) (ok : Bool)
  | drain
  | addSession (sessionId : Uuid) (session : Nat)
  | removeSession (sessionId : Uuid)

/-- `Send` up to its lock: an unknown session id ends the call. -/
def send (s : ClientSend) (sessionId : Uuid) (msg : Message) : Option ClientSend :=
  (s.sessionMgr.find sessionId).map fun session =>
    { s with found := s.found ++ [(session, sessionId, msg)] }

/-- The locked part of `Send`: only the call that finds the queue empty goes on
to post. -/
def enqueue (s : ClientSend) (i : Nat) : Option ClientSend :=
  if s.draining then none
  else
    (s.found[i]?).map fun call =>
      let entry : SendEntry := ⟨s.enqueued.length, call.2.1, call.2.2⟩
      { s with
        found := s.found.eraseIdx i
        sendQueue := s.sendQueue ++ [entry]
        enqueued := s.enqueued ++ [entry]
        starting := if s.sendQueue = [] then s.starting ++ [(call.1, entry)]
          else s.starting }

def post (s : ClientSend) (i : Nat) : Option ClientSend :=
  (s.starting[i]?).map fun call =>
    { s with
      starting := s.starting.eraseIdx i
      posted := s.posted ++ [call] }

/-- `DoSend` runs on the strand and starts the write. -/
def doSend (s : ClientSend) (i : Nat) : Option ClientSend :=
  (s.posted[i]?).map fun call =>
    { s with
      posted := s.posted.eraseIdx i
      inFlight := s.inFlight ++ [call]
      written := s.written ++ [call.2] }

def complete (s : ClientSend) (i : Nat) : Option ClientSend :=
  if s.draining then none
  else
    (s.inFlight[i]?).map fun _ =>
      { s with
        inFlight := s.inFlight.eraseIdx i
        sendQueue := s.sendQueue.tail
        draining := s.sendQueue.tail ≠ [] }

/-- One round of the loop of the completion handler: the session of the head is
found and `DoSend` is posted, or the head is popped. -/
def drain (s : ClientSend) : Option ClientSend :=
  if s.draining then
    match s.sendQueue with
    | [] => none
    | entry :: rest =>
        match s.sessionMgr.find entry.sessionId with
        | some next =>
            some { s with posted := s.posted ++ [(next, entry)], draining := false }
        | none =>
            some { s with
              sendQueue := rest
              skipped := s.skipped ++ [entry]
              draining := rest ≠ [] }
  else none

def step (s : ClientSend) : Event → Option ClientSend
  | .find sessionId msg => s.send sessionId msg
  | .enqueue i => s.enqueue i
  | .post i => s.post i
  | .doSend i => s.doSend i
  | .complete i _ => s.complete i
  | .drain => s.drain
  | .addSession sessionId session =>
      some { s with sessionMgr := (s.sessionMgr.addSession sessionId session).1 }
  | .removeSession sessionId =>
      some { s with sessionMgr := s.sessionMgr.removeSession sessionId }

def system : System ClientSend Event where
  init s := s = {}
  step := step

/-- Where the token of the queue is, for given contents of the queue, of the
starting calls, the posts and the writes, and the flag of the handler. -/
inductive Token : List SendEntry → List (Nat × SendEntry) →
    List (Nat × SendEntry) → List (Nat × SendEntry) → Bool → Prop
  | idle : Token [] [] [] [] false
  | starting (session : Nat) (entry : SendEntry) (rest : List SendEntry) :
      Token (entry :: rest) [(session, entry)] [] [] false
  | posted (session : Nat) (entry : SendEntry) (rest : List SendEntry) :
      Token (entry :: rest) [] [(session, entry)] [] false
  | inFlight (session : Nat) (entry : SendEntry) (rest : List SendEntry) :
      Token (entry :: rest) [] [] [(session, entry)] false
  | draining (entry : SendEntry) (rest : List SendEntry) :
      Token (entry :: rest) [] [] [] true

/-- The queued messages that have not been handed to a write: the head of the
queue stays queued while it is being written. -/
def unwritten (queue : List SendEntry) (inFlight : List (Nat × SendEntry)) :
    List SendEntry :=
  if inFlight = [] then queue else queue.tail

/-- How the history relates to the unwritten messages: the written messages
followed by the unwritten ones keep the enqueue order, and a message in neither
has been skipped. -/
structure History (enqueued written skipped unwritten : List SendEntry) :
    Prop where
  numbers : enqueued.map SendEntry.number = List.range enqueued.length
  order : (written ++ unwritten).Sublist enqueued
  kept : ∀ entry ∈ enqueued, entry ∈ written ++ unwritten ∨ entry ∈ skipped

theorem History.enqueue {enqueued written skipped unwritten : List SendEntry}
    (h : History enqueued written skipped unwritten) (entry : SendEntry)
    (hnumber : entry.number = enqueued.length) :
    History (enqueued ++ [entry]) written skipped (unwritten ++ [entry]) where
  numbers := by simp [h.numbers, hnumber, List.range_succ]
  order := by
    rw [← List.append_assoc]
    exact h.order.append (List.Sublist.refl _)
  kept := by
    intro e he
    rcases List.mem_append.1 he with he | he
    · rcases h.kept e he with hk | hk
      · exact .inl (by rw [← List.append_assoc]; exact List.mem_append_left _ hk)
      · exact .inr hk
    · exact .inl (by rw [← List.append_assoc]; exact List.mem_append_right _ he)

theorem History.write {enqueued written skipped unwritten : List SendEntry}
    {entry : SendEntry}
    (h : History enqueued written skipped (entry :: unwritten)) :
    History enqueued (written ++ [entry]) skipped unwritten where
  numbers := h.numbers
  order := by simpa using h.order
  kept := by simpa using h.kept

theorem History.skip {enqueued written skipped unwritten : List SendEntry}
    {entry : SendEntry}
    (h : History enqueued written skipped (entry :: unwritten)) :
    History enqueued written (skipped ++ [entry]) unwritten where
  numbers := h.numbers
  order :=
    ((List.Sublist.refl written).append (List.sublist_cons_self entry unwritten)).trans
      h.order
  kept := by
    intro e he
    rcases h.kept e he with hk | hk
    · simp only [List.mem_append, List.mem_cons] at hk ⊢
      tauto
    · exact .inr (List.mem_append_left _ hk)

theorem History.nodup {enqueued written skipped unwritten : List SendEntry}
    (h : History enqueued written skipped unwritten) : enqueued.Nodup :=
  List.Nodup.of_map SendEntry.number (h.numbers ▸ List.nodup_range)

structure Inv (s : ClientSend) : Prop where
  token : Token s.sendQueue s.starting s.posted s.inFlight s.draining
  history : History s.enqueued s.written s.skipped
    (unwritten s.sendQueue s.inFlight)

theorem getElem?_singleton_eq_some {α : Type*} {a b : α} {i : Nat}
    (h : [a][i]? = some b) : i = 0 ∧ b = a := by
  cases i with
  | zero => exact ⟨rfl, by simpa using h.symm⟩
  | succ i => simp at h

theorem inv_init : Inv ({} : ClientSend) where
  token := .idle
  history := ⟨rfl, by simp [unwritten], by simp⟩

theorem Inv.send {s t : ClientSend} (hs : s.Inv) {sessionId : Uuid}
    {msg : Message} (h : s.send sessionId msg = some t) : t.Inv := by
  obtain ⟨session, -, rfl⟩ := Option.map_eq_some_iff.1 h
  exact ⟨hs.token, hs.history⟩

/-- The new message takes the token if the queue was empty, and lines up behind
it otherwise. -/
theorem Inv.enqueue {s t : ClientSend} (hs : s.Inv) {i : Nat}
    (h : s.enqueue i = some t) : t.Inv := by
  obtain ⟨mgr, queue, found, starting, posted, inFlight, draining, enqueued,
    written, skipped⟩ := s
  obtain ⟨htoken, hhistory⟩ := hs
  simp only [ClientSend.enqueue, Option.ite_none_left_eq_some,
    Option.map_eq_some_iff] at h
  obtain ⟨hdrain, call, -, rfl⟩ := h
  have hnew := hhistory.enqueue ⟨enqueued.length, call.2.1, call.2.2⟩ rfl
  cases htoken with
  | idle => exact ⟨.starting _ _ [], hnew⟩
  | starting session entry rest => exact ⟨.starting session entry _, hnew⟩
  | posted session entry rest => exact ⟨.posted session entry _, hnew⟩
  | inFlight session entry rest => exact ⟨.inFlight session entry _, hnew⟩
  | draining entry rest => exact absurd rfl hdrain

theorem Inv.post {s t : ClientSend} (hs : s.Inv) {i : Nat}
    (h : s.post i = some t) : t.Inv := by
  obtain ⟨mgr, queue, found, starting, posted, inFlight, draining, enqueued,
    written, skipped⟩ := s
  obtain ⟨htoken, hhistory⟩ := hs
  obtain ⟨call, hcall, rfl⟩ := Option.map_eq_some_iff.1 h
  cases htoken with
  | starting session entry rest =>
      obtain ⟨rfl, rfl⟩ := getElem?_singleton_eq_some hcall
      exact ⟨.posted session entry rest, hhistory⟩
  | _ => simp at hcall

theorem Inv.doSend {s t : ClientSend} (hs : s.Inv) {i : Nat}
    (h : s.doSend i = some t) : t.Inv := by
  obtain ⟨mgr, queue, found, starting, posted, inFlight, draining, enqueued,
    written, skipped⟩ := s
  obtain ⟨htoken, hhistory⟩ := hs
  obtain ⟨call, hcall, rfl⟩ := Option.map_eq_some_iff.1 h
  cases htoken with
  | posted session entry rest =>
      obtain ⟨rfl, rfl⟩ := getElem?_singleton_eq_some hcall
      exact ⟨.inFlight session entry rest, hhistory.write⟩
  | _ => simp at hcall

theorem Inv.complete {s t : ClientSend} (hs : s.Inv) {i : Nat}
    (h : s.complete i = some t) : t.Inv := by
  obtain ⟨mgr, queue, found, starting, posted, inFlight, draining, enqueued,
    written, skipped⟩ := s
  obtain ⟨htoken, hhistory⟩ := hs
  simp only [ClientSend.complete, Option.ite_none_left_eq_some,
    Option.map_eq_some_iff] at h
  obtain ⟨hdrain, call, hcall, rfl⟩ := h
  cases htoken with
  | inFlight session entry rest =>
      obtain ⟨rfl, rfl⟩ := getElem?_singleton_eq_some hcall
      cases rest with
      | nil => exact ⟨.idle, hhistory⟩
      | cons next rest => exact ⟨.draining next rest, hhistory⟩
  | _ => simp at hcall

/-- A round of the loop hands the token on to the head or skips the head, and
then its session is not registered. -/
theorem drain_cases {s t : ClientSend} (h : s.drain = some t) :
    s.draining = true ∧ ∃ entry rest, s.sendQueue = entry :: rest ∧
      ((∃ next, s.sessionMgr.find entry.sessionId = some next ∧
        t = { s with posted := s.posted ++ [(next, entry)], draining := false }) ∨
      (s.sessionMgr.find entry.sessionId = none ∧
        t = { s with
          sendQueue := rest
          skipped := s.skipped ++ [entry]
          draining := rest ≠ [] })) := by
  simp only [ClientSend.drain, Option.ite_none_right_eq_some] at h
  obtain ⟨hdrain, h⟩ := h
  refine ⟨hdrain, ?_⟩
  cases hqueue : s.sendQueue with
  | nil => simp [hqueue] at h
  | cons entry rest =>
      refine ⟨entry, rest, rfl, ?_⟩
      simp only [hqueue] at h
      cases hfind : s.sessionMgr.find entry.sessionId with
      | some next =>
          simp only [hfind, Option.some.injEq] at h
          exact .inl ⟨next, rfl, h.symm⟩
      | none =>
          simp only [hfind, Option.some.injEq] at h
          exact .inr ⟨rfl, h.symm⟩

theorem Inv.drain {s t : ClientSend} (hs : s.Inv)
    (h : s.drain = some t) : t.Inv := by
  obtain ⟨hdrain, entry, rest, hqueue, hcases⟩ := drain_cases h
  obtain ⟨mgr, queue, found, starting, posted, inFlight, draining, enqueued,
    written, skipped⟩ := s
  obtain ⟨htoken, hhistory⟩ := hs
  simp only at hdrain hqueue
  subst hdrain hqueue
  cases htoken
  rcases hcases with ⟨next, -, rfl⟩ | ⟨-, rfl⟩
  · exact ⟨.posted next entry rest, hhistory⟩
  · have hskip := History.skip hhistory
    cases rest with
    | nil => exact ⟨.idle, hskip⟩
    | cons next rest => exact ⟨.draining next rest, hskip⟩

theorem Inv.step {s t : ClientSend} (hs : s.Inv) (e : Event)
    (h : s.step e = some t) : t.Inv := by
  cases e with
  | find sessionId msg => exact hs.send h
  | enqueue i => exact hs.enqueue h
  | post i => exact hs.post h
  | doSend i => exact hs.doSend h
  | complete i ok => exact hs.complete h
  | drain => exact hs.drain h
  | addSession sessionId session =>
      obtain rfl := Option.some.inj h
      exact ⟨hs.token, hs.history⟩
  | removeSession sessionId =>
      obtain rfl := Option.some.inj h
      exact ⟨hs.token, hs.history⟩

theorem inv_of_reachable {s : ClientSend} (h : system.Reachable s) : s.Inv :=
  h.invariant (fun _ hs => hs ▸ inv_init) fun _ e _ hs _ ht => hs.step e ht

/-- What is posted is the head of the queue, which has been enqueued. -/
theorem Inv.posted_enqueued {s : ClientSend} (hs : s.Inv) :
    ∀ call ∈ s.posted, call.2 ∈ s.enqueued := by
  obtain ⟨mgr, queue, found, starting, posted, inFlight, draining, enqueued,
    written, skipped⟩ := s
  obtain ⟨htoken, hhistory⟩ := hs
  intro call hcall
  cases htoken with
  | posted session entry rest =>
      obtain rfl := List.mem_singleton.1 hcall
      apply hhistory.order.subset
      exact List.mem_append_right _ List.mem_cons_self
  | _ => exact absurd hcall List.not_mem_nil

/-- The holders of the token: a call about to post, a posted `DoSend`, a write
in flight or the handler in its loop. -/
def holders (s : ClientSend) : Nat :=
  s.starting.length + s.posted.length + s.inFlight.length +
    if s.draining then 1 else 0

theorem Token.holders_eq {s : ClientSend}
    (h : Token s.sendQueue s.starting s.posted s.inFlight s.draining) :
    s.holders = if s.sendQueue = [] then 0 else 1 := by
  obtain ⟨mgr, queue, found, starting, posted, inFlight, draining, enqueued,
    written, skipped⟩ := s
  cases h <;> rfl

/-- The only step that skips a message is a round of the loop, and it skips the
head, whose session is not registered. -/
theorem skipped_step {s t : ClientSend} {e : Event} (h : s.step e = some t)
    {entry : SendEntry} (hentry : entry ∈ t.skipped) :
    entry ∈ s.skipped ∨
      s.sendQueue.head? = some entry ∧ s.sessionMgr.find entry.sessionId = none := by
  have hsame : t.skipped = s.skipped →
      entry ∈ s.skipped ∨
        s.sendQueue.head? = some entry ∧ s.sessionMgr.find entry.sessionId = none :=
    fun heq => .inl (heq ▸ hentry)
  cases e with
  | find sessionId msg =>
      obtain ⟨session, -, rfl⟩ := Option.map_eq_some_iff.1 h
      exact hsame rfl
  | enqueue i =>
      simp only [ClientSend.step, ClientSend.enqueue, Option.ite_none_left_eq_some,
        Option.map_eq_some_iff] at h
      obtain ⟨-, call, -, rfl⟩ := h
      exact hsame rfl
  | post i =>
      obtain ⟨call, -, rfl⟩ := Option.map_eq_some_iff.1 h
      exact hsame rfl
  | doSend i =>
      obtain ⟨call, -, rfl⟩ := Option.map_eq_some_iff.1 h
      exact hsame rfl
  | complete i ok =>
      simp only [ClientSend.step, ClientSend.complete, Option.ite_none_left_eq_some,
        Option.map_eq_some_iff] at h
      obtain ⟨-, call, -, rfl⟩ := h
      exact hsame rfl
  | drain =>
      obtain ⟨-, head, rest, hqueue, ⟨next, -, rfl⟩ | ⟨hfind, rfl⟩⟩ := drain_cases h
      · exact hsame rfl
      · rcases List.mem_append.1 hentry with hold | hnew
        · exact .inl hold
        · obtain rfl := List.mem_singleton.1 hnew
          exact .inr ⟨by rw [hqueue]; rfl, hfind⟩
  | addSession sessionId session =>
      obtain rfl := Option.some.inj h
      exact hsame rfl
  | removeSession sessionId =>
      obtain rfl := Option.some.inj h
      exact hsame rfl

/-- In every reachable state at most one `DoSend` is posted or in flight, the
queue is non-empty exactly when the token has a holder, the written messages
are a subsequence of the enqueued ones without repetition, no message is lost,
and a message is skipped only as the head of the queue and with no session
registered under its id. -/
theorem reachable_sendQueue {s : ClientSend} (h : system.Reachable s) :
    s.posted.length + s.inFlight.length ≤ 1 ∧
    (s.sendQueue ≠ [] ↔ s.holders = 1) ∧
    s.written.Sublist s.enqueued ∧ s.written.Nodup ∧
    (∀ entry ∈ s.enqueued,
      entry ∈ s.written ∨ entry ∈ s.sendQueue ∨ entry ∈ s.skipped) ∧
    ∀ e t, s.step e = some t → ∀ entry ∈ t.skipped, entry ∈ s.skipped ∨
      s.sendQueue.head? = some entry ∧ s.sessionMgr.find entry.sessionId = none := by
  have hinv := inv_of_reachable h
  have hholders := hinv.token.holders_eq
  have hsub : s.written.Sublist s.enqueued :=
    (List.sublist_append_left _ _).trans hinv.history.order
  refine ⟨?_, ?_, hsub, hinv.history.nodup.sublist hsub, ?_,
    fun e t ht entry hentry => skipped_step ht hentry⟩
  · have hle : s.posted.length + s.inFlight.length ≤ s.holders := by
      unfold holders
      omega
    split at hholders <;> omega
  · by_cases hqueue : s.sendQueue = [] <;> simp [hholders, hqueue]
  · intro entry hentry
    rcases hinv.history.kept entry hentry with hk | hk
    · rcases List.mem_append.1 hk with hw | hu
      · exact .inl hw
      · refine .inr (.inl ?_)
        unfold unwritten at hu
        split at hu
        · exact hu
        · exact List.mem_of_mem_tail hu
    · exact .inr (.inr hk)

/-- Messages go to the sessions 1, 2 and 1, and session 2 is gone when the first one
has been written. -/
def skippedRun : List Event :=
  [.addSession 1 0, .addSession 2 1, .find 1 (.data [0x68]), .find 2 (.data [0x69]),
    .enqueue 0, .enqueue 0, .post 0, .doSend 0, .find 1 (.data [0x6a]), .enqueue 0,
    .removeSession 2, .complete 0 true, .drain, .drain, .doSend 0]

theorem skippedRun_sendQueue :
    ∃ s, system.exec {} skippedRun = some s ∧ s.written.map SendEntry.number = [0, 2] ∧
      s.skipped.map SendEntry.number = [1] ∧ s.written.Sublist s.enqueued ∧ s.holders = 1 := by
  have hrun : system.Reachable _ := System.Reachable.exec (.init rfl)
    (show system.exec {} skippedRun = some _ from rfl)
  obtain ⟨-, hholders, hsub, -⟩ := reachable_sendQueue hrun
  exact ⟨_, rfl, rfl, rfl, hsub, hholders.1 (List.cons_ne_nil _ _)⟩

/-- A call that has found the session of id 1 and enqueued a message. -/
def enqueueRun : List Event := [.addSession 1 0, .find 1 (.data [0x68]), .enqueue 0]

/-- Between the lock and the post of `Send` the queue is non-empty while no
`DoSend` is posted or in flight. -/
theorem not_sendQueue_iff_posted_or_inFlight :
    ¬ ∀ s, system.Reachable s →
      (s.sendQueue ≠ [] ↔ s.posted.length + s.inFlight.length = 1) := by
  intro h
  have hrun : system.Reachable _ := System.Reachable.exec (.init rfl)
    (show system.exec {} enqueueRun = some _ from rfl)
  have hiff := h _ hrun
  simp at hiff

end ClientSend

end OpenNat
