import BoostSamples.OpenNat.ServerQueue
import BoostSamples.OpenNat.SocketWrites

/-!
# What becomes of the queued messages

The server is run beside a log of its queue: the messages that `Send` has
queued, what has become of each of them, and the writes that `DoSend` has
started. A message is written once, in the order of the queue and to the session
that is found for it, or it is dropped because its session is gone.

`Send` queues a message under the mutex and posts `DoSend` after that, so a step
that has queued the first message is followed by one that posts. Whatever else
happens may come between the two.
-/

namespace OpenNat

open Registry Transition

structure Fate where
  entry : QueueEntry
  /-- The connection that `DoSend` has been posted for; `none` means that the
  message has been dropped. -/
  found : Option ConnId
  /-- What the lookup of its session gives when that happens. -/
  lookup : Option (Option ConnId)
  deriving DecidableEq, Repr

def Fate.write (f : Fate) : Option (ConnId × Frame) :=
  f.found.map fun c => (c, f.entry.msg)

namespace Server

def Event.onQueue : Event → Bool
  | .doSend _ | .sendDone _ _ => true
  | _ => false

def queued (s t : Server) : Event → List QueueEntry
  | .sendDone _ _ => []
  | _ => t.serverQueue.drop s.serverQueue.length

def dropped (s t : Server) : Event → List QueueEntry
  | .sendDone _ _ =>
      s.serverQueue.tail.take (s.serverQueue.tail.length - t.serverQueue.length)
  | _ => []

/-- The calls of `DoSend` that a step has posted. -/
def calls (s t : Server) : Event → List (ConnId × Frame)
  | .doSend _ => []
  | _ => t.posted.drop s.posted.length

def startedBy (s : Server) : Event → List (ConnId × Frame)
  | .doSend i => (s.posted[i]?).toList
  | _ => []

def fate (t : Server) (found : Option ConnId) (entry : QueueEntry) : Fate :=
  ⟨entry, found, t.lookup entry.type entry.sessionId⟩

@[simp] theorem entry_fate (t : Server) (found : Option ConnId) (entry : QueueEntry) :
    (t.fate found entry).entry = entry := rfl

@[simp] theorem write_fate_none (t : Server) (entry : QueueEntry) :
    (t.fate none entry).write = none := rfl

@[simp] theorem write_fate_some (t : Server) (c : ConnId) (entry : QueueEntry) :
    (t.fate (some c) entry).write = some (c, entry.msg) := rfl

/-- What has become of messages in a step: some have been dropped, and `DoSend`
has been posted for the one that is then at the head. -/
def fates (s t : Server) (e : Event) : List Fate :=
  (s.dropped t e).map (t.fate none) ++
    (s.calls t e).flatMap fun w => (t.serverQueue.head?.map (t.fate (some w.1))).toList

/-- The messages that nothing has become of yet. The one at the head is being
written, unless the handler is blocked at it. -/
def waiting (s : Server) : List QueueEntry :=
  if s.hung then s.serverQueue else s.serverQueue.tail

end Server

structure QueueLog where
  server : Server := {}
  /-- The calls of `DoSend` that `Send` has still to post. -/
  toPost : List (ConnId × Frame) := []
  enqueued : List QueueEntry := []
  fates : List Fate := []
  started : List (ConnId × Frame) := []

namespace QueueLog

inductive Event
  | server (e : Server.Event)
  /-- `Send` posts `DoSend` for what it has queued. -/
  | post
  deriving Repr

/-- A step of the server, which is logged. The completion handler posts while it
holds the mutex, `Send` does not. -/
def step (l : QueueLog) : Event → Option QueueLog
  | .server e =>
      (l.server.step e).map fun t =>
        { server := if e.onQueue then t else { t with posted := l.server.posted }
          toPost := if e.onQueue then l.toPost else l.toPost ++ l.server.calls t e
          enqueued := l.enqueued ++ l.server.queued t e
          fates := l.fates ++ l.server.fates t e
          started := l.started ++ l.server.startedBy e }
  | .post =>
      match l.toPost with
      | [] => none
      | w :: ws =>
          some { l with
            server := { l.server with posted := l.server.posted ++ [w] }
            toPost := ws }

def system : System QueueLog Event where
  init l := l = {}
  step := step

end QueueLog

namespace Server

/-- The queue and what is under way with it are left alone. -/
structure Still (s t : Server) : Prop where
  serverQueue : t.serverQueue = s.serverQueue
  posted : t.posted = s.posted
  inFlight : t.inFlight = s.inFlight
  hung : t.hung = s.hung

namespace Still

variable {s t u : Server}

theorem trans (h : s.Still t) (h' : t.Still u) : s.Still u where
  serverQueue := h'.serverQueue.trans h.serverQueue
  posted := h'.posted.trans h.posted
  inFlight := h'.inFlight.trans h.inFlight
  hung := h'.hung.trans h.hung

theorem refl (s : Server) : s.Still s := ⟨rfl, rfl, rfl, rfl⟩

theorem modify (s : Server) (c : ConnId) (f : Conn → Conn) : s.Still (s.modify c f) :=
  ⟨rfl, rfl, rfl, rfl⟩

theorem stopHalf (s : Server) (half : Option ConnId) : s.Still (s.stopHalf half) := by
  cases half with
  | none => exact refl s
  | some c => exact ⟨rfl, rfl, rfl, rfl⟩

theorem removeStun (s : Server) (id : Uuid) : s.Still (s.removeStun id) := by
  unfold Server.removeStun
  split
  · exact refl s
  · exact ⟨rfl, rfl, rfl, rfl⟩

theorem removeProxy (s : Server) (id : Uuid) : s.Still (s.removeProxy id) := by
  unfold Server.removeProxy
  split
  · exact refl s
  · next p _ =>
      have hstop := (stopHalf s p.down).trans (stopHalf _ p.up)
      exact ⟨hstop.serverQueue, hstop.posted, hstop.inFlight, hstop.hung⟩

theorem refuse (s : Server) (c : ConnId) : s.Still (s.refuse c) := ⟨rfl, rfl, rfl, rfl⟩

end Still

/-- What sending does to the queue: the messages line up behind others, or
`DoSend` is posted for the first one. -/
inductive Queued (s t : Server) : Prop
  | nothing : t.serverQueue = s.serverQueue → t.posted = s.posted → Queued s t
  | behind {l : List QueueEntry} : s.serverQueue ≠ [] → t.serverQueue = s.serverQueue ++ l →
      t.posted = s.posted → Queued s t
  | first {entry : QueueEntry} {l : List QueueEntry} {c : ConnId} : s.serverQueue = [] →
      t.serverQueue = entry :: l → t.posted = s.posted ++ [(c, entry.msg)] →
      s.lookup entry.type entry.sessionId = some (some c) → Queued s t

/-- Messages are sent, and the registries are left alone. -/
structure Sends (s t : Server) : Prop where
  lookup : t.lookup = s.lookup
  inFlight : t.inFlight = s.inFlight
  hung : t.hung = s.hung
  queued : s.Queued t

namespace Sends

variable {s t u : Server}

theorem refl (s : Server) : s.Sends s := ⟨rfl, rfl, rfl, .nothing rfl rfl⟩

theorem trans (h : s.Sends t) (h' : t.Sends u) : s.Sends u where
  lookup := h'.lookup.trans h.lookup
  inFlight := h'.inFlight.trans h.inFlight
  hung := h'.hung.trans h.hung
  queued := by
    cases h.queued with
    | nothing hqueue hposted =>
        cases h'.queued with
        | nothing hqueue' hposted' =>
            exact .nothing (hqueue'.trans hqueue) (hposted'.trans hposted)
        | behind hne hqueue' hposted' =>
            rw [hqueue] at hne hqueue'
            exact .behind hne hqueue' (hposted'.trans hposted)
        | first hnil hqueue' hposted' hfound =>
            rw [hposted] at hposted'
            rw [h.lookup] at hfound
            exact .first (hqueue.symm.trans hnil) hqueue' hposted' hfound
    | @behind l hne hqueue hposted =>
        cases h'.queued with
        | nothing hqueue' hposted' =>
            exact .behind hne (hqueue'.trans hqueue) (hposted'.trans hposted)
        | @behind l' _ hqueue' hposted' =>
            rw [hqueue, List.append_assoc] at hqueue'
            exact .behind hne hqueue' (hposted'.trans hposted)
        | first hnil _ _ _ =>
            rw [hqueue] at hnil
            exact absurd (List.append_eq_nil_iff.1 hnil).1 hne
    | @first entry l c hnil hqueue hposted hfound =>
        cases h'.queued with
        | nothing hqueue' hposted' =>
            exact .first hnil (hqueue'.trans hqueue) (hposted'.trans hposted) hfound
        | @behind l' _ hqueue' hposted' =>
            rw [hqueue, List.cons_append] at hqueue'
            exact .first hnil hqueue' (hposted'.trans hposted) hfound
        | first hnil' _ _ _ =>
            rw [hqueue] at hnil'
            cases hnil'

theorem modify (s : Server) (c : ConnId) (f : Conn → Conn) : s.Sends (s.modify c f) :=
  ⟨rfl, rfl, rfl, .nothing rfl rfl⟩

theorem send (s : Server) (id : Uuid) (type : SessionType) (cmd : Command) :
    s.Sends (s.send id type cmd) := by
  unfold Server.send
  split
  · next c hfound =>
      dsimp only
      split
      · next hlength =>
          refine ⟨rfl, rfl, rfl, .behind (fun hnil => ?_) rfl rfl⟩
          simp [hnil] at hlength
      · next hlength =>
          have hnil : s.serverQueue = [] := by
            cases hqueue : s.serverQueue with
            | nil => rfl
            | cons entry l => simp [hqueue] at hlength
          refine ⟨rfl, rfl, rfl, @Queued.first s _ ⟨id, type, .ofCommand cmd⟩ [] c hnil ?_ rfl
            hfound⟩
          simp [hnil]
  · exact refl s

theorem onNotify (s : Server) (subscriber subscription : Uuid) (online : Bool) :
    s.Sends (s.onNotify subscriber subscription online) := by
  have htold : s.Sends { s with notified := s.notified ++ [(subscriber, subscription, online)] } :=
    ⟨rfl, rfl, rfl, .nothing rfl rfl⟩
  exact htold.trans (send _ _ _ _)

theorem notify (s : Server) (subscription : Uuid) (online : Bool) :
    s.Sends (s.notify subscription online) := by
  unfold Server.notify
  induction s.subscribeList subscription generalizing s with
  | nil => exact refl s
  | cons subscriber l ih => exact (onNotify s subscriber subscription online).trans (ih _)

theorem subscribe (s : Server) (subscription subscriber : Uuid) (online : Bool) :
    s.Sends (s.subscribe subscription subscriber online) := by
  unfold Server.subscribe
  refine trans ?_ (onNotify _ _ _ _)
  exact ⟨rfl, rfl, rfl, .nothing rfl rfl⟩

theorem processHeartbeat (s : Server) (c : ConnId) (h : Heartbeat) :
    s.Sends (s.processHeartbeat c h) := by
  unfold Server.processHeartbeat
  split
  · exact modify s c _
  · split
    · exact (modify s c _).trans (send _ _ _ _)
    · exact refl s

end Sends

/-- The registries are changed first, and then messages are sent. -/
def Enqueues (s t : Server) : Prop := ∃ u, s.Still u ∧ u.Sends t

namespace Enqueues

variable {s t u : Server}

theorem of_still (h : s.Still t) : s.Enqueues t := ⟨t, h, .refl t⟩

theorem of_sends (h : s.Sends t) : s.Enqueues t := ⟨s, .refl s, h⟩

theorem after (h : s.Still t) (h' : t.Enqueues u) : s.Enqueues u := by
  obtain ⟨v, hstill, hsends⟩ := h'
  exact ⟨v, h.trans hstill, hsends⟩

theorem before (h : s.Enqueues t) (h' : t.Sends u) : s.Enqueues u := by
  obtain ⟨v, hstill, hsends⟩ := h
  exact ⟨v, hstill, hsends.trans h'⟩

theorem connectStun (s : Server) (c : ConnId) (id : Uuid) : s.Enqueues (s.connectStun c id) := by
  rcases s.connectStun_cases c id with ⟨-, heq⟩ | ⟨-, heq⟩
  · rw [heq]
    exact ⟨{ s.named c id with
      stunMgr := ⟨Function.update s.stunMgr.sessionMap id (some c)⟩ },
      ⟨rfl, rfl, rfl, rfl⟩, (Sends.notify _ _ _).trans (Sends.send _ _ _ _)⟩
  · rw [heq]
    exact of_still ((Still.modify s c _).trans (Still.refuse _ c))

theorem connectProxy (s : Server) (c : ConnId) (d : Side) (id : Uuid) :
    s.Enqueues (s.connectProxy c d id).1 := by
  rcases s.connectProxy_cases c d id with ⟨mgr, -, heq⟩ | ⟨-, heq⟩
  · rw [heq]
    exact ⟨{ s.proxyNamed c d id with proxyMgr := mgr }, ⟨rfl, rfl, rfl, rfl⟩,
      Sends.send _ _ _ _⟩
  · rw [heq]
    exact of_still ((Still.modify s c _).trans (Still.refuse _ c))

theorem processed {c : ConnId} {cmd : Command} {more : Bool} (h : s.Processed c cmd t more) :
    s.Enqueues t := by
  cases h with
  | ignored => exact of_still (.refl s)
  | stun _ => exact connectStun s c _
  | proxy _ => exact connectProxy s c _ _
  | heartbeat => exact of_sends (Sends.processHeartbeat s c _)
  | subscribe => exact of_sends (Sends.subscribe s _ _ _)

theorem received {c : ConnId} {frame : Frame} (h : s.Received c frame t) : s.Enqueues t := by
  cases h with
  | p2p _ _ _ _ =>
      unfold sendP2P
      refine of_sends (Sends.trans ?_ (Sends.modify _ c _))
      split
      · exact ⟨rfl, rfl, rfl, .nothing rfl rfl⟩
      · exact Sends.send s _ _ _
  | more _ hprocessed => exact (processed hprocessed).before (Sends.modify _ c _)
  | proxied _ hprocessed => exact (processed hprocessed).before (Sends.modify _ c _)

theorem receiveCatch (s : Server) (c : ConnId) : s.Enqueues (s.receiveCatch c) := by
  unfold Server.receiveCatch
  exact ⟨_, Still.removeStun s (s.conns c).session.id,
    (Sends.notify _ _ _).trans (Sends.modify _ c _)⟩

theorem handleStunTimeout (s : Server) (id : Uuid) :
    s.Still (s.handleStunTimeout id) ∨ s.hung = false ∧ s.Enqueues (s.handleStunTimeout id) := by
  unfold Server.handleStunTimeout
  split
  · exact .inl (.refl s)
  · next c _ =>
      dsimp only
      split
      · split
        · exact .inl (Still.removeStun s _)
        · split
          · exact .inl (Still.modify s c _)
          · next hhung =>
              refine .inr ⟨Bool.eq_false_iff.2 hhung, ?_⟩
              exact (after (Still.modify s c _) (of_sends (Sends.send _ _ _ _))).before
                (Sends.modify _ c _)
      · exact .inl (Still.modify s c _)

end Enqueues

/-- The completion handler is blocked, or drops the messages whose sessions are
gone and posts `DoSend` for the next one, if there is one. -/
inductive Drain (s t : Server) : Prop
  | blocked : t.serverQueue = s.serverQueue → t.posted = s.posted → t.hung = true → Drain s t
  | emptied : (∀ entry ∈ s.serverQueue, s.Gone entry) → t.serverQueue = [] →
      t.posted = s.posted → t.hung = s.hung → Drain s t
  | next {gone l : List QueueEntry} {entry : QueueEntry} {c : ConnId} :
      s.serverQueue = gone ++ entry :: l → t.serverQueue = entry :: l →
      (∀ g ∈ gone, s.Gone g) → s.lookup entry.type entry.sessionId = some (some c) →
      t.posted = s.posted ++ [(c, entry.msg)] → t.hung = s.hung → Drain s t

theorem lookup_drain (s : Server) : s.drain.lookup = s.lookup := by
  unfold drain
  split
  · rfl
  · split <;> rfl

theorem drain_cases (s : Server) : s.Drain s.drain := by
  by_cases hqueue : s.serverQueue = []
  · have hdrain : s.drain = s := if_pos hqueue
    exact .emptied (by simp [hqueue]) ((congrArg serverQueue hdrain).trans hqueue)
      (congrArg posted hdrain) (congrArg hung hdrain)
  rcases s.gone_or_exists s.serverQueue with
    hall | ⟨gone, entry, l, _ | c, hsplit, hgone, hhalf⟩
  · have hdrain : s.drain = { s with serverQueue := [], posted := s.posted ++ [] } := by
      simp [drain, hqueue, drainLoop_gone hall hqueue]
    rw [hdrain, List.append_nil]
    exact .emptied hall rfl rfl rfl
  · have hloop : s.drainLoop (s.serverQueue.length + 1) s.serverQueue = none := by
      rw [hsplit]
      exact drainLoop_append_null hgone hhalf l _
    have hdrain : s.drain = { s with hung := true } := by simp [drain, hqueue, hloop]
    rw [hdrain]
    exact .blocked rfl rfl rfl
  · have hlength : s.serverQueue.length + 1 = gone.length + (l.length + 1 + 1) := by
      simp only [hsplit, List.length_append, List.length_cons]
      omega
    have hloop : s.drainLoop (s.serverQueue.length + 1) s.serverQueue =
        some (entry :: l, some c) := by
      rw [hlength, hsplit, drainLoop_append hgone, drainLoop_found hhalf]
    have hdrain : s.drain =
        { s with serverQueue := entry :: l, posted := s.posted ++ [(c, entry.msg)] } := by
      simp [drain, hqueue, hloop]
    rw [hdrain]
    exact .next hsplit rfl hgone hhalf rfl rfl

inductive QueueStep (s t : Server) : Event → Prop
  | still {e : Event} : e.onQueue = false → s.Still t → QueueStep s t e
  | enqueues {e : Event} : e.onQueue = false → s.hung = false → s.Enqueues t → QueueStep s t e
  | doSend {before after : List (ConnId × Frame)} {w : ConnId × Frame} :
      s.posted = before ++ w :: after → t.posted = before ++ after →
      t.serverQueue = s.serverQueue → t.inFlight = s.inFlight ++ [w] → t.hung = s.hung →
      QueueStep s t (.doSend before.length)
  | sendDone {u : Server} {i : Nat} {ok : Bool} : s.inFlight ≠ [] → s.hung = false →
      u.posted = s.posted → u.serverQueue = s.serverQueue.tail → u.hung = s.hung →
      t.lookup = u.lookup → u.Drain t → QueueStep s t (.sendDone i ok)

theorem queueStep_of_step {s t : Server} {e : Event} (h : s.step e = some t) :
    s.QueueStep t e := by
  obtain ⟨-, hstrand, heffect⟩ := effect_of_step h
  cases heffect with
  | accept _ => exact .still rfl (Still.modify s _ _)
  | arrive _ _ => exact .still rfl (Still.modify s _ _)
  | @received c frame rest t _ _ hreceived =>
      have htake : s.Still ((s.takeReceive c).takeFrame c) := ⟨rfl, rfl, rfl, rfl⟩
      exact .enqueues rfl (hstrand rfl) (Enqueues.after htake (Enqueues.received hreceived))
  | @rejected c frame rest _ _ =>
      have htake : s.Still ((s.takeReceive c).takeFrame c) := ⟨rfl, rfl, rfl, rfl⟩
      exact .enqueues rfl (hstrand rfl) (Enqueues.after htake (Enqueues.receiveCatch _ c))
  | @receiveFail c _ =>
      exact .enqueues rfl (hstrand rfl)
        (Enqueues.after (Still.modify s c _) (Enqueues.receiveCatch _ c))
  | relayed _ _ _ _ _ _ => exact .still rfl ⟨rfl, rfl, rfl, rfl⟩
  | crashed _ _ _ _ _ => exact .still rfl ⟨rfl, rfl, rfl, rfl⟩
  | @unpaired c frame rest _ _ =>
      have htake : s.Still ((s.takeReceiveProxy c).takeFrame c) := ⟨rfl, rfl, rfl, rfl⟩
      exact .still rfl (htake.trans (Still.removeProxy _ _))
  | @receiveProxyFail c _ =>
      exact .still rfl ((Still.modify s c _).trans (Still.removeProxy _ _))
  | doSend hposted => exact .doSend hposted rfl rfl rfl rfl
  | @sendDone before after w ok hflight =>
      refine .sendDone (u := { s with
        inFlight := before ++ after
        serverQueue := s.serverQueue.tail }) ?_ (hstrand rfl) rfl rfl rfl ?_ (drain_cases _)
      · simp [hflight]
      · exact lookup_drain _
  | @relayDone c ok _ =>
      refine .still rfl ?_
      split
      · exact ⟨rfl, rfl, rfl, rfl⟩
      · exact Still.modify s c _
  | p2pDone _ => exact .still rfl ⟨rfl, rfl, rfl, rfl⟩
  | @p2pFail before after dest sender _ =>
      exact .enqueues rfl (hstrand rfl) ⟨{ s with p2pWrites := before ++ after },
        ⟨rfl, rfl, rfl, rfl⟩, Sends.send _ _ _ _⟩
  | tick => exact .still rfl ⟨rfl, rfl, rfl, rfl⟩
  | expire => exact .still rfl ⟨rfl, rfl, rfl, rfl⟩
  | @stunTimeout c i w _ _ =>
      have htake : s.Still (s.takeWait c i) := ⟨rfl, rfl, rfl, rfl⟩
      rcases Enqueues.handleStunTimeout (s.takeWait c i) w.sessionId with hstill | ⟨hhung, hqueue⟩
      · exact .still rfl (htake.trans hstill)
      · exact .enqueues rfl hhung (Enqueues.after htake hqueue)

structure Balanced (s t : Server) (e : Event) : Prop where
  queue : s.waiting ++ s.queued t e = (s.fates t e).map Fate.entry ++ t.waiting
  writes : s.posted ++ (s.fates t e).filterMap Fate.write = s.startedBy e ++ t.posted
  found : ∀ f ∈ s.fates t e, f.lookup = f.found.map some

section Steps

variable {s t u : Server} {e : Event}

theorem logged_of_onQueue (he : e.onQueue = false) :
    s.queued t e = t.serverQueue.drop s.serverQueue.length ∧
      s.fates t e = (t.posted.drop s.posted.length).flatMap (fun w =>
        (t.serverQueue.head?.map (t.fate (some w.1))).toList) ∧ s.startedBy e = [] := by
  cases e with
  | doSend _ => cases he
  | sendDone _ _ => cases he
  | _ => exact ⟨rfl, rfl, rfl⟩

theorem balanced_of_same (he : e.onQueue = false) (hqueue : t.serverQueue = s.serverQueue)
    (hposted : t.posted = s.posted) (hhung : t.hung = s.hung) : s.Balanced t e := by
  obtain ⟨hqueued, hfates, hstarted⟩ := s.logged_of_onQueue (t := t) he
  rw [hqueue, List.drop_length] at hqueued
  rw [hposted, List.drop_length] at hfates
  have hwaiting : t.waiting = s.waiting := by rw [waiting, waiting, hqueue, hhung]
  refine ⟨?_, ?_, ?_⟩
  · simp [hqueued, hfates, hwaiting]
  · simp [hfates, hstarted, hposted]
  · simp [hfates]

theorem balanced_of_enqueues (he : e.onQueue = false) (hhung : s.hung = false)
    (h : s.Enqueues t) : s.Balanced t e := by
  obtain ⟨u, hstill, hsends⟩ := h
  obtain ⟨hqueued, hfates, hstarted⟩ := s.logged_of_onQueue (t := t) he
  have hsame : t.hung = s.hung := hsends.hung.trans hstill.hung
  have hwaiting : s.waiting = s.serverQueue.tail := by simp [waiting, hhung]
  have hwaiting' : t.waiting = t.serverQueue.tail := by simp [waiting, hsame, hhung]
  cases hsends.queued with
  | nothing hqueue hposted =>
      exact balanced_of_same he (hqueue.trans hstill.serverQueue) (hposted.trans hstill.posted)
        hsame
  | @behind l hne hqueue hposted =>
      rw [hstill.serverQueue] at hne hqueue
      rw [hstill.posted] at hposted
      rw [hqueue, List.drop_left] at hqueued
      rw [hposted, List.drop_length] at hfates
      refine ⟨?_, ?_, ?_⟩
      · rw [hqueued, hfates, hwaiting, hwaiting', hqueue, List.tail_append_of_ne_nil hne]
        rfl
      · simp [hfates, hstarted, hposted]
      · simp [hfates]
  | @first entry l c hnil hqueue hposted hfound =>
      rw [hstill.serverQueue] at hnil
      rw [hstill.posted] at hposted
      rw [hqueue, hnil] at hqueued
      rw [hposted, List.drop_left, hqueue] at hfates
      have hfate : s.fates t e = [t.fate (some c) entry] := by simpa using hfates
      refine ⟨?_, ?_, ?_⟩
      · simp [hqueued, hfate, hwaiting, hwaiting', hqueue, hnil]
      · simp [hfate, hstarted, hposted]
      · simp [hfate, fate, hsends.lookup, hfound]

theorem balanced_doSend {before after : List (ConnId × Frame)} {w : ConnId × Frame}
    (hsend : s.OneSend) (hposted : s.posted = before ++ w :: after)
    (hposted' : t.posted = before ++ after) (hqueue : t.serverQueue = s.serverQueue)
    (hhung : t.hung = s.hung) : s.Balanced t (.doSend before.length) := by
  have hsingle := hsend.single
  simp only [hposted, List.length_append, List.length_cons] at hsingle
  obtain rfl : before = [] := List.length_eq_zero_iff.1 (by omega)
  obtain rfl : after = [] := List.length_eq_zero_iff.1 (by omega)
  have hwaiting : t.waiting = s.waiting := by rw [waiting, waiting, hqueue, hhung]
  refine ⟨?_, ?_, ?_⟩
  · simp [queued, fates, dropped, calls, hqueue, hwaiting]
  · simp [fates, dropped, calls, startedBy, hposted, hposted']
  · simp [fates, dropped, calls]

theorem fates_sendDone (gone : List QueueEntry) (l : List (ConnId × Frame)) {i : Nat} {ok : Bool}
    (hqueue : s.serverQueue.tail = gone ++ t.serverQueue) (hposted : t.posted = s.posted ++ l) :
    s.fates t (.sendDone i ok) = gone.map (t.fate none) ++
      l.flatMap fun w => (t.serverQueue.head?.map (t.fate (some w.1))).toList := by
  have hdropped : s.dropped t (.sendDone i ok) = gone := by
    show s.serverQueue.tail.take _ = gone
    rw [hqueue, List.length_append, Nat.add_sub_cancel, List.take_left]
  rw [fates, hdropped]
  congr 2
  exact (congrArg (List.drop _) hposted).trans List.drop_left

/-- The completion handler drops the messages whose sessions are gone, and
`DoSend` is posted for the next one. -/
theorem balanced_sendDone {i : Nat} {ok : Bool} (hhung : s.hung = false)
    (hposted : u.posted = s.posted) (hqueue : u.serverQueue = s.serverQueue.tail)
    (hsame : u.hung = s.hung) (hlookup : t.lookup = u.lookup) (h : u.Drain t) :
    s.Balanced t (.sendDone i ok) := by
  have hwaiting : s.waiting = u.serverQueue := by simp [waiting, hhung, hqueue]
  have hqueued : s.queued t (.sendDone i ok) = [] := rfl
  have hstarted : s.startedBy (.sendDone i ok) = [] := rfl
  have hlost : ∀ entry, u.Gone entry → t.lookup entry.type entry.sessionId = none := by
    intro entry hentry
    rw [hlookup]
    exact hentry
  cases h with
  | blocked hqueue' hposted' hhung' =>
      have hfates : s.fates t (.sendDone i ok) = [] :=
        fates_sendDone [] [] (by simp [hqueue', hqueue]) (by simp [hposted', hposted])
      have hwaiting' : t.waiting = u.serverQueue := by simp [waiting, hhung', hqueue']
      refine ⟨?_, ?_, ?_⟩
      · simp [hfates, hqueued, hwaiting, hwaiting']
      · simp [hfates, hstarted, hposted', hposted]
      · simp [hfates]
  | emptied hgone hnil hposted' hhung' =>
      have hfates : s.fates t (.sendDone i ok) = u.serverQueue.map (t.fate none) := by
        rw [fates_sendDone u.serverQueue [] (by simp [hnil, hqueue])
          (by simp [hposted', hposted])]
        simp
      have hwaiting' : t.waiting = [] := by simp [waiting, hnil]
      refine ⟨?_, ?_, ?_⟩
      · simp [hfates, hqueued, hwaiting, hwaiting', Function.comp_def]
      · simp [hfates, hstarted, hposted', hposted, Function.comp_def]
      · intro f hf
        rw [hfates] at hf
        obtain ⟨entry, hentry, rfl⟩ := List.mem_map.1 hf
        exact hlost entry (hgone entry hentry)
  | @next gone l entry c hsplit hqueue' hgone hfound hposted' hhung' =>
      have hfates : s.fates t (.sendDone i ok) =
          gone.map (t.fate none) ++ [t.fate (some c) entry] := by
        rw [fates_sendDone gone [(c, entry.msg)] (by rw [← hqueue, hsplit, hqueue'])
          (by rw [hposted', hposted])]
        simp [hqueue']
      have hwaiting' : t.waiting = l := by simp [waiting, hhung', hsame, hhung, hqueue']
      refine ⟨?_, ?_, ?_⟩
      · simp [hfates, hqueued, hwaiting, hwaiting', hsplit, Function.comp_def]
      · simp [hfates, hstarted, hposted', hposted, Function.comp_def]
      · intro f hf
        rw [hfates, List.mem_append, List.mem_singleton] at hf
        rcases hf with hf | rfl
        · obtain ⟨g, hg, rfl⟩ := List.mem_map.1 hf
          exact hlost g (hgone g hg)
        · show t.lookup entry.type entry.sessionId = some (some c)
          rw [hlookup]
          exact hfound

theorem balanced_of_step (hsend : s.OneSend) (h : s.step e = some t) : s.Balanced t e := by
  cases queueStep_of_step h with
  | still he hstill =>
      exact balanced_of_same he hstill.serverQueue hstill.posted hstill.hung
  | enqueues he hhung hqueue => exact balanced_of_enqueues he hhung hqueue
  | doSend hposted hposted' hqueue _ hhung =>
      exact balanced_doSend hsend hposted hposted' hqueue hhung
  | sendDone _ hhung hposted hqueue hsame hlookup hdrain =>
      exact balanced_sendDone hhung hposted hqueue hsame hlookup hdrain

/-- If the handler is not blocked, a write is under way as long as there are
messages. -/
def Busy (s : Server) : Prop :=
  s.hung = false → s.serverQueue ≠ [] → 0 < s.posted.length + s.inFlight.length

theorem Busy.step (hs : s.Busy) (h : s.step e = some t) : t.Busy := by
  intro hhung hne
  cases queueStep_of_step h with
  | still _ hstill =>
      rw [hstill.posted, hstill.inFlight]
      exact hs (hstill.hung ▸ hhung) (hstill.serverQueue ▸ hne)
  | enqueues _ hhung' hqueue =>
      obtain ⟨u, hstill, hsends⟩ := hqueue
      rw [hsends.inFlight, hstill.inFlight]
      cases hsends.queued with
      | nothing hqueue hposted =>
          rw [hposted, hstill.posted]
          exact hs hhung' (hstill.serverQueue ▸ hqueue ▸ hne)
      | behind hne' _ hposted =>
          rw [hposted, hstill.posted]
          exact hs hhung' (hstill.serverQueue ▸ hne')
      | first _ _ hposted _ =>
          rw [hposted, List.length_append, List.length_singleton]
          omega
  | doSend _ _ _ hflight _ =>
      rw [hflight, List.length_append, List.length_singleton]
      omega
  | sendDone _ _ _ _ _ _ hdrain =>
      cases hdrain with
      | blocked _ _ hhung' => exact absurd hhung (by simp [hhung'])
      | emptied _ hnil _ _ => exact absurd hnil hne
      | next _ _ _ _ hposted _ =>
          rw [hposted, List.length_append, List.length_singleton]
          omega

end Steps

end Server

namespace QueueLog

section Kept

variable {l l' : QueueLog} {t : Server} {e : Server.Event}

/-- The calls of `DoSend` that are to be posted, are posted or are writing. -/
def underWay (l : QueueLog) : Nat :=
  l.toPost.length + l.server.posted.length + l.server.inFlight.length

structure Kept (l : QueueLog) : Prop where
  single : l.underWay ≤ 1
  idle : l.server.serverQueue = [] → l.underWay = 0
  busy : l.server.hung = false → l.server.serverQueue ≠ [] → 0 < l.underWay
  enqueued : l.enqueued = l.fates.map Fate.entry ++ l.server.waiting
  written : l.fates.filterMap Fate.write = l.started ++ l.server.posted ++ l.toPost
  found : ∀ f ∈ l.fates, f.lookup = f.found.map some

/-- Unless `Send` is between the queue and the post, the server alone has what is
under way. -/
theorem underWay_of_toPost_nil (h : l.toPost = []) :
    l.underWay = l.server.posted.length + l.server.inFlight.length := by
  simp [underWay, h]

/-- While `Send` has still to post, nothing else is under way. -/
theorem Kept.alone (h : l.Kept) (hpost : l.toPost ≠ []) :
    l.toPost.length = 1 ∧ l.server.posted = [] ∧ l.server.inFlight = [] ∧
      l.server.serverQueue ≠ [] := by
  have hpos := List.length_pos_iff.2 hpost
  have hsingle := h.single
  rw [underWay] at hsingle
  refine ⟨by omega, List.length_eq_zero_iff.1 (by omega), List.length_eq_zero_iff.1 (by omega),
    fun hnil => ?_⟩
  have hidle := h.idle hnil
  rw [underWay] at hidle
  omega

theorem Kept.oneSend (h : l.Kept) : l.server.OneSend where
  single := by
    have hsingle := h.single
    rw [underWay] at hsingle
    omega
  idle hnil := by
    have hidle := h.idle hnil
    rw [underWay] at hidle
    omega

/-- The queue is served only when nothing has to be posted. -/
theorem Kept.toPost_eq_nil (h : l.Kept) (hstep : l.server.step e = some t)
    (he : e.onQueue = true) : l.toPost = [] := by
  by_contra hpost
  obtain ⟨-, hposted, hflight, -⟩ := h.alone hpost
  cases Server.queueStep_of_step hstep with
  | still hoff _ => exact absurd he (by simp [hoff])
  | enqueues hoff _ _ => exact absurd he (by simp [hoff])
  | doSend hsplit _ _ _ _ => simp [hposted] at hsplit
  | sendDone hne _ _ _ _ _ _ => exact hne hflight

end Kept

end QueueLog

namespace Server

variable {s t : Server} {e : Event}

theorem calls_of_onQueue (he : e.onQueue = false) :
    s.calls t e = t.posted.drop s.posted.length := by
  cases e with
  | doSend _ => cases he
  | _ => rfl

/-- What an event that does not serve the queue posts, and only for the first
message. -/
theorem posted_of_step (h : s.step e = some t) (he : e.onQueue = false) :
    t.posted = s.posted ++ s.calls t e ∧ t.inFlight = s.inFlight ∧
      (s.serverQueue ≠ [] → t.serverQueue ≠ [] ∧ s.calls t e = []) := by
  rw [calls_of_onQueue he]
  cases queueStep_of_step h with
  | still _ hstill =>
      rw [hstill.posted, hstill.serverQueue, List.drop_length, List.append_nil]
      exact ⟨rfl, hstill.inFlight, fun hne => ⟨hne, rfl⟩⟩
  | enqueues _ _ hqueue =>
      obtain ⟨u, hstill, hsends⟩ := hqueue
      have hflight : t.inFlight = s.inFlight := hsends.inFlight.trans hstill.inFlight
      cases hsends.queued with
      | nothing hqueue hposted =>
          rw [hposted, hqueue, hstill.posted, hstill.serverQueue, List.drop_length,
            List.append_nil]
          exact ⟨rfl, hflight, fun hne => ⟨hne, rfl⟩⟩
      | behind _ hqueue hposted =>
          rw [hposted, hqueue, hstill.posted, hstill.serverQueue, List.drop_length,
            List.append_nil]
          exact ⟨rfl, hflight, fun hne => ⟨by simp [hne], rfl⟩⟩
      | first hnil _ hposted _ =>
          rw [hposted, hstill.posted, List.drop_left]
          exact ⟨rfl, hflight, fun hne => absurd (hstill.serverQueue ▸ hnil) hne⟩
  | doSend _ _ _ _ _ => cases he
  | sendDone _ _ _ _ _ _ _ => cases he

end Server

namespace QueueLog

section Kept

variable {l l' : QueueLog} {t : Server} {e : Server.Event}

theorem Kept.enqueued_append (h : l.Kept) (hbalanced : l.server.Balanced t e) :
    l.enqueued ++ l.server.queued t e =
      (l.fates ++ l.server.fates t e).map Fate.entry ++ t.waiting := by
  rw [h.enqueued, List.append_assoc, hbalanced.queue, List.map_append, List.append_assoc]

theorem Kept.found_append (h : l.Kept) (hbalanced : l.server.Balanced t e) :
    ∀ f ∈ l.fates ++ l.server.fates t e, f.lookup = f.found.map some := by
  intro f hf
  rcases List.mem_append.1 hf with hf | hf
  · exact h.found f hf
  · exact hbalanced.found f hf

theorem Kept.served (h : l.Kept) (hstep : l.server.step e = some t) (he : e.onQueue = true)
    (hl : l.step (.server e) = some l') : l'.Kept := by
  have hnil := h.toPost_eq_nil hstep he
  simp only [step, hstep, Option.map_some, he, if_true, hnil, Option.some.injEq] at hl
  subst hl
  obtain ⟨-, -, heffect⟩ := Server.effect_of_step hstep
  have hsend := (Server.writeStep_of_effect heffect).oneSend h.oneSend
  have hbalanced := Server.balanced_of_step h.oneSend hstep
  have hbusy : l.server.Busy := fun hhung hne =>
    Nat.lt_of_lt_of_eq (h.busy hhung hne) (underWay_of_toPost_nil hnil)
  have hwritten := h.written
  rw [hnil, List.append_nil] at hwritten
  have hcount (b : List QueueEntry) (f : List Fate) (w : List (ConnId × Frame)) :
      underWay ⟨t, [], b, f, w⟩ = t.posted.length + t.inFlight.length :=
    underWay_of_toPost_nil rfl
  refine ⟨?_, fun hqueue => ?_, fun hhung hne => ?_, h.enqueued_append hbalanced, ?_,
    h.found_append hbalanced⟩
  · exact (hcount _ _ _).trans_le hsend.single
  · exact (hcount _ _ _).trans (hsend.idle hqueue)
  · exact (hbusy.step hstep hhung hne).trans_eq (hcount _ _ _).symm
  · show (l.fates ++ _).filterMap Fate.write = l.started ++ _ ++ t.posted ++ []
    rw [List.filterMap_append, hwritten, List.append_assoc, hbalanced.writes, List.append_nil,
      List.append_assoc]

theorem Kept.queued (h : l.Kept) (hstep : l.server.step e = some t) (he : e.onQueue = false)
    (hl : l.step (.server e) = some l') : l'.Kept := by
  simp only [step, hstep, Option.map_some, he, Bool.false_eq_true, if_false,
    Option.some.injEq] at hl
  subst hl
  obtain ⟨hposted, hflight, hfirst⟩ := Server.posted_of_step hstep he
  obtain ⟨-, -, heffect⟩ := Server.effect_of_step hstep
  have hsend := (Server.writeStep_of_effect heffect).oneSend h.oneSend
  have hbalanced := Server.balanced_of_step h.oneSend hstep
  have hcalls : (l.server.fates t e).filterMap Fate.write = l.server.calls t e := by
    have hwrites := hbalanced.writes
    rw [(l.server.logged_of_onQueue (t := t) he).2.2, List.nil_append, hposted] at hwrites
    exact List.append_cancel_left hwrites
  -- What is to be posted and what is posted are together what the step has posted.
  have hcount : (l.toPost ++ l.server.calls t e).length + l.server.posted.length +
      t.inFlight.length = l.toPost.length + (t.posted.length + t.inFlight.length) := by
    rw [hposted]
    simp only [List.length_append]
    omega
  have hkeep : (l.toPost.length + (t.posted.length + t.inFlight.length) ≤ 1) ∧
      (t.serverQueue = [] → l.toPost.length + (t.posted.length + t.inFlight.length) = 0) ∧
      (t.hung = false → t.serverQueue ≠ [] →
        0 < l.toPost.length + (t.posted.length + t.inFlight.length)) := by
    by_cases hpost : l.toPost = []
    · have hbusy : l.server.Busy := fun hhung hne =>
        (h.busy hhung hne).trans_eq (underWay_of_toPost_nil hpost)
      rw [hpost, List.length_nil, Nat.zero_add]
      exact ⟨hsend.single, hsend.idle, hbusy.step hstep⟩
    · obtain ⟨hone, hnil, hflight', hne⟩ := h.alone hpost
      obtain ⟨hne', hnone⟩ := hfirst hne
      rw [hposted, hnil, hnone, hflight, hflight', hone]
      exact ⟨Nat.le_refl 1, fun hqueue => absurd hqueue hne', fun _ _ => Nat.one_pos⟩
  refine ⟨?_, fun hqueue => ?_, fun hhung hne => ?_, h.enqueued_append hbalanced, ?_,
    h.found_append hbalanced⟩
  · exact hcount.trans_le hkeep.1
  · exact hcount.trans (hkeep.2.1 hqueue)
  · exact (hkeep.2.2 hhung hne).trans_eq hcount.symm
  · show (l.fates ++ _).filterMap Fate.write = l.started ++ l.server.startedBy e ++ _ ++ _
    rw [List.filterMap_append, h.written, hcalls, (l.server.logged_of_onQueue (t := t) he).2.2,
      List.append_nil, List.append_assoc]

theorem Kept.posted (h : l.Kept) (hl : l.step .post = some l') : l'.Kept := by
  cases hpost : l.toPost with
  | nil => simp [step, hpost] at hl
  | cons w ws =>
      simp only [step, hpost, Option.some.injEq] at hl
      subst hl
      have hwaiting : Server.waiting { l.server with posted := l.server.posted ++ [w] } =
          l.server.waiting := rfl
      have hcount : underWay { l with
          server := { l.server with posted := l.server.posted ++ [w] }
          toPost := ws } = l.underWay := by
        simp only [underWay, hpost, List.length_append, List.length_cons, List.length_nil]
        omega
      have hwritten := h.written
      rw [hpost] at hwritten
      refine ⟨hcount.trans_le h.single, fun hqueue => hcount.trans (h.idle hqueue),
        fun hhung hne => (h.busy hhung hne).trans_eq hcount.symm, ?_, ?_, h.found⟩
      · exact h.enqueued
      · simpa using hwritten

theorem Kept.step {e : Event} (h : l.Kept) (hstep : l.step e = some l') : l'.Kept := by
  cases e with
  | server e =>
      obtain ⟨t, ht, -⟩ := Option.map_eq_some_iff.1 hstep
      cases he : e.onQueue with
      | true => exact h.served ht he hstep
      | false => exact h.queued ht he hstep
  | post => exact h.posted hstep

theorem kept_of_reachable (h : system.Reachable l) : l.Kept := by
  refine h.invariant (fun l hl => ?_) fun l e l' hl _ hstep => hl.step hstep
  obtain rfl : l = {} := hl
  exact ⟨Nat.zero_le 1, fun _ => rfl, fun _ hne => absurd rfl hne, rfl, rfl, by simp⟩

end Kept

/-- Every message that has been queued is still waiting, has been written to the
session that was found for it or has been dropped when there was none, each
once and in the order of the queue; and one call of `DoSend` is to be posted, is
posted or writes exactly as long as there are messages, unless the handler is
blocked. -/
theorem messages_kept {l : QueueLog} (h : system.Reachable l) :
    l.enqueued = l.fates.map Fate.entry ++ l.server.waiting ∧
    l.fates.filterMap Fate.write = l.started ++ l.server.posted ++ l.toPost ∧
    (∀ f ∈ l.fates, f.lookup = f.found.map some) ∧
    (l.server.hung = false →
      l.toPost.length + l.server.posted.length + l.server.inFlight.length =
        if l.server.serverQueue = [] then 0 else 1) := by
  have hkept := kept_of_reachable h
  refine ⟨hkept.enqueued, hkept.written, hkept.found, fun hhung => ?_⟩
  split
  · next hnil => exact hkept.idle hnil
  · next hne => exact Nat.le_antisymm hkept.single (hkept.busy hhung hne)

/-- Client 1 registers and times out. Between the queue and the post of the ping to
it the up end of session 2 registers, which drops before its reply is written; then
client 3 does. -/
def droppedRun : List Event :=
  (Server.connectRun 0 .stun 1).map .server ++
    [.post, .server (.doSend 0), .server (.sendDone 0 true), .server (.tick 5),
      .server (.expire 0 0), .server (.stunTimeout 0 0)] ++
    (Server.connectRun 1 .proxyUp 2).map .server ++ [.post, .server (.doSend 0)] ++
    (Server.connectRun 2 .stun 3).map .server ++
    [.server (.receiveProxyFail 1), .server (.sendDone 0 true), .server (.doSend 0)]

/-- What is for the clients is written, and the reply to the session that is gone is
dropped. -/
theorem droppedRun_kept :
    ∃ l, system.exec {} droppedRun = some l ∧ l.enqueued.map QueueEntry.sessionId = [1, 1, 2, 3] ∧
      l.fates.map Fate.found = [some 0, some 0, none, some 2] ∧
      l.fates.filterMap Fate.write = l.started := by
  have hrun : system.Reachable _ := System.Reachable.exec (.init rfl)
    (show system.exec {} droppedRun = some _ from rfl)
  have hwritten := (messages_kept hrun).2.1
  exact ⟨_, rfl, rfl, rfl, hwritten.trans ((List.append_nil _).trans (List.append_nil _))⟩

end QueueLog

end OpenNat
