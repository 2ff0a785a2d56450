import Mathlib.Data.List.InsertIdx
import BoostSamples.OpenNat.ClientSend
import BoostSamples.OpenProxy.Protocol

/-!
# The send queue of the openproxy client

`Client::Send` takes a pointer to a `Data` object, pushes it and appends the delimiter
to the object itself, so what a queued pair stands for depends on the later calls with
the same object. `DoSend` starts a write of what the object holds at that time; an
append may move the text of the object, and then a write in progress reads from a buffer
that is gone.

Calls, writes and changes of the registry interleave as at the client of opennat, whose
queue is the abstract model: `view` takes a state of this queue to a state of that one.
-/

namespace OpenProxy

open Transition
open OpenNat (SessionMgr)

abbrev DataPtr := ℕ

/-- A queued pair. `number` counts the pairs pushed before it. -/
structure QueuePair where
  number : ℕ
  sessionId : Uuid
  data : DataPtr
  deriving DecidableEq

/-- What a pair is to be written as, when the objects have been created with some text. -/
def QueuePair.frame (created : DataPtr → Buff) (x : QueuePair) : Buff :=
  Framing.frame delimiter (created x.data)

structure Write where
  session : ℕ
  pair : QueuePair
  /-- What the object held at the start. -/
  buffer : Buff
  /-- The object has been appended to since. -/
  moved : Bool := false
  /-- What has been written to the socket. -/
  bytes : Buff := []
  /-- Whether the completed write was without an error. -/
  done : Option Bool := none
  deriving DecidableEq

def Write.append (data : DataPtr) (w : Write) : Write :=
  if w.pair.data = data then { w with moved := true } else w

/-- The queue, what is under way with it, and its history. Sessions are session
pointers, numbered. -/
structure ClientSend where
  clientMgr : SessionMgr ℕ := .empty
  isReady : ℕ → Bool := fun _ => false
  /-- What the objects held when they were created. -/
  created : DataPtr → Buff
  /-- What the objects hold. -/
  data : DataPtr → Buff
  sendQueue : List QueuePair := []
  /-- Calls of `Send` that have found a ready session and not yet locked. -/
  found : List (ℕ × Uuid × DataPtr) := []
  /-- Calls of `Send` that have left the lock and still have to post. -/
  starting : List (ℕ × QueuePair) := []
  /-- `DoSend` posted to the strand. -/
  posted : List (ℕ × QueuePair) := []
  /-- The writes in the order of their start. -/
  writes : List Write := []
  /-- A completion handler holds the lock and looks for the next pair. -/
  draining : Bool := false
  enqueued : List QueuePair := []
  skipped : List QueuePair := []

namespace ClientSend

/-- `Client::Send` up to its lock. An unknown session, or one that is not ready, ends the
call. -/
def send (s : ClientSend) (sessionId : Uuid) (data : DataPtr) : Option ClientSend :=
  match s.clientMgr.find sessionId with
  | none => none
  | some session =>
      if s.isReady session then
        some { s with found := s.found ++ [(session, sessionId, data)] }
      else none

/-- The locked part of `Client::Send`: the delimiter is appended to the object. -/
def enqueue (s : ClientSend) (i : ℕ) : Option ClientSend :=
  if s.draining then none
  else
    (s.found[i]?).map fun call =>
      let pair : QueuePair := ⟨s.enqueued.length, call.2.1, call.2.2⟩
      { s with
        found := s.found.eraseIdx i
        sendQueue := s.sendQueue ++ [pair]
        data := Function.update s.data pair.data (s.data pair.data ++ delimiter)
        writes := s.writes.map (Write.append pair.data)
        enqueued := s.enqueued ++ [pair]
        starting := if s.sendQueue = [] then s.starting ++ [(call.1, pair)] else s.starting }

def post (s : ClientSend) (i : ℕ) : Option ClientSend :=
  (s.starting[i]?).map fun call =>
    { s with
      starting := s.starting.eraseIdx i
      posted := s.posted ++ [call] }

/-- `Client::DoSend` up to its write. -/
def doSend (s : ClientSend) (i : ℕ) : Option ClientSend :=
  (s.posted[i]?).map fun call =>
    { s with
      posted := s.posted.eraseIdx i
      writes := s.writes ++ [{ session := call.1, pair := call.2, buffer := s.data call.2.data }] }

/-- A write in progress transfers some bytes: the next ones of its buffer, or any when the
buffer may be gone. -/
def transfer (s : ClientSend) (i : ℕ) (bytes : Buff) : Option ClientSend :=
  match s.writes[i]? with
  | none => none
  | some w =>
      if w.done = none ∧ w.bytes.length + bytes.length ≤ w.buffer.length ∧
          (w.moved = true ∨ bytes <+: w.buffer.drop w.bytes.length) then
        some { s with writes := s.writes.set i { w with bytes := w.bytes ++ bytes } }
      else none

/-- The completion handler up to its loop; an error is only logged. Without an error the
whole buffer has been transferred. -/
def complete (s : ClientSend) (i : ℕ) (ok : Bool) : Option ClientSend :=
  match s.writes[i]? with
  | none => none
  | some w =>
      if s.draining = false ∧ w.done = none ∧ (ok = true → w.bytes.length = w.buffer.length) then
        some { s with
          writes := s.writes.set i { w with done := some ok }
          sendQueue := s.sendQueue.tail
          draining := s.sendQueue.tail ≠ [] }
      else none

/-- One round of the loop of the completion handler: the session of the head is found and
`DoSend` is posted, or the head is popped. -/
def drain (s : ClientSend) : Option ClientSend :=
  if s.draining then
    match s.sendQueue with
    | [] => none
    | pair :: rest =>
        match s.clientMgr.find pair.sessionId with
        | some next => some { s with posted := s.posted ++ [(next, pair)], draining := false }
        | none =>
            some { s with
              sendQueue := rest
              skipped := s.skipped ++ [pair]
              draining := rest ≠ [] }
  else none

/-- What can happen to the queue. An index picks one of the calls, posts or writes. -/
inductive Event
  | send (sessionId : Uuid) (data : DataPtr)
  | enqueue (i : ℕ)
  | post (i : ℕ)
  | doSend (i : ℕ)
  | transfer (i : ℕ) (bytes : Buff)
  | complete (i : ℕ) (ok : Bool)
  | drain
  | addSession (sessionId : Uuid) (session : ℕ)
  | setReady (session : ℕ) (ready : Bool)
  | removeSession (sessionId : Uuid)

def step (s : ClientSend) : Event → Option ClientSend
  | .send sessionId data => s.send sessionId data
  | .enqueue i => s.enqueue i
  | .post i => s.post i
  | .doSend i => s.doSend i
  | .transfer i bytes => s.transfer i bytes
  | .complete i ok => s.complete i ok
  | .drain => s.drain
  | .addSession sessionId session =>
      some { s with clientMgr := (s.clientMgr.addSession sessionId session).1 }
  | .setReady session ready =>
      some { s with isReady := Function.update s.isReady session ready }
  | .removeSession sessionId =>
      some { s with clientMgr := s.clientMgr.removeSession sessionId }

/-- The send queue of a client without sessions, whose caller will create some objects. -/
def system : System ClientSend Event where
  init s := ∃ created, s = { created := created, data := created }
  step := step

/-- The accepted calls are written in the order of the queue and at most once, each as what
its object held when it was created, followed by the delimiter. -/
structure Exact (s : ClientSend) : Prop where
  order : (s.writes.map Write.pair).Sublist s.enqueued
  nodup : (s.writes.map Write.pair).Nodup
  bytes : ∀ w ∈ s.writes, w.bytes <+: w.pair.frame s.created
  done : ∀ w ∈ s.writes, w.done = some true → w.bytes = w.pair.frame s.created

/-- No call is accepted with an object of an earlier one. -/
def Fresh (s : ClientSend) : Event → Prop
  | .enqueue i => ∀ call ∈ s.found[i]?, ∀ x ∈ s.enqueued, x.data ≠ call.2.2
  | _ => True

instance (s : ClientSend) (e : Event) : Decidable (Fresh s e) :=
  match e with
  | .enqueue i =>
      inferInstanceAs (Decidable (∀ call ∈ s.found[i]?, ∀ x ∈ s.enqueued, x.data ≠ call.2.2))
  | .send .. | .post _ | .doSend _ | .transfer .. | .complete .. | .drain | .addSession ..
  | .setReady .. | .removeSession _ => isTrue trivial

section Refinement

/-- The message that stands for an object: its number in unary. -/
def token (data : DataPtr) : OpenNat.Message := .data (List.replicate data 0)

def seen (x : QueuePair) : OpenNat.SendEntry := ⟨x.number, x.sessionId, token x.data⟩

def inFlight (s : ClientSend) : List Write := s.writes.filter fun w => w.done = none

def view (s : ClientSend) : OpenNat.ClientSend where
  sessionMgr := s.clientMgr
  sendQueue := s.sendQueue.map seen
  found := s.found.map fun call => (call.1, call.2.1, token call.2.2)
  starting := s.starting.map fun call => (call.1, seen call.2)
  posted := s.posted.map fun call => (call.1, seen call.2)
  inFlight := s.inFlight.map fun w => (w.session, seen w.pair)
  draining := s.draining
  enqueued := s.enqueued.map seen
  written := s.writes.map fun w => seen w.pair
  skipped := s.skipped.map seen

variable {s t : ClientSend}

@[simp] theorem append_pair (data : DataPtr) (w : Write) : (w.append data).pair = w.pair := by
  rw [Write.append]
  split <;> rfl

@[simp] theorem append_session (data : DataPtr) (w : Write) :
    (w.append data).session = w.session := by
  rw [Write.append]
  split <;> rfl

@[simp] theorem append_done (data : DataPtr) (w : Write) : (w.append data).done = w.done := by
  rw [Write.append]
  split <;> rfl

theorem view_send {sessionId : Uuid} {data : DataPtr} (h : s.send sessionId data = some t) :
    s.view.send sessionId (token data) = some t.view := by
  rw [send] at h
  rw [OpenNat.ClientSend.send]
  cases hfind : s.clientMgr.find sessionId with
  | none =>
      rw [hfind] at h
      cases h
  | some session =>
      rw [hfind] at h
      obtain ⟨-, h⟩ := Option.ite_none_right_eq_some.1 h
      cases h
      simp [view, hfind, inFlight]

theorem view_enqueue {i : ℕ} (h : s.enqueue i = some t) : s.view.enqueue i = some t.view := by
  obtain ⟨hdrain, h⟩ := Option.ite_none_left_eq_some.1 h
  obtain ⟨call, hcall, rfl⟩ := Option.map_eq_some_iff.1 h
  have hidle : ¬ s.view.draining = true := hdrain
  rw [OpenNat.ClientSend.enqueue, if_neg hidle]
  by_cases hqueue : s.sendQueue = []
  · simp [view, hcall, inFlight, List.filter_map, Function.comp_def, List.eraseIdx_map, seen,
      hqueue]
  · simp [view, hcall, inFlight, List.filter_map, Function.comp_def, List.eraseIdx_map, seen,
      hqueue]

theorem view_post {i : ℕ} (h : s.post i = some t) : s.view.post i = some t.view := by
  obtain ⟨call, hcall, rfl⟩ := Option.map_eq_some_iff.1 h
  simp [OpenNat.ClientSend.post, view, hcall, inFlight, List.eraseIdx_map]

theorem view_doSend {i : ℕ} (h : s.doSend i = some t) : s.view.doSend i = some t.view := by
  obtain ⟨call, hcall, rfl⟩ := Option.map_eq_some_iff.1 h
  simp [OpenNat.ClientSend.doSend, view, hcall, inFlight, List.eraseIdx_map]

theorem transfer_eq_some {i : ℕ} {bytes : Buff} (h : s.transfer i bytes = some t) :
    ∃ w, s.writes[i]? = some w ∧ w.done = none ∧
      (w.moved = true ∨ bytes <+: w.buffer.drop w.bytes.length) ∧
      t = { s with writes := s.writes.set i { w with bytes := w.bytes ++ bytes } } := by
  rw [transfer] at h
  split at h
  · cases h
  · rename_i w hw
    obtain ⟨⟨hdone, -, hbytes⟩, h⟩ := Option.ite_none_right_eq_some.1 h
    exact ⟨w, hw, hdone, hbytes, (Option.some.inj h).symm⟩

theorem complete_eq_some {i : ℕ} {ok : Bool} (h : s.complete i ok = some t) :
    ∃ w, s.writes[i]? = some w ∧ s.draining = false ∧ w.done = none ∧
      (ok = true → w.bytes.length = w.buffer.length) ∧
      t = { s with
        writes := s.writes.set i { w with done := some ok }
        sendQueue := s.sendQueue.tail
        draining := s.sendQueue.tail ≠ [] } := by
  rw [complete] at h
  split at h
  · cases h
  · rename_i w hw
    obtain ⟨⟨hdrain, hdone, hlength⟩, h⟩ := Option.ite_none_right_eq_some.1 h
    exact ⟨w, hw, hdrain, hdone, hlength, (Option.some.inj h).symm⟩

/-- A transfer is not seen. -/
theorem view_transfer {i : ℕ} {bytes : Buff} (h : s.transfer i bytes = some t) :
    t.view = s.view := by
  obtain ⟨w, hw, hdone, -, rfl⟩ := transfer_eq_some h
  obtain ⟨before, after, hsplit, -, hset, -⟩ := exists_append_of_getElem? hw
  rw [hset]
  simp [view, inFlight, hsplit, hdone]

theorem view_complete {i : ℕ} {ok : Bool} (h : s.complete i ok = some t) :
    ∃ j, s.view.complete j = some t.view := by
  obtain ⟨w, hw, hdrain, hdone, -, rfl⟩ := complete_eq_some h
  obtain ⟨before, after, hsplit, -, hset, -⟩ := exists_append_of_getElem? hw
  have hidle : ¬ s.view.draining = true := by
    rw [view, hdrain]
    exact Bool.false_ne_true
  refine ⟨(before.filter fun w => w.done = none).length, ?_⟩
  rw [OpenNat.ClientSend.complete, if_neg hidle]
  rw [hset]
  simp [view, inFlight, hsplit, hdone, List.eraseIdx_append_of_length_le, ← List.map_tail]

theorem view_drain (h : s.drain = some t) : s.view.drain = some t.view := by
  obtain ⟨hdrain, h⟩ := Option.ite_none_right_eq_some.1 h
  have hbusy : s.view.draining = true := hdrain
  rw [OpenNat.ClientSend.drain, if_pos hbusy]
  cases hqueue : s.sendQueue with
  | nil =>
      rw [hqueue] at h
      cases h
  | cons pair rest =>
      rw [hqueue] at h
      cases hfind : s.clientMgr.find pair.sessionId with
      | none =>
          simp only [hfind] at h
          cases h
          simp [view, hqueue, hfind, inFlight, seen]
      | some next =>
          simp only [hfind] at h
          cases h
          simp [view, hqueue, hfind, inFlight, seen]

/-- Each step is one of the queue of opennat, or is not seen there. -/
theorem view_step {e : Event} (h : s.step e = some t) :
    t.view = s.view ∨ ∃ a, OpenNat.ClientSend.system.step s.view a = some t.view := by
  cases e with
  | send sessionId data => exact .inr ⟨.find sessionId (token data), view_send h⟩
  | enqueue i => exact .inr ⟨.enqueue i, view_enqueue h⟩
  | post i => exact .inr ⟨.post i, view_post h⟩
  | doSend i => exact .inr ⟨.doSend i, view_doSend h⟩
  | transfer i bytes => exact .inl (view_transfer h)
  | complete i ok =>
      obtain ⟨j, hj⟩ := view_complete h
      exact .inr ⟨.complete j ok, hj⟩
  | drain => exact .inr ⟨.drain, view_drain h⟩
  | addSession sessionId session =>
      cases h
      exact .inr ⟨.addSession sessionId session, rfl⟩
  | setReady session ready =>
      cases h
      exact .inl rfl
  | removeSession sessionId =>
      cases h
      exact .inr ⟨.removeSession sessionId, rfl⟩

theorem view_reachable {P : ClientSend → Event → Prop} (h : system.ReachableWhile P s) :
    OpenNat.ClientSend.system.Reachable s.view := by
  apply h.stuttering view
  · rintro s ⟨created, rfl⟩
    rfl
  · intro s e t _ hs
    rcases view_step hs with hsame | ⟨a, ha⟩
    · exact .inl hsame
    · exact .inr ⟨a, ha, trivial⟩

theorem seen_injective : Function.Injective seen := by
  rintro ⟨number, sessionId, data⟩ ⟨number', sessionId', data'⟩ h
  obtain ⟨hnumber, hid, hmsg⟩ := OpenNat.SendEntry.mk.inj h
  have hdata : data = data' := List.replicate_left_injective 0 (OpenNat.Message.data.inj hmsg)
  rw [QueuePair.mk.injEq]
  exact ⟨hnumber, hid, hdata⟩

/-- In every run the calls are written in the order of the queue and at most once. -/
theorem writes_sublist (h : system.Reachable s) :
    (s.writes.map Write.pair).Sublist s.enqueued ∧ (s.writes.map Write.pair).Nodup := by
  obtain ⟨-, hhistory⟩ := OpenNat.ClientSend.inv_of_reachable (view_reachable h)
  have hwritten : s.view.written = (s.writes.map Write.pair).map seen := by
    rw [List.map_map]
    rfl
  have hseen : ((s.writes.map Write.pair).map seen).Sublist (s.enqueued.map seen) := by
    rw [← hwritten]
    exact (List.sublist_append_left _ _).trans hhistory.order
  have hsub : (s.writes.map Write.pair).Sublist s.enqueued := by
    obtain ⟨l, hl, hmap⟩ := List.sublist_map_iff.1 hseen
    rw [List.map_injective_iff.2 seen_injective hmap]
    exact hl
  exact ⟨hsub, (List.Nodup.of_map seen hhistory.nodup).sublist hsub⟩

theorem posted_enqueued (h : system.Reachable s) : ∀ call ∈ s.posted, call.2 ∈ s.enqueued := by
  intro call hcall
  have hmem := (OpenNat.ClientSend.inv_of_reachable (view_reachable h)).posted_enqueued
    (call.1, seen call.2) (List.mem_map_of_mem hcall)
  obtain ⟨x, hx, heq⟩ := List.mem_map.1 hmem
  rw [← seen_injective heq]
  exact hx

end Refinement

section Contents

variable {created data : DataPtr → Buff} {enqueued : List QueuePair} {writes : List Write}

/-- A write of an enqueued pair from a buffer that holds what it is to. -/
structure Sound (created : DataPtr → Buff) (enqueued : List QueuePair) (w : Write) : Prop where
  enqueued : w.pair ∈ enqueued
  moved : w.moved = false
  buffer : w.buffer = w.pair.frame created
  bytes : w.bytes <+: w.buffer
  done : w.done = some true → w.bytes.length = w.buffer.length

/-- What the objects and the buffers hold when no object is sent twice. -/
structure Contents (created data : DataPtr → Buff) (enqueued : List QueuePair)
    (writes : List Write) : Prop where
  queued : ∀ x ∈ enqueued, data x.data = x.frame created
  unsent : ∀ object, (∀ x ∈ enqueued, x.data ≠ object) → data object = created object
  writes : ∀ w ∈ writes, Sound created enqueued w

theorem contents_nil (created : DataPtr → Buff) : Contents created created [] [] where
  queued _ hx := absurd hx List.not_mem_nil
  unsent _ _ := rfl
  writes _ hw := absurd hw List.not_mem_nil

/-- An object is sent for the first time; the buffers are those of other ones. -/
theorem Contents.enqueue (h : Contents created data enqueued writes) {pair : QueuePair}
    (hfresh : ∀ x ∈ enqueued, x.data ≠ pair.data) :
    Contents created (Function.update data pair.data (data pair.data ++ delimiter))
      (enqueued ++ [pair]) (writes.map (Write.append pair.data)) := by
  refine ⟨fun x hx => ?_, fun object hobject => ?_, fun w hw => ?_⟩
  · rcases List.mem_append.1 hx with hx | hx
    · rw [Function.update_of_ne (hfresh x hx)]
      exact h.queued x hx
    · obtain rfl := List.mem_singleton.1 hx
      rw [Function.update_self, h.unsent _ hfresh]
      rfl
  · have hne : object ≠ pair.data := fun heq =>
      hobject pair (List.mem_append_right _ (List.mem_singleton_self pair)) heq.symm
    rw [Function.update_of_ne hne]
    apply h.unsent
    intro x hx
    exact hobject x (List.mem_append_left _ hx)
  · obtain ⟨w, hmem, rfl⟩ := List.mem_map.1 hw
    obtain ⟨henqueued, hmoved, hbuffer, hbytes, hdone⟩ := h.writes w hmem
    have hsame : w.append pair.data = w := if_neg (hfresh w.pair henqueued)
    rw [hsame]
    exact ⟨List.mem_append_left _ henqueued, hmoved, hbuffer, hbytes, hdone⟩

theorem Contents.start (h : Contents created data enqueued writes) {call : ℕ × QueuePair}
    (hcall : call.2 ∈ enqueued) :
    Contents created data enqueued
      (writes ++ [{ session := call.1, pair := call.2, buffer := data call.2.data }]) := by
  refine ⟨h.queued, h.unsent, fun w hw => ?_⟩
  rcases List.mem_append.1 hw with hw | hw
  · exact h.writes w hw
  · obtain rfl := List.mem_singleton.1 hw
    exact ⟨hcall, rfl, h.queued _ hcall, List.nil_prefix, nofun⟩

theorem Contents.set (h : Contents created data enqueued writes) (i : ℕ) {w : Write}
    (hw : Sound created enqueued w) : Contents created data enqueued (writes.set i w) := by
  refine ⟨h.queued, h.unsent, fun x hx => ?_⟩
  rcases List.mem_or_eq_of_mem_set hx with hx | rfl
  · exact h.writes x hx
  · exact hw

theorem Sound.transfer {w : Write} (h : Sound created enqueued w) (hdone : w.done = none)
    {bytes : Buff} (hbytes : w.moved = true ∨ bytes <+: w.buffer.drop w.bytes.length) :
    Sound created enqueued { w with bytes := w.bytes ++ bytes } := by
  refine ⟨h.enqueued, h.moved, h.buffer, ?_, fun hok => ?_⟩
  · rcases hbytes with hmoved | hbytes
    · rw [h.moved] at hmoved
      cases hmoved
    · obtain ⟨rest, hrest⟩ := h.bytes
      rw [← hrest, List.drop_left] at hbytes
      rw [← hrest]
      exact (List.prefix_append_right_inj _).2 hbytes
  · rw [hdone] at hok
    cases hok

theorem Contents.step {s t : ClientSend} {e : Event}
    (hs : Contents s.created s.data s.enqueued s.writes)
    (hposted : ∀ call ∈ s.posted, call.2 ∈ s.enqueued) (hfresh : Fresh s e)
    (h : s.step e = some t) : Contents t.created t.data t.enqueued t.writes := by
  cases e with
  | send sessionId data =>
      change s.send sessionId data = some t at h
      rw [send] at h
      split at h
      · cases h
      · obtain ⟨-, h⟩ := Option.ite_none_right_eq_some.1 h
        cases h
        exact hs
  | enqueue i =>
      obtain ⟨-, h⟩ := Option.ite_none_left_eq_some.1 h
      obtain ⟨call, hcall, rfl⟩ := Option.map_eq_some_iff.1 h
      exact hs.enqueue (hfresh call hcall)
  | post i =>
      obtain ⟨call, -, rfl⟩ := Option.map_eq_some_iff.1 h
      exact hs
  | doSend i =>
      obtain ⟨call, hcall, rfl⟩ := Option.map_eq_some_iff.1 h
      exact hs.start (hposted call (List.mem_of_getElem? hcall))
  | transfer i bytes =>
      obtain ⟨w, hw, hdone, hbytes, rfl⟩ := transfer_eq_some h
      exact hs.set i ((hs.writes w (List.mem_of_getElem? hw)).transfer hdone hbytes)
  | complete i ok =>
      obtain ⟨w, hw, -, -, hlength, rfl⟩ := complete_eq_some h
      obtain ⟨henqueued, hmoved, hbuffer, hbytes, -⟩ := hs.writes w (List.mem_of_getElem? hw)
      exact hs.set i ⟨henqueued, hmoved, hbuffer, hbytes, fun hok => hlength (Option.some.inj hok)⟩
  | drain =>
      obtain ⟨-, h⟩ := Option.ite_none_right_eq_some.1 h
      split at h
      · cases h
      · split at h
        · cases h
          exact hs
        · cases h
          exact hs
  | addSession | setReady | removeSession =>
      cases h
      exact hs

theorem contents_of_fresh {s : ClientSend} (h : system.ReachableWhile Fresh s) :
    Contents s.created s.data s.enqueued s.writes := by
  induction h with
  | init h =>
      obtain ⟨created, rfl⟩ := h
      exact contents_nil created
  | step hs hfresh h ih => exact ih.step (posted_enqueued hs.reachable) hfresh h

end Contents

/-- While no object is sent twice the accepted calls are written as they are to be. -/
theorem exact_of_fresh : ∀ s, system.ReachableWhile Fresh s → s.Exact := by
  intro s h
  obtain ⟨hsub, hnodup⟩ := writes_sublist h.reachable
  have hcontents := contents_of_fresh h
  refine ⟨hsub, hnodup, fun w hw => ?_, fun w hw hok => ?_⟩
  · obtain ⟨-, -, hbuffer, hbytes, -⟩ := hcontents.writes w hw
    rw [← hbuffer]
    exact hbytes
  · obtain ⟨-, -, hbuffer, hbytes, hdone⟩ := hcontents.writes w hw
    rw [← hbuffer]
    exact hbytes.eq_of_length (hdone hok)

/-- Two calls of `Send` with two objects; the second one is queued before the first one
is written, and its write does not end. -/
def sentRun : List Event :=
  [.addSession 1 0, .addSession 2 1, .setReady 0 true, .setReady 1 true, .send 1 7, .send 2 8,
    .enqueue 0, .post 0, .enqueue 0, .doSend 0, .transfer 0 [0x61], .transfer 0 delimiter,
    .complete 0 true, .drain, .doSend 0, .transfer 1 [0x62]]

/-- Object 7 holds `a` and the others `b`. -/
def twoTexts (data : DataPtr) : Buff := if data = 7 then [0x61] else [0x62]

/-- The first object is written as `a` and the delimiter, and `b` of the second one. -/
theorem sentRun_exact :
    ∃ s, system.exec { created := twoTexts, data := twoTexts } sentRun = some s ∧
      s.writes.map Write.bytes = [[0x61] ++ delimiter, [0x62]] ∧ s.Exact := by
  have hrun : system.ReachableWhile Fresh _ := System.ReachableWhile.execWhile (.init ⟨_, rfl⟩)
    (show system.execWhile Fresh { created := twoTexts, data := twoTexts } sentRun = some _ from
      rfl)
  exact ⟨_, rfl, rfl, exact_of_fresh _ hrun⟩

/-- The same object is sent twice before the first write starts. -/
def resentRun : List Event :=
  [.addSession 1 0, .setReady 0 true, .send 1 7, .send 1 7, .enqueue 0, .enqueue 0, .post 0,
    .doSend 0, .transfer 0 ([0x61] ++ delimiter ++ delimiter), .complete 0 true]

/-- The first of two calls with one object is written with two delimiters. -/
theorem resentRun_not_exact : ¬ ∀ s, system.Reachable s → s.Exact := by
  intro h
  have hrun : system.Reachable _ := System.Reachable.exec (.init ⟨fun _ => [0x61], rfl⟩)
    (show system.exec { created := fun _ => [0x61], data := fun _ => [0x61] }
      resentRun = some _ from rfl)
  exact absurd ((h _ hrun).done _ List.mem_cons_self rfl) (by decide)

end ClientSend

end OpenProxy
