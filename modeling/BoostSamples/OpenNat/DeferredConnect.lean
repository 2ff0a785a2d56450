import Mathlib.Data.List.Perm.Basic
import BoostSamples.OpenNat.Command
import BoostSamples.Transition.System

/-!
# Connects that wait for the UPNP client

`AsyncConnect` looks at the flag of the UPNP client and either connects or puts
the request into `connectQueue_`, which the handler of the started signal
empties. The flag is read before the mutex is taken, and the handler is attached
after the start job has been posted. So a request may enter the queue when the
handler has emptied it, and the signal may be given before there is a handler.
These are the only ways to lose a request.

The threads are: one that calls `StartUPNP`, the thread of the UPNP client, and
any number that call `AsyncConnect`.
-/

namespace OpenNat

open Transition

inductive StartPc
  | posting
  | attaching
  | returned
  deriving DecidableEq, Repr

/-- Where the UPNP start job is. While it empties the queue it holds the mutex;
the list is what it has still to connect. -/
inductive JobPc
  | notPosted
  | discovering
  | emitting
  | locking
  | connecting (rest : List (Uuid × (Address × BitVec 16)))
  | ended
  deriving DecidableEq, Repr

inductive AsyncPc
  | testing
  | deferring
  | connecting
  | returned
  deriving DecidableEq, Repr

structure AsyncCall where
  id : Uuid
  ep : Address × BitVec 16
  pc : AsyncPc := .testing
  deriving DecidableEq, Repr

def AsyncCall.request (c : AsyncCall) : Uuid × (Address × BitVec 16) := (c.id, c.ep)

structure Deferral where
  start : StartPc := .posting
  job : JobPc := .notPosted
  calls : List AsyncCall := []
  /-- `UPNPClient::isStarted_`. -/
  isStarted : Bool := false
  /-- The handler is attached to `onStarted_`. -/
  attached : Bool := false
  connectQueue : List (Uuid × (Address × BitVec 16)) := []
  /-- The calls of `Connect`. -/
  connected : List (Uuid × (Address × BitVec 16)) := []

namespace Deferral

/-- The start job holds `connectMutex_`. -/
def locked (s : Deferral) : Bool :=
  match s.job with
  | .connecting _ => true
  | _ => false

inductive Event
  /-- `UPNPClient::Start` posts the job. -/
  | post
  /-- `DoOnStarted` attaches the handler. -/
  | attach
  /-- The job has discovered the devices and sets the flag. -/
  | setStarted
  /-- The job gives the signal. -/
  | emit
  /-- The handler takes the mutex; it will go through the queue in this order. -/
  | lock (order : List (Uuid × (Address × BitVec 16)))
  /-- The handler connects the next request. -/
  | connectNext
  /-- The handler clears the queue and releases the mutex. -/
  | clear
  /-- `AsyncConnect` is called. -/
  | call (id : Uuid) (ep : Address × BitVec 16)
  /-- A call reads the flag. -/
  | test (i : Nat)
  /-- A call puts its request into the queue. -/
  | emplace (i : Nat)
  /-- A call connects. -/
  | connect (i : Nat)

/-- `emplace` of the queue: the entry of an id that is there stays. -/
def emplaceRequest (s : Deferral) (x : Uuid × (Address × BitVec 16)) : Deferral :=
  if s.connectQueue.any fun y => y.1 = x.1 then s
  else { s with connectQueue := s.connectQueue ++ [x] }

def setCall (s : Deferral) (i : Nat) (c : AsyncCall) (pc : AsyncPc) : Deferral :=
  { s with calls := s.calls.set i { c with pc := pc } }

/-- One step; the calls of `AsyncConnect` have distinct ids. -/
def step (s : Deferral) : Event → Option Deferral
  | .post =>
      if s.start = .posting then some { s with start := .attaching, job := .discovering } else none
  | .attach =>
      if s.start = .attaching then some { s with start := .returned, attached := true } else none
  | .setStarted =>
      if s.job = .discovering then some { s with isStarted := true, job := .emitting } else none
  | .emit =>
      if s.job = .emitting then
        some { s with job := if s.attached then .locking else .ended }
      else none
  | .lock order =>
      if s.job = .locking ∧ order.Perm s.connectQueue then
        some { s with job := .connecting order }
      else none
  | .connectNext =>
      match s.job with
      | .connecting (x :: rest) =>
          some { s with job := .connecting rest, connected := s.connected ++ [x] }
      | _ => none
  | .clear =>
      match s.job with
      | .connecting [] => some { s with job := .ended, connectQueue := [] }
      | _ => none
  | .call id ep =>
      if s.calls.any fun c => c.id = id then none
      else some { s with calls := s.calls ++ [{ id := id, ep := ep }] }
  | .test i =>
      (s.calls[i]?).bind fun c =>
        if c.pc = .testing then
          some (s.setCall i c (if s.isStarted then .connecting else .deferring))
        else none
  | .emplace i =>
      (s.calls[i]?).bind fun c =>
        if c.pc = .deferring ∧ s.locked = false then
          some ((s.emplaceRequest c.request).setCall i c .returned)
        else none
  | .connect i =>
      (s.calls[i]?).bind fun c =>
        if c.pc = .connecting then
          some { s.setCall i c .returned with connected := s.connected ++ [c.request] }
        else none

/-- The client before `StartUPNP` is called. -/
def system : System Deferral Event where
  init s := s = {}
  step := step

/-- The UPNP client has started, and every thread has come to its end. -/
structure Finished (s : Deferral) : Prop where
  started : s.isStarted = true
  start : s.start = .returned
  job : s.job = .ended
  calls : ∀ c ∈ s.calls, c.pc = .returned

/-- `Connect` has been called exactly once for every request, and the queue is
empty. -/
structure Served (s : Deferral) : Prop where
  once : ∀ c ∈ s.calls, s.connected.count c.request = 1
  empty : s.connectQueue = []

/-- The handler has not begun to go through the queue, and the signal has not
been given without it. -/
def DrainAhead (s : Deferral) : Prop :=
  match s.job with
  | .connecting _ | .ended => False
  | _ => True

/-- A request enters the queue only while the handler has still to empty it, and
the signal is not given without a handler while there is a request in the
queue. -/
def Careful (s : Deferral) : Event → Prop
  | .emit => s.attached = true ∨ s.connectQueue = []
  | .emplace _ => s.DrainAhead
  | _ => True

instance (s : Deferral) : Decidable s.DrainAhead := by
  unfold DrainAhead
  split <;> infer_instance

instance (s : Deferral) (e : Event) : Decidable (s.Careful e) := by
  unfold Careful
  split <;> infer_instance

/-- The requests in the queue that the handler has still to connect. -/
def remaining (s : Deferral) : List (Uuid × (Address × BitVec 16)) :=
  match s.job with
  | .connecting rest => rest
  | _ => s.connectQueue

/-- The requests whose calls have not returned. -/
def waiting (s : Deferral) : List (Uuid × (Address × BitVec 16)) :=
  (s.calls.filter fun c => c.pc ≠ .returned).map AsyncCall.request

/-- Each request is connected, in the queue or in the hands of its call. -/
structure Balanced (s : Deferral) : Prop where
  nodup : (s.calls.map AsyncCall.id).Nodup
  balance : ∀ x, s.connected.count x + s.remaining.count x + s.waiting.count x =
    (s.calls.map AsyncCall.request).count x
  queued : ∀ y ∈ s.connectQueue, ∃ c ∈ s.calls, c.pc = .returned ∧ c.id = y.1
  posting : s.start = .posting → s.job = .notPosted

/-- The handler has gone through the queue, or will not, and the queue is not
empty. -/
def Lost (s : Deferral) : Prop := s.job = .ended ∧ s.connectQueue ≠ []

section Steps

variable {s t : Deferral}

theorem waiting_setCall {i : Nat} {c : AsyncCall} (hc : s.calls[i]? = some c)
    (hpc : c.pc ≠ .returned) (pc : AsyncPc) (x : Uuid × (Address × BitVec 16)) :
    (s.setCall i c pc).waiting.count x + (if pc = .returned ∧ x = c.request then 1 else 0) =
      s.waiting.count x := by
  obtain ⟨before, after, hcalls, rfl, hset, -⟩ := exists_append_of_getElem? hc
  unfold waiting setCall
  rw [hset, hcalls]
  by_cases hreturned : pc = .returned
  · subst hreturned
    by_cases hx : x = c.request
    · simp [List.filter_append, hpc, hx]
      omega
    · have hx' : c.request ≠ x := fun h => hx h.symm
      simp [List.filter_append, hpc, hx, hx']
  · have hrequest : AsyncCall.request { c with pc := pc } = c.request := rfl
    simp [List.filter_append, hpc, hreturned, hrequest]

theorem map_setCall {α : Type*} {i : Nat} {c : AsyncCall} (hc : s.calls[i]? = some c)
    (pc : AsyncPc) {f : AsyncCall → α} (hf : f { c with pc := pc } = f c) :
    (s.setCall i c pc).calls.map f = s.calls.map f := by
  obtain ⟨before, after, hcalls, rfl, hset, -⟩ := exists_append_of_getElem? hc
  unfold setCall
  rw [hset, hcalls]
  simp [hf]

theorem mem_setCall {i : Nat} {c d : AsyncCall} (hc : s.calls[i]? = some c) (pc : AsyncPc)
    (hd : d ∈ s.calls) (hpc : d.pc ≠ c.pc) : d ∈ (s.setCall i c pc).calls := by
  obtain ⟨before, after, hcalls, rfl, hset, -⟩ := exists_append_of_getElem? hc
  unfold setCall
  rw [hset]
  rw [hcalls] at hd
  rcases List.mem_append.1 hd with hd | hd
  · exact List.mem_append_left _ hd
  · rcases List.mem_cons.1 hd with rfl | hd
    · exact absurd rfl hpc
    · exact List.mem_append_right _ (List.mem_cons_of_mem _ hd)

namespace Balanced

/-- A call that has not returned finds no entry of its id in the queue. -/
theorem emplaceRequest_eq (hs : s.Balanced) {i : Nat} {c : AsyncCall}
    (hc : s.calls[i]? = some c) (hpc : c.pc ≠ .returned) :
    s.emplaceRequest c.request =
      { s with connectQueue := s.connectQueue ++ [c.request] } := by
  refine if_neg fun hany => ?_
  obtain ⟨y, hy, hid⟩ := List.any_eq_true.1 hany
  obtain ⟨d, hd, hreturned, hdid⟩ := hs.queued y hy
  have hyc : y.1 = c.request.1 := by simpa using hid
  have heq : d = c := List.inj_on_of_nodup_map hs.nodup hd (List.mem_of_getElem? hc)
    (hdid.trans hyc)
  exact hpc (heq ▸ hreturned)

theorem call (hs : s.Balanced) {id : Uuid} {ep : Address × BitVec 16}
    (hnew : ∀ c ∈ s.calls, c.id ≠ id) :
    Balanced { s with calls := s.calls ++ [{ id := id, ep := ep }] } where
  nodup := by
    rw [List.map_append]
    refine List.Nodup.append hs.nodup (List.nodup_singleton _) ?_
    simpa using hnew
  balance x := by
    have hbalance := hs.balance x
    have hwaiting : ({ s with calls := s.calls ++ [{ id := id, ep := ep }] } : Deferral).waiting =
        s.waiting ++ [(id, ep)] := by simp [waiting, AsyncCall.request]
    show s.connected.count x + s.remaining.count x + _ = _
    rw [hwaiting, List.map_append, List.count_append, List.count_append, ← hbalance]
    exact (Nat.add_assoc _ _ _).symm
  queued y hy := by
    obtain ⟨c, hc, hfacts⟩ := hs.queued y hy
    exact ⟨c, List.mem_append_left _ hc, hfacts⟩
  posting := hs.posting

/-- A call goes on; what its request has lost in its hands it has gained
elsewhere. -/
theorem setCall (hs : s.Balanced) {i : Nat} {c : AsyncCall} (hc : s.calls[i]? = some c)
    (hpc : c.pc ≠ .returned) (pc : AsyncPc)
    (connected queue : List (Uuid × (Address × BitVec 16)))
    (hbalance : ∀ x, connected.count x +
        ({ s with connectQueue := queue } : Deferral).remaining.count x =
      s.connected.count x + s.remaining.count x + if pc = .returned ∧ x = c.request then 1 else 0)
    (hqueue : ∀ y ∈ queue, y ∈ s.connectQueue ∨ pc = .returned ∧ y = c.request) :
    Balanced { s.setCall i c pc with connected := connected, connectQueue := queue } where
  nodup := by
    show ((s.setCall i c pc).calls.map AsyncCall.id).Nodup
    rw [map_setCall hc pc rfl]
    exact hs.nodup
  balance x := by
    have hwaiting := waiting_setCall hc hpc pc x
    have hbefore := hs.balance x
    have hafter := hbalance x
    have hrequest : (s.setCall i c pc).calls.map AsyncCall.request =
        s.calls.map AsyncCall.request := map_setCall hc pc rfl
    show connected.count x + ({ s with connectQueue := queue } : Deferral).remaining.count x +
      (s.setCall i c pc).waiting.count x = ((s.setCall i c pc).calls.map AsyncCall.request).count x
    rw [hrequest]
    omega
  queued y hy := by
    rcases hqueue y hy with hold | ⟨hreturned, rfl⟩
    · obtain ⟨d, hd, hdpc, hid⟩ := hs.queued y hold
      exact ⟨d, mem_setCall hc pc hd (fun heq => hpc (heq ▸ hdpc)), hdpc, hid⟩
    · obtain ⟨before, after, hcalls, rfl, hset, -⟩ := exists_append_of_getElem? hc
      refine ⟨{ c with pc := pc }, ?_, hreturned, rfl⟩
      show _ ∈ s.calls.set before.length _
      rw [hset]
      simp
  posting := hs.posting

theorem init : Balanced {} where
  nodup := List.nodup_nil
  balance _ := rfl
  queued _ hy := nomatch hy
  posting _ := rfl

theorem job (hs : s.Balanced) {e : Event} (h : s.step e = some t)
    (he : e = .post ∨ e = .attach ∨ e = .setStarted ∨ e = .emit ∨ (∃ order, e = .lock order) ∨
      e = .connectNext ∨ e = .clear) : t.Balanced := by
  have hcounts {u : Deferral} (hcalls : u.calls = s.calls)
      (hqueue : ∀ y ∈ u.connectQueue, y ∈ s.connectQueue)
      (hbalance : ∀ x, u.connected.count x + u.remaining.count x =
        s.connected.count x + s.remaining.count x)
      (hposting : u.start = .posting → u.job = .notPosted) : u.Balanced := by
    refine ⟨hcalls ▸ hs.nodup, fun x => ?_, fun y hy => ?_, hposting⟩
    · unfold waiting
      rw [hcalls, hbalance x]
      exact hs.balance x
    · rw [hcalls]
      exact hs.queued y (hqueue y hy)
  rcases he with rfl | rfl | rfl | rfl | ⟨order, rfl⟩ | rfl | rfl
  · obtain ⟨hpc, h⟩ := Option.ite_none_right_eq_some.1 h
    cases h
    refine hcounts rfl (fun y hy => hy) (fun x => ?_) nofun
    simp [remaining, hs.posting hpc]
  · obtain ⟨hpc, h⟩ := Option.ite_none_right_eq_some.1 h
    cases h
    exact hcounts rfl (fun y hy => hy) (fun x => rfl) nofun
  · obtain ⟨hpc, h⟩ := Option.ite_none_right_eq_some.1 h
    cases h
    refine hcounts rfl (fun y hy => hy) (fun x => ?_)
      fun hstart => nomatch hpc.symm.trans (hs.posting hstart)
    simp [remaining, hpc]
  · obtain ⟨hpc, h⟩ := Option.ite_none_right_eq_some.1 h
    cases h
    refine hcounts rfl (fun y hy => hy) (fun x => ?_)
      fun hstart => nomatch hpc.symm.trans (hs.posting hstart)
    cases hattached : s.attached <;> simp [remaining, hpc]
  · obtain ⟨⟨hpc, hperm⟩, h⟩ := Option.ite_none_right_eq_some.1 h
    cases h
    refine hcounts rfl (fun y hy => hy) (fun x => ?_)
      fun hstart => nomatch hpc.symm.trans (hs.posting hstart)
    simp [remaining, hpc, hperm.count_eq x]
  · simp only [step] at h
    split at h
    · next x rest hpc =>
        cases h
        refine hcounts rfl (fun y hy => hy) (fun y => ?_)
          fun hstart => nomatch hpc.symm.trans (hs.posting hstart)
        simp only [remaining, hpc, List.count_append, List.count_cons, List.count_nil]
        omega
    · exact nomatch h
  · simp only [step] at h
    split at h
    · next hpc =>
        cases h
        refine hcounts rfl (fun y hy => nomatch hy) (fun y => ?_)
          fun hstart => nomatch hpc.symm.trans (hs.posting hstart)
        simp [remaining, hpc]
    · exact nomatch h

theorem step (hs : s.Balanced) {e : Event} (h : s.step e = some t) : t.Balanced := by
  cases e with
  | post => exact hs.job h (by simp)
  | attach => exact hs.job h (by simp)
  | setStarted => exact hs.job h (by simp)
  | emit => exact hs.job h (by simp)
  | lock order => exact hs.job h (by simp)
  | connectNext => exact hs.job h (by simp)
  | clear => exact hs.job h (by simp)
  | call id ep =>
      obtain ⟨hnew, h⟩ := Option.ite_none_left_eq_some.1 h
      cases h
      refine hs.call fun c hc hid => hnew ?_
      exact List.any_eq_true.2 ⟨c, hc, by simpa using hid⟩
  | test i =>
      obtain ⟨c, hc, h⟩ := Option.bind_eq_some_iff.1 h
      obtain ⟨hpc, h⟩ := Option.ite_none_right_eq_some.1 h
      cases h
      have hnot : c.pc ≠ .returned := by simp [hpc]
      refine hs.setCall hc hnot _ s.connected s.connectQueue (fun x => ?_) fun y hy => .inl hy
      show s.connected.count x + s.remaining.count x = _
      have hgoes : (if s.isStarted then AsyncPc.connecting else .deferring) ≠ .returned := by
        split <;> simp
      simp [hgoes]
  | emplace i =>
      obtain ⟨c, hc, h⟩ := Option.bind_eq_some_iff.1 h
      obtain ⟨⟨hpc, hlocked⟩, h⟩ := Option.ite_none_right_eq_some.1 h
      cases h
      have hnot : c.pc ≠ .returned := by simp [hpc]
      rw [hs.emplaceRequest_eq hc hnot]
      refine hs.setCall hc hnot .returned s.connected (s.connectQueue ++ [c.request])
        (fun x => ?_) fun y hy => ?_
      · unfold locked at hlocked
        unfold remaining
        split at hlocked
        · exact nomatch hlocked
        · next hjob =>
            by_cases hx : x = c.request
            · simp [hx, Nat.add_assoc]
            · have hx' : c.request ≠ x := fun h => hx h.symm
              simp [hx, hx']
      · rcases List.mem_append.1 hy with hy | hy
        · exact .inl hy
        · exact .inr ⟨rfl, List.mem_singleton.1 hy⟩
  | connect i =>
      obtain ⟨c, hc, h⟩ := Option.bind_eq_some_iff.1 h
      obtain ⟨hpc, h⟩ := Option.ite_none_right_eq_some.1 h
      cases h
      have hnot : c.pc ≠ .returned := by simp [hpc]
      refine hs.setCall hc hnot .returned (s.connected ++ [c.request]) s.connectQueue
        (fun x => ?_) fun y hy => .inl hy
      show (s.connected ++ [c.request]).count x + s.remaining.count x = _
      by_cases hx : x = c.request
      · simp only [hx, List.count_append, List.count_singleton_self, and_self, if_true]
        omega
      · have hx' : c.request ≠ x := fun h => hx h.symm
        simp [hx, hx']

end Balanced

theorem job_ended_step (hs : s.Balanced) {e : Event} (hended : s.job = .ended)
    (h : s.step e = some t) : t.job = .ended ∧ ∀ y ∈ s.connectQueue, y ∈ t.connectQueue := by
  cases e with
  | post =>
      obtain ⟨hpc, -⟩ := Option.ite_none_right_eq_some.1 h
      exact nomatch hended.symm.trans (hs.posting hpc)
  | attach =>
      obtain ⟨-, h⟩ := Option.ite_none_right_eq_some.1 h
      cases h
      exact ⟨hended, fun y hy => hy⟩
  | setStarted =>
      obtain ⟨hpc, -⟩ := Option.ite_none_right_eq_some.1 h
      exact nomatch hended.symm.trans hpc
  | emit =>
      obtain ⟨hpc, -⟩ := Option.ite_none_right_eq_some.1 h
      exact nomatch hended.symm.trans hpc
  | lock order =>
      obtain ⟨⟨hpc, -⟩, -⟩ := Option.ite_none_right_eq_some.1 h
      exact nomatch hended.symm.trans hpc
  | connectNext => simp [step, hended] at h
  | clear => simp [step, hended] at h
  | call id ep =>
      obtain ⟨-, h⟩ := Option.ite_none_left_eq_some.1 h
      cases h
      exact ⟨hended, fun y hy => hy⟩
  | test i =>
      obtain ⟨c, hc, h⟩ := Option.bind_eq_some_iff.1 h
      obtain ⟨-, h⟩ := Option.ite_none_right_eq_some.1 h
      cases h
      exact ⟨hended, fun y hy => hy⟩
  | emplace i =>
      obtain ⟨c, hc, h⟩ := Option.bind_eq_some_iff.1 h
      obtain ⟨⟨hpc, -⟩, h⟩ := Option.ite_none_right_eq_some.1 h
      cases h
      rw [hs.emplaceRequest_eq hc (by simp [hpc])]
      exact ⟨hended, fun y hy => List.mem_append_left _ hy⟩
  | connect i =>
      obtain ⟨c, hc, h⟩ := Option.bind_eq_some_iff.1 h
      obtain ⟨-, h⟩ := Option.ite_none_right_eq_some.1 h
      cases h
      exact ⟨hended, fun y hy => hy⟩

theorem Lost.step (hs : s.Balanced) (hlost : s.Lost) {e : Event} (h : s.step e = some t) :
    t.Lost := by
  obtain ⟨hended, hkeep⟩ := job_ended_step hs hlost.1 h
  obtain ⟨y, hy⟩ := List.exists_mem_of_ne_nil _ hlost.2
  exact ⟨hended, List.ne_nil_of_mem (hkeep y hy)⟩

/-- A step against the condition loses a request. -/
theorem lost_of_not_careful (hs : s.Balanced) {e : Event} (hc : ¬ s.Careful e)
    (h : s.step e = some t) : t.Lost := by
  cases e with
  | emit =>
      obtain ⟨hattached, hqueue⟩ := not_or.1 hc
      obtain ⟨-, h⟩ := Option.ite_none_right_eq_some.1 h
      cases h
      exact ⟨if_neg hattached, hqueue⟩
  | emplace i =>
      obtain ⟨c, hcall, h⟩ := Option.bind_eq_some_iff.1 h
      obtain ⟨⟨hpc, hlocked⟩, h⟩ := Option.ite_none_right_eq_some.1 h
      cases h
      rw [hs.emplaceRequest_eq hcall (by simp [hpc])]
      refine ⟨?_, List.append_ne_nil_of_right_ne_nil _ (List.cons_ne_nil _ _)⟩
      show s.job = .ended
      have hbehind : ¬ s.DrainAhead := hc
      unfold locked at hlocked
      unfold DrainAhead at hbehind
      split at hbehind
      · next rest hjob => simp [hjob] at hlocked
      · next hjob => exact hjob
      · exact absurd trivial hbehind
  | post => exact absurd trivial hc
  | attach => exact absurd trivial hc
  | setStarted => exact absurd trivial hc
  | lock => exact absurd trivial hc
  | connectNext => exact absurd trivial hc
  | clear => exact absurd trivial hc
  | call => exact absurd trivial hc
  | test => exact absurd trivial hc
  | connect => exact absurd trivial hc

/-- A careful step leaves nothing in the queue behind the job. -/
theorem empty_of_careful (hs : s.Balanced) (hempty : s.job = .ended → s.connectQueue = [])
    {e : Event} (hc : s.Careful e) (h : s.step e = some t) :
    t.job = .ended → t.connectQueue = [] := by
  intro hended
  cases e with
  | post =>
      obtain ⟨-, h⟩ := Option.ite_none_right_eq_some.1 h
      cases h
      exact nomatch hended
  | attach =>
      obtain ⟨-, h⟩ := Option.ite_none_right_eq_some.1 h
      cases h
      exact hempty hended
  | setStarted =>
      obtain ⟨-, h⟩ := Option.ite_none_right_eq_some.1 h
      cases h
      exact nomatch hended
  | emit =>
      obtain ⟨-, h⟩ := Option.ite_none_right_eq_some.1 h
      cases h
      rcases hc with hattached | hqueue
      · simp [hattached] at hended
      · exact hqueue
  | lock order =>
      obtain ⟨-, h⟩ := Option.ite_none_right_eq_some.1 h
      cases h
      exact nomatch hended
  | connectNext =>
      simp only [step] at h
      split at h
      · cases h
        exact nomatch hended
      · exact nomatch h
  | clear =>
      simp only [step] at h
      split at h
      · cases h
        rfl
      · exact nomatch h
  | call id ep =>
      obtain ⟨-, h⟩ := Option.ite_none_left_eq_some.1 h
      cases h
      exact hempty hended
  | test i =>
      obtain ⟨c, -, h⟩ := Option.bind_eq_some_iff.1 h
      obtain ⟨-, h⟩ := Option.ite_none_right_eq_some.1 h
      cases h
      exact hempty hended
  | emplace i =>
      obtain ⟨c, hcall, h⟩ := Option.bind_eq_some_iff.1 h
      obtain ⟨⟨hpc, -⟩, h⟩ := Option.ite_none_right_eq_some.1 h
      cases h
      rw [hs.emplaceRequest_eq hcall (by simp [hpc])] at hended
      have hjob : s.job = .ended := hended
      have hahead : s.DrainAhead := hc
      simp [DrainAhead, hjob] at hahead
  | connect i =>
      obtain ⟨c, -, h⟩ := Option.bind_eq_some_iff.1 h
      obtain ⟨-, h⟩ := Option.ite_none_right_eq_some.1 h
      cases h
      exact hempty hended

/-- When every thread is done, a request is connected or still in the queue. -/
theorem Balanced.served_iff (hs : s.Balanced) (hf : s.Finished) :
    s.Served ↔ s.connectQueue = [] := by
  refine ⟨fun h => h.empty, fun hqueue => ⟨fun c hc => ?_, hqueue⟩⟩
  have hremaining : s.remaining = [] := by simp [remaining, hf.job, hqueue]
  have hwaiting : s.waiting = [] := by
    rw [waiting, List.map_eq_nil_iff, List.filter_eq_nil_iff]
    intro d hd
    simp [hf.calls d hd]
  have hbalance := hs.balance c.request
  rw [hremaining, hwaiting] at hbalance
  have hnodup : (s.calls.map AsyncCall.request).Nodup := by
    have hids := hs.nodup
    rw [show s.calls.map AsyncCall.id = (s.calls.map AsyncCall.request).map Prod.fst by
      simp [AsyncCall.request]] at hids
    exact hids.of_map _
  rw [List.count_eq_one_of_mem hnodup (List.mem_map_of_mem hc)] at hbalance
  simpa using hbalance

end Steps

theorem balanced_of_exec {es : List Event} {s : Deferral} (h : system.exec {} es = some s) :
    s.Balanced :=
  System.exec_invariant (fun _ _ _ hs ht => hs.step ht) .init h

theorem empty_of_reachable {s : Deferral} (h : system.ReachableWhile Careful s) :
    s.job = .ended → s.connectQueue = [] := by
  have hboth : s.Balanced ∧ (s.job = .ended → s.connectQueue = []) := by
    refine h.invariant (I := fun s => s.Balanced ∧ (s.job = .ended → s.connectQueue = []))
      ?_ fun s e t hs hc ht => ⟨hs.1.step ht, empty_of_careful hs.1 hs.2 hc ht⟩
    rintro s rfl
    exact ⟨.init, nofun⟩
  exact hboth.2

/-- When every thread has come to its end, every request has been connected
exactly once if and only if each step of the run was careful. -/
theorem served_iff_careful {es : List Event} {s : Deferral} (h : system.exec {} es = some s)
    (hf : s.Finished) : s.Served ↔ system.execWhile Careful {} es = some s := by
  rw [(balanced_of_exec h).served_iff hf]
  constructor
  · intro hqueue
    rcases System.execWhile_or_first (P := Careful) h with
      hall | ⟨before, e, rest, u, v, -, hu, hnot, hv, hrest⟩
    · exact hall
    · have hbalanced : u.Balanced := by
        have hreach := System.ReachableWhile.execWhile (S := system) (.init rfl) hu
        exact hreach.invariant (fun s hs => hs ▸ .init) fun _ _ _ hs _ ht => hs.step ht
      have hlost : s.Balanced ∧ s.Lost := System.exec_invariant (I := fun s => s.Balanced ∧ s.Lost)
        (fun _ _ _ hs ht => ⟨hs.1.step ht, hs.2.step hs.1 ht⟩)
        ⟨hbalanced.step hv, lost_of_not_careful hbalanced hnot hv⟩ hrest
      exact absurd hqueue hlost.2.2
  · intro hcareful
    exact empty_of_reachable (System.ReachableWhile.execWhile (.init rfl) hcareful) hf.job

/-- One request waits in the queue and one finds the UPNP client started. -/
def deferredRun : List Event :=
  [.call 1 (.v4 0, 80), .test 0, .post, .attach, .emplace 0, .setStarted, .call 2 (.v4 0, 81),
    .test 1, .connect 1, .emit, .lock [(1, (.v4 0, 80))], .connectNext, .clear]

structure View where
  isStarted : Bool
  start : StartPc
  job : JobPc
  calls : List AsyncPc
  connectQueue : List (Uuid × (Address × BitVec 16))
  connected : List (Uuid × (Address × BitVec 16))
  deriving DecidableEq

def view (s : Deferral) : View :=
  ⟨s.isStarted, s.start, s.job, s.calls.map AsyncCall.pc, s.connectQueue, s.connected⟩

theorem finished_of_view {s : Deferral} {n : Nat}
    {queue connected : List (Uuid × (Address × BitVec 16))}
    (h : s.view = ⟨true, .returned, .ended, List.replicate n .returned, queue, connected⟩) :
    s.Finished := by
  simp only [view, View.mk.injEq] at h
  refine ⟨h.1, h.2.1, h.2.2.1, fun c hc => ?_⟩
  have hmem : c.pc ∈ s.calls.map AsyncCall.pc := List.mem_map_of_mem hc
  rw [h.2.2.2.1] at hmem
  exact List.eq_of_mem_replicate hmem

theorem deferredRun_served : ∃ s, system.exec {} deferredRun = some s ∧ s.Finished ∧
    s.Served ∧ s.connected = [(2, (.v4 0, 81)), (1, (.v4 0, 80))] := by
  have hrun : (system.execWhile Careful {} deferredRun).map view =
      some ⟨true, .returned, .ended, List.replicate 2 .returned, [],
        [(2, (.v4 0, 81)), (1, (.v4 0, 80))]⟩ := by decide +kernel
  obtain ⟨s, hs, hview⟩ := Option.map_eq_some_iff.1 hrun
  have hexec := System.exec_of_execWhile hs
  have hfinished := finished_of_view hview
  exact ⟨s, hexec, hfinished, (served_iff_careful hexec hfinished).2 hs,
    congrArg View.connected hview⟩

/-- A request is put into the queue after the handler has gone through it. -/
def lateRun : List Event :=
  [.call 1 (.v4 0, 80), .test 0, .post, .attach, .setStarted, .emit, .lock [], .clear,
    .emplace 0]

/-- The signal is given before the handler is attached. -/
def unheardRun : List Event :=
  [.call 1 (.v4 0, 80), .test 0, .emplace 0, .post, .setStarted, .emit, .attach]

/-- In both runs every thread comes to its end and the request is lost. -/
theorem lateRun_not_served :
    (∃ s, system.exec {} lateRun = some s ∧ s.Finished ∧ s.connected = [] ∧ ¬ s.Served) ∧
      ∃ s, system.exec {} unheardRun = some s ∧ s.Finished ∧ s.connected = [] ∧
        ¬ s.Served := by
  have hlate : (system.exec {} lateRun).map view =
      some ⟨true, .returned, .ended, List.replicate 1 .returned, [(1, (.v4 0, 80))], []⟩ := by
    decide +kernel
  have hunheard : (system.exec {} unheardRun).map view =
      some ⟨true, .returned, .ended, List.replicate 1 .returned, [(1, (.v4 0, 80))], []⟩ := by
    decide +kernel
  have hlost {s : Deferral}
      (h : s.view = ⟨true, .returned, .ended, List.replicate 1 .returned,
        [(1, (.v4 0, 80))], []⟩) : s.Finished ∧ s.connected = [] ∧ ¬ s.Served := by
    refine ⟨finished_of_view h, congrArg View.connected h, fun hserved => ?_⟩
    have hqueue : s.connectQueue = [(1, (.v4 0, 80))] := congrArg View.connectQueue h
    exact nomatch hqueue.symm.trans hserved.empty
  refine ⟨?_, ?_⟩
  · obtain ⟨s, hs, hview⟩ := Option.map_eq_some_iff.1 hlate
    exact ⟨s, hs, hlost hview⟩
  · obtain ⟨s, hs, hview⟩ := Option.map_eq_some_iff.1 hunheard
    exact ⟨s, hs, hlost hview⟩

end Deferral

end OpenNat
