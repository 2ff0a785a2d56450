import BoostSamples.OpenNat.Server

/-!
# The send queue of the server

The completion handler of `DoSend` looks for the session of the head of
`serverQueue_` until it has one, popping the entries whose lookup throws. The
lookup of a proxy session may also succeed with a null pointer, when the pair
is there and the wanted half is empty. The head is then neither sent nor
popped, and the loop goes round for ever with the mutex of the queue held.
-/

namespace OpenNat

open Registry Transition

namespace Server

/-- The session of a queued message is gone: its lookup throws. -/
def Gone (s : Server) (entry : QueueEntry) : Prop :=
  s.lookup entry.type entry.sessionId = none

/-- The lookup of the first entry that is not gone finds a session. -/
def HeadPresent (s : Server) (queue : List QueueEntry) : Prop :=
  ∀ gone entry rest, queue = gone ++ entry :: rest → (∀ g ∈ gone, s.Gone g) →
    s.lookup entry.type entry.sessionId ≠ some none

/-- What the handler has to achieve: its loop ends, the entries it drops are
gone, and it leaves the queue empty or posts one `DoSend`, that of the head to
the session found for it. -/
structure Drained (s t : Server) : Prop where
  terminates : s.serverQueue = [] ∨ ∃ fuel r, s.drainLoop fuel s.serverQueue = some r
  result : ∃ gone, s.serverQueue = gone ++ t.serverQueue ∧ (∀ g ∈ gone, s.Gone g) ∧
    ((t.serverQueue = [] ∧ t.posted = s.posted) ∨
      ∃ entry rest c, t.serverQueue = entry :: rest ∧
        s.lookup entry.type entry.sessionId = some (some c) ∧
        t.posted = s.posted ++ [(c, entry.msg)])

/-- A queue is all gone, or it has a first entry whose lookup succeeds. -/
theorem gone_or_exists (s : Server) (queue : List QueueEntry) :
    (∀ g ∈ queue, s.Gone g) ∨
      ∃ gone entry rest half, queue = gone ++ entry :: rest ∧
        (∀ g ∈ gone, s.Gone g) ∧ s.lookup entry.type entry.sessionId = some half := by
  induction queue with
  | nil => exact .inl (by simp)
  | cons head rest ih =>
      cases hhead : s.lookup head.type head.sessionId with
      | some half => exact .inr ⟨[], head, rest, half, rfl, by simp, hhead⟩
      | none =>
          rcases ih with hall | ⟨gone, entry, rest', half, rfl, hgone, hhalf⟩
          · exact .inl (List.forall_mem_cons.2 ⟨hhead, hall⟩)
          · exact .inr ⟨head :: gone, entry, rest', half, rfl,
              List.forall_mem_cons.2 ⟨hhead, hgone⟩, hhalf⟩

theorem drainLoop_append {s : Server} {gone : List QueueEntry}
    (hgone : ∀ g ∈ gone, s.Gone g) (entry : QueueEntry) (rest : List QueueEntry)
    (fuel : Nat) :
    s.drainLoop (gone.length + fuel) (gone ++ entry :: rest) =
      s.drainLoop fuel (entry :: rest) := by
  induction gone with
  | nil => simp
  | cons g gone ih =>
      obtain ⟨hg, hgone⟩ := List.forall_mem_cons.1 hgone
      have hlength : (g :: gone).length + fuel = (gone.length + fuel) + 1 := by
        simp only [List.length_cons]
        omega
      have hrest : gone ++ entry :: rest ≠ [] := by simp
      rw [hlength, List.cons_append, drainLoop, show s.lookup g.type g.sessionId = none from hg]
      simp only [hrest, if_false]
      exact ih hgone

theorem drainLoop_gone {s : Server} {queue : List QueueEntry}
    (hgone : ∀ g ∈ queue, s.Gone g) (hqueue : queue ≠ []) :
    s.drainLoop (queue.length + 1) queue = some ([], none) := by
  obtain ⟨gone, last, rfl⟩ := List.eq_nil_or_concat queue |>.resolve_left hqueue
  have hlast : s.lookup last.type last.sessionId = none := hgone last (by simp)
  rw [List.concat_eq_append, List.length_append, Nat.add_assoc,
    drainLoop_append (fun g hg => hgone g (by simp [hg]))]
  simp [drainLoop, hlast]

theorem drainLoop_found {s : Server} {entry : QueueEntry} {c : ConnId}
    (hfound : s.lookup entry.type entry.sessionId = some (some c))
    (rest : List QueueEntry) (fuel : Nat) :
    s.drainLoop (fuel + 1) (entry :: rest) = some (entry :: rest, some c) := by
  simp [drainLoop, hfound]

/-- The loop never ends at an entry whose half of the pair is empty. -/
theorem drainLoop_null {s : Server} {entry : QueueEntry}
    (hnull : s.lookup entry.type entry.sessionId = some none)
    (rest : List QueueEntry) (fuel : Nat) :
    s.drainLoop fuel (entry :: rest) = none := by
  induction fuel with
  | zero => rfl
  | succ fuel ih => simp [drainLoop, hnull, ih]

theorem drainLoop_append_null {s : Server} {gone : List QueueEntry}
    (hgone : ∀ g ∈ gone, s.Gone g) {entry : QueueEntry}
    (hnull : s.lookup entry.type entry.sessionId = some none)
    (rest : List QueueEntry) (fuel : Nat) :
    s.drainLoop fuel (gone ++ entry :: rest) = none := by
  induction gone generalizing fuel with
  | nil => exact drainLoop_null hnull rest fuel
  | cons g gone ih =>
      obtain ⟨hg, hgone⟩ := List.forall_mem_cons.1 hgone
      cases fuel with
      | zero => rfl
      | succ fuel =>
          have hrest : gone ++ entry :: rest ≠ [] := by simp
          rw [List.cons_append, drainLoop, show s.lookup g.type g.sessionId = none from hg]
          simp only [hrest, if_false]
          exact ih hgone fuel

/-- With the wanted half of the first present entry there, the handler does
what it has to. -/
theorem drained_of_headPresent {s : Server} (h : s.HeadPresent s.serverQueue) :
    s.Drained s.drain := by
  by_cases hqueue : s.serverQueue = []
  · have hdrain : s.drain = s := by simp [drain, hqueue]
    exact ⟨.inl hqueue, [], by simp [hdrain], by simp, .inl (by simp [hdrain, hqueue])⟩
  rcases s.gone_or_exists s.serverQueue with
    hall | ⟨gone, entry, rest, _ | c, hsplit, hgone, hhalf⟩
  · have hloop := drainLoop_gone hall hqueue
    have hdrain : s.drain = { s with serverQueue := [], posted := s.posted ++ [] } := by
      simp [drain, hqueue, hloop]
    exact ⟨.inr ⟨_, _, hloop⟩, s.serverQueue, by simp [hdrain], hall,
      .inl (by simp [hdrain])⟩
  · exact absurd hhalf (h gone entry rest hsplit hgone)
  · have hloop : s.drainLoop (s.serverQueue.length + 1) s.serverQueue =
        some (entry :: rest, some c) := by
      have hlength : s.serverQueue.length + 1 = gone.length + (rest.length + 1 + 1) := by
        simp only [hsplit, List.length_append, List.length_cons]
        omega
      rw [hlength, hsplit, drainLoop_append hgone, drainLoop_found hhalf]
    have hdrain : s.drain =
        { s with serverQueue := entry :: rest, posted := s.posted ++ [(c, entry.msg)] } := by
      simp [drain, hqueue, hloop]
    exact ⟨.inr ⟨_, _, hloop⟩, gone, by simp [hdrain, hsplit], hgone,
      .inr ⟨entry, rest, c, by simp [hdrain], hhalf, by simp [hdrain]⟩⟩

/-- If its loop ends, the first present entry has its session. -/
theorem Drained.headPresent {s t : Server} (h : s.Drained t) :
    s.HeadPresent s.serverQueue := by
  intro gone entry rest hsplit hgone hnull
  rcases h.terminates with hnil | ⟨fuel, r, hloop⟩
  · simp [hnil] at hsplit
  · rw [hsplit, drainLoop_append_null hgone hnull] at hloop
    cases hloop

/-- The completion of a write drains the queue as it should exactly if the
first entry behind the popped one whose lookup does not throw finds a session. -/
theorem sendDone_drained_iff {s t : Server} {i : Nat} {ok : Bool}
    (h : system.step s (.sendDone i ok) = some t) :
    (s.pop i).Drained t ↔ (s.pop i).HeadPresent (s.pop i).serverQueue := by
  have ht : t = (s.pop i).drain := by
    simp only [system, step, handle, Option.ite_none_left_eq_some,
      Option.map_eq_some_iff] at h
    obtain ⟨-, -, -, ht⟩ := h
    exact ht.symm
  subst ht
  exact ⟨Drained.headPresent, drained_of_headPresent⟩

/-- The reply to a client that registers is being written. -/
def replyRun : List Event := connectRun 0 .stun 1 ++ [.doSend 0]

/-- If another client registers meanwhile, the completion of that write goes on
with its reply. -/
theorem replyRun_drained :
    ∃ s t, system.exec {} (replyRun ++ connectRun 1 .stun 2) = some s ∧
      system.step s (.sendDone 0 true) = some t ∧ (s.pop 0).Drained t := by
  refine ⟨_, _, rfl, rfl, (sendDone_drained_iff
    (show system.step _ (.sendDone 0 true) = some _ from rfl)).2 ?_⟩
  intro gone entry rest hsplit _
  rcases List.singleton_eq_append_iff.1 hsplit with ⟨-, hentry⟩ | ⟨-, hnil⟩
  · obtain ⟨rfl, -⟩ := List.cons.inj hentry
    intro hnull
    cases hnull
  · cases hnil

/-- While that reply is written, the up end of session 2 registers, drops, and
the down end registers after it. -/
def nullRun : List Event :=
  replyRun ++ connectRun 1 .proxyUp 2 ++ [.receiveProxyFail 1] ++ connectRun 2 .proxyDown 2

/-- The completion of the write then finds a pair without an up half. -/
theorem nullRun_not_drained :
    ∃ s t, system.Reachable s ∧ system.step s (.sendDone 0 true) = some t ∧
      ¬ (s.pop 0).Drained t := by
  have hrun : system.Reachable _ := System.Reachable.exec (.init rfl)
    (show system.exec {} nullRun = some _ from rfl)
  refine ⟨_, _, hrun, rfl, fun hdrained => ?_⟩
  exact hdrained.headPresent [] _ _ rfl (by simp) rfl

end Server

end OpenNat
