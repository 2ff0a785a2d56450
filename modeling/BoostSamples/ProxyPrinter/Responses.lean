import BoostSamples.ProxyPrinter.Client
import BoostSamples.ProxyPrinter.Relay

/-!
# What the printer proxy sends back to its client

The client's socket is written replies of the server and responses of one byte,
in any order and side by side. The replies are relayed in every run: no
completion of a response touches the reads from the server. The reads from the
client are a different matter. Each chunk that is handled leaves one operation
more under way, and every one of them ends in a read into the same buffer.
-/

namespace ProxyPrinter

open Buffer Transition

/-- A list with a single element that passes a test, which is replaced or
removed. -/
theorem filter_eq_singleton {α : Type*} {p : α → Bool} {l : List α} {i : Nat} {x v : α}
    (hx : l[i]? = some x) (hp : p x) (h : l.filter p = [v]) :
    x = v ∧ (∀ y, p y → (l.set i y).filter p = [y]) ∧ (l.eraseIdx i).filter p = [] := by
  obtain ⟨before, after, rfl, -, hset, herase⟩ := exists_append_of_getElem? hx
  rw [List.filter_append, List.filter_cons_of_pos hp] at h
  obtain ⟨hbefore, hcons⟩ | ⟨-, hcons⟩ := List.append_eq_singleton_iff.1 h
  · obtain ⟨rfl, hafter⟩ := List.cons.inj hcons
    refine ⟨rfl, fun y hy => ?_, ?_⟩
    · rw [hset, List.filter_append, List.filter_cons_of_pos hy, hbefore, hafter]
      rfl
    · rw [herase, List.filter_append, hbefore, hafter]
      rfl
  · exact absurd hcons (List.cons_ne_nil _ _)

/-- An element that does not pass the test may be replaced by another one, or
removed. -/
theorem filter_eq_filter {α : Type*} {p : α → Bool} {l : List α} {i : Nat} {x : α}
    (hx : l[i]? = some x) (hp : p x = false) :
    (∀ y, p y = false → (l.set i y).filter p = l.filter p) ∧
      (l.eraseIdx i).filter p = l.filter p := by
  obtain ⟨before, after, rfl, -, hset, herase⟩ := exists_append_of_getElem? hx
  refine ⟨fun y hy => ?_, ?_⟩
  · rw [hset]
    simp [hp, hy]
  · rw [herase]
    simp [hp]

namespace ProxyClient

def isReply (w : Write Side) : Bool := w.source = some .server

def relayed (s : ProxyClient) : Event → Option (List UInt8)
  | .transfer .client i bytes =>
      (s.first.writes[i]?).bind fun w => if isReply w then some bytes else none
  | _ => none

def relay (s : ProxyClient) (taken : List (List UInt8)) : Relay Side :=
  ⟨!s.connecting, s.second.incoming, s.first.writes.filter isReply, taken.flatten⟩

/-- The client is written replies, which are read again, and responses, after
which the client's data is read; so it is after writes to the server. -/
structure Directed (s : ProxyClient) : Prop where
  first : ∀ w ∈ s.first.writes,
    w.handler = if isReply w then .clientWrite else .serverWrite
  second : ∀ w ∈ s.second.writes, w.handler = .serverWrite

/-- The operations that end in a read from the client: reads, handlers of these,
writes to the server and responses. -/
def requests (s : ProxyClient) : Nat :=
  s.first.reads + s.first.arrived.length + s.second.writes.length +
    s.first.writes.countP fun w => !isReply w

/-- One operation is under way for each chunk that has been handled, and one
more once the client has been accepted. -/
def Accounted (s : ProxyClient) : Prop :=
  s.requests + s.first.arrived.length = s.first.received.length + (!s.accepting).toNat

section Steps

variable {s t : ProxyClient}

namespace Directed

theorem of_writes (h : s.Directed)
    (hfirst : ∀ w ∈ t.first.writes, (∃ v ∈ s.first.writes, w.handler = v.handler ∧
      isReply w = isReply v) ∨ w.handler = if isReply w then .clientWrite else .serverWrite)
    (hsecond : ∀ w ∈ t.second.writes,
      (∃ v ∈ s.second.writes, w.handler = v.handler) ∨ w.handler = .serverWrite) :
    t.Directed where
  first w hw := by
    rcases hfirst w hw with ⟨v, hv, hhandler, hreply⟩ | hw
    · rw [hhandler, hreply]
      exact h.first v hv
    · exact hw
  second w hw := by
    rcases hsecond w hw with ⟨v, hv, hhandler⟩ | hw
    · exact hhandler.trans (h.second v hv)
    · exact hw

theorem handleWrite (h : s.Directed) (handler : Handler) : (s.handleWrite handler).Directed := by
  cases handler with
  | serverWrite => exact ⟨h.first, h.second⟩
  | clientWrite => exact ⟨h.first, h.second⟩
  | acceptorQueue => exact h

theorem step (h : s.Directed) {e : Event} (hstep : s.step e = some t) : t.Directed := by
  cases e with
  | accept =>
      obtain ⟨-, rfl⟩ := step_accept hstep
      exact ⟨h.first, h.second⟩
  | connect =>
      obtain ⟨-, rfl⟩ := step_connect hstep
      exact ⟨h.first, h.second⟩
  | receive e bytes =>
      obtain ⟨-, rfl⟩ := step_receive hstep
      cases e with
      | client => exact ⟨h.first, h.second⟩
      | server => exact ⟨h.first, h.second⟩
  | read e =>
      cases e with
      | client =>
          obtain ⟨n, rest, -, rfl⟩ := step_read_client hstep
          refine h.of_writes (fun w hw => ?_) fun w hw => ?_
          · rcases List.mem_append.1 hw with hw | hw
            · exact .inl ⟨w, hw, rfl, rfl⟩
            · exact .inr (List.mem_singleton.1 hw ▸ rfl)
          · rcases List.mem_append.1 hw with hw | hw
            · exact .inl ⟨w, hw, rfl⟩
            · exact .inr (List.mem_singleton.1 hw ▸ rfl)
      | server =>
          obtain ⟨n, rest, -, rfl⟩ := step_read_server hstep
          refine h.of_writes (fun w hw => ?_) fun w hw => .inl ⟨w, hw, rfl⟩
          rcases List.mem_append.1 hw with hw | hw
          · exact .inl ⟨w, hw, rfl, rfl⟩
          · exact .inr (List.mem_singleton.1 hw ▸ rfl)
  | transfer e i bytes =>
      obtain ⟨v, hv, -, rfl⟩ := step_transfer hstep
      have hmem := List.mem_of_getElem? hv
      cases e with
      | client =>
          refine h.of_writes (fun w hw => ?_) fun w hw => .inl ⟨w, hw, rfl⟩
          rcases List.mem_or_eq_of_mem_set hw with hw | rfl
          · exact .inl ⟨w, hw, rfl, rfl⟩
          · exact .inl ⟨v, hmem, rfl, rfl⟩
      | server =>
          refine h.of_writes (fun w hw => .inl ⟨w, hw, rfl, rfl⟩) fun w hw => ?_
          rcases List.mem_or_eq_of_mem_set hw with hw | rfl
          · exact .inl ⟨w, hw, rfl⟩
          · exact .inl ⟨v, hmem, rfl⟩
  | written e i =>
      obtain ⟨v, -, -, rfl⟩ := step_written hstep
      refine Directed.handleWrite ?_ v.handler
      cases e with
      | client =>
          exact ⟨fun w hw => h.first w (List.mem_of_mem_eraseIdx hw), h.second⟩
      | server =>
          exact ⟨h.first, fun w hw => h.second w (List.mem_of_mem_eraseIdx hw)⟩

end Directed

variable {taken : List (List UInt8)}

theorem relay_transfer_client (h : (s.relay taken).Stage .server) {i : Nat} {bytes : List UInt8}
    (hstep : s.step (.transfer .client i bytes) = some t) :
    (t.relay (taken ++ (s.relayed (.transfer .client i bytes)).toList)).Stage .server := by
  obtain ⟨w, hw, hgives, rfl⟩ := step_transfer hstep
  have hw : s.first.writes[i]? = some w := hw
  have htake : isReply (w.take bytes) = isReply w := rfl
  rw [relayed, hw, Option.bind_some]
  by_cases hreply : isReply w = true
  · have hmem : w ∈ (s.relay taken).writes :=
      List.mem_filter.2 ⟨List.mem_of_getElem? hw, hreply⟩
    obtain ⟨-, hset, -⟩ := filter_eq_singleton hw hreply (h.of_mem hmem).2.2.2.1
    have hnext := h.take hmem hgives rfl
    rw [Relay.take, ← hset _ (htake.trans hreply)] at hnext
    rw [if_pos hreply, relay, List.flatten_append, Option.toList_some, List.flatten_singleton]
    exact hnext
  · have hreply := Bool.eq_false_iff.2 hreply
    have hset := (filter_eq_filter hw hreply).1 _ (htake.trans hreply)
    rw [if_neg (by simp [hreply]), relay]
    simp only [setSession, session, Option.toList_none, List.append_nil]
    rw [hset]
    exact h

/-- A reply has been written, and the next one is read; or a response has. -/
theorem relay_written_client (h : (s.relay taken).Stage .server) (hs : s.Directed) {i : Nat}
    (hstep : s.step (.written .client i) = some t) : (t.relay taken).Stage .server := by
  obtain ⟨w, hw, hdone, rfl⟩ := step_written hstep
  have hw : s.first.writes[i]? = some w := hw
  have hhandler := hs.first w (List.mem_of_getElem? hw)
  dsimp only
  by_cases hreply : isReply w = true
  · have hmem : w ∈ (s.relay taken).writes :=
      List.mem_filter.2 ⟨List.mem_of_getElem? hw, hreply⟩
    obtain ⟨-, -, herase⟩ := filter_eq_singleton hw hreply (h.of_mem hmem).2.2.2.1
    have hnext := h.finish hmem hdone
    rw [Relay.finish, ← herase] at hnext
    rw [hhandler, if_pos hreply]
    exact hnext
  · have hreply := Bool.eq_false_iff.2 hreply
    have herase := (filter_eq_filter hw hreply).2
    rw [hhandler, if_neg (by simp [hreply])]
    have hrelay : ProxyClient.relay (handleWrite (s.setSession { s.first with
        writes := s.first.writes.eraseIdx i } .client) .serverWrite) taken = s.relay taken := by
      rw [relay, relay, ← herase]
      rfl
    exact hrelay ▸ h

theorem relay_step (h : (s.relay taken).Stage .server) (hs : s.Directed) {e : Event}
    (hstep : s.step e = some t) :
    (t.relay (taken ++ (s.relayed e).toList)).Stage .server := by
  cases e with
  | accept =>
      obtain ⟨-, rfl⟩ := step_accept hstep
      show Relay.Stage (ProxyClient.relay _ (taken ++ [])) _
      rw [List.append_nil]
      exact h
  | connect =>
      obtain ⟨hconnecting, rfl⟩ := step_connect hstep
      show Relay.Stage (ProxyClient.relay _ (taken ++ [])) _
      rw [List.append_nil]
      exact h.start (by simp [relay, hconnecting])
  | receive e bytes =>
      obtain ⟨hreads, rfl⟩ := step_receive hstep
      show Relay.Stage (ProxyClient.relay _ (taken ++ [])) _
      rw [List.append_nil]
      cases e with
      | client => exact h
      | server => exact h.receive hreads bytes
  | read e =>
      show Relay.Stage (ProxyClient.relay _ (taken ++ [])) _
      rw [List.append_nil]
      cases e with
      | client =>
          obtain ⟨n, rest, -, rfl⟩ := step_read_client hstep
          have hwrites : (s.first.writes ++ [response]).filter isReply =
              s.first.writes.filter isReply := by
            rw [List.filter_append]
            exact List.append_nil _
          have hrelay : ProxyClient.relay (handleClientRead (s.setSession { s.first with
              arrived := rest } .client) n) taken = s.relay taken := by
            rw [relay, relay, ← hwrites]
            rfl
          exact hrelay ▸ h
      | server =>
          obtain ⟨n, rest, harrived, rfl⟩ := step_read_server hstep
          have hnext := h.handle harrived
          have hwrites : ∀ w, isReply w = true → (s.first.writes ++ [w]).filter isReply =
              s.first.writes.filter isReply ++ [w] := by
            intro w hw
            rw [List.filter_append, List.filter_cons_of_pos hw]
            rfl
          rw [Relay.handle, relay, ← hwrites _ rfl] at hnext
          exact hnext
  | transfer e i bytes =>
      cases e with
      | client => exact relay_transfer_client h hstep
      | server =>
          obtain ⟨w, -, -, rfl⟩ := step_transfer hstep
          show Relay.Stage (ProxyClient.relay _ (taken ++ [])) _
          rw [List.append_nil]
          exact h
  | written e i =>
      show Relay.Stage (ProxyClient.relay _ (taken ++ [])) _
      rw [List.append_nil]
      cases e with
      | client => exact relay_written_client h hs hstep
      | server =>
          obtain ⟨w, hw, -, rfl⟩ := step_written hstep
          rw [hs.second w (List.mem_of_getElem? hw)]
          exact h

theorem accounted_step (h : s.Accounted) (hs : s.Directed) {e : Event}
    (hstep : s.step e = some t) : t.Accounted := by
  unfold Accounted requests at h ⊢
  cases e with
  | accept =>
      obtain ⟨hacc, rfl⟩ := step_accept hstep
      rw [hacc, Bool.not_true, Bool.toNat_false] at h
      simp only [handleAccept, handleServerWrite, ProxySession.asyncRead, Bool.not_false,
        Bool.toNat_true]
      omega
  | connect =>
      obtain ⟨-, rfl⟩ := step_connect hstep
      exact h
  | receive e bytes =>
      obtain ⟨hreads, rfl⟩ := step_receive hstep
      cases e with
      | client =>
          have hreads : 0 < s.first.reads := hreads
          simp only [setSession, session, List.length_append, List.length_singleton]
          omega
      | server => exact h
  | read e =>
      cases e with
      | client =>
          obtain ⟨n, rest, harrived, rfl⟩ := step_read_client hstep
          rw [harrived, List.length_cons] at h
          have hresponse : (s.first.writes ++ [response]).countP (fun w => !isReply w) =
              s.first.writes.countP (fun w => !isReply w) + 1 := by
            rw [List.countP_append]
            rfl
          simp only [handleClientRead, setSession, ProxySession.asyncWrite, hresponse,
            List.length_append, List.length_singleton]
          omega
      | server =>
          obtain ⟨n, rest, -, rfl⟩ := step_read_server hstep
          have hreply : ∀ w, isReply w = true → (s.first.writes ++ [w]).countP
              (fun w => !isReply w) = s.first.writes.countP fun w => !isReply w := by
            intro w hw
            simp [List.countP_append, hw]
          simp only [handleServerRead, setSession, ProxySession.asyncWrite]
          rw [hreply _ rfl]
          exact h
  | transfer e i bytes =>
      obtain ⟨w, hw, -, rfl⟩ := step_transfer hstep
      cases e with
      | client =>
          obtain ⟨before, after, hwrites, -, hset, -⟩ := exists_append_of_getElem? hw
          have hcount : (s.first.writes.set i (w.take bytes)).countP (fun w => !isReply w) =
              s.first.writes.countP fun w => !isReply w := by
            have hwrites : s.first.writes = before ++ w :: after := hwrites
            have hset : s.first.writes.set i (w.take bytes) = before ++ w.take bytes :: after :=
              hset _
            rw [hset, hwrites, List.countP_append, List.countP_append]
            rfl
          simp only [setSession, session, hcount]
          exact h
      | server =>
          simp only [setSession, session, List.length_set]
          exact h
  | written e i =>
      obtain ⟨w, hw, -, rfl⟩ := step_written hstep
      obtain ⟨before, after, hwrites, -, -, herase⟩ := exists_append_of_getElem? hw
      cases e with
      | client =>
          have hwrites : s.first.writes = before ++ w :: after := hwrites
          have herase : s.first.writes.eraseIdx i = before ++ after := herase
          rw [hs.first w (List.mem_of_getElem? hw)]
          rw [hwrites, List.countP_append] at h
          by_cases hreply : isReply w = true
          · rw [if_pos hreply]
            simp only [handleWrite, handleClientWrite, setSession, session, herase,
              List.countP_append]
            rwa [List.countP_cons_of_neg (by simp [hreply])] at h
          · rw [if_neg hreply]
            simp only [handleWrite, handleServerWrite, setSession, session, herase,
              List.countP_append, ProxySession.asyncRead]
            rw [List.countP_cons_of_pos (by simp [hreply])] at h
            omega
      | server =>
          have hwrites : s.second.writes = before ++ w :: after := hwrites
          have herase : s.second.writes.eraseIdx i = before ++ after := herase
          rw [hs.second w (List.mem_of_getElem? hw)]
          rw [hwrites, List.length_append, List.length_cons] at h
          simp only [handleWrite, handleServerWrite, setSession, session, herase,
            List.length_append, ProxySession.asyncRead]
          omega

end Steps

theorem relay_of_reachable {s : ProxyClient × List (List UInt8)}
    (h : (system.recording relayed).Reachable s) : (s.1.relay s.2).Stage .server := by
  have hinv := System.Reachable.recorded
    (I := fun s taken => (s.relay taken).Stage .server ∧ s.Directed)
    (by
      rintro s rfl
      exact ⟨.closed rfl rfl rfl rfl rfl rfl, by simp, by simp⟩)
    (fun _ _ _ _ hs ht => ⟨relay_step hs.1 hs.2 ht, hs.2.step ht⟩) h
  exact hinv.1

/-- In every run the replies of the server are relayed, whatever the order in
which they and the responses are written. -/
theorem every_reply_relayed {s : ProxyClient × List (List UInt8)}
    (h : (system.recording relayed).Reachable s) : (s.1.relay s.2).Faithful :=
  (relay_of_reachable h).faithful

/-- In every run there is one operation more under way for each chunk of the
client that has been handled. -/
theorem one_more_for_each_chunk {s : ProxyClient} (h : system.Reachable s) : s.Accounted :=
  (h.invariant (I := fun s => s.Accounted ∧ s.Directed)
    (by
      rintro s rfl
      exact ⟨rfl, by simp, by simp⟩)
    fun _ _ _ hs _ ht => ⟨accounted_step hs.1 hs.2 ht, hs.2.step ht⟩).1

/-- Two replies and a response between them. -/
def mixedRun : List Event :=
  [.accept, .connect, .receive .server [5, 6], .read .server, .receive .client [1],
    .read .client, .transfer .client 0 [5], .transfer .client 1 [0], .transfer .client 0 [6],
    .written .client 0, .receive .server [7], .read .server, .transfer .client 1 [7]]

theorem mixedRun_relayed : ∃ s, (system.recording relayed).exec ({}, []) mixedRun = some s ∧
    s.1.first.sent = [5, 0, 6, 7] ∧ s.2 = [[5], [6], [7]] ∧ (s.1.relay s.2).Faithful := by
  have hrun : ((system.recording relayed).exec ({}, []) mixedRun).map
      (fun s => (s.1.first.sent, s.2)) = some ([5, 0, 6, 7], [[5], [6], [7]]) := by
    decide +kernel
  obtain ⟨s, hs, hview⟩ := Option.map_eq_some_iff.1 hrun
  simp only [Prod.mk.injEq] at hview
  have hinit : (system.recording relayed).Reachable ({}, []) := .init ⟨rfl, rfl⟩
  exact ⟨s, hs, hview.1, hview.2, every_reply_relayed (hinit.exec hs)⟩

theorem mixedRun_one_more : ∃ s, system.exec {} mixedRun = some s ∧ s.requests = 2 ∧
    s.Accounted := by
  have hrun : (system.exec {} mixedRun).map (fun s => s.requests) = some 2 := by decide +kernel
  obtain ⟨s, hs, hview⟩ := Option.map_eq_some_iff.1 hrun
  exact ⟨s, hs, hview, one_more_for_each_chunk (System.Reachable.exec (.init rfl) hs)⟩

end ProxyClient

end ProxyPrinter
