import BoostSamples.ProxyPrinter.Forwarding
import BoostSamples.ProxyPrinter.Replies
import BoostSamples.ProxyPrinter.Responses
import BoostSamples.Transition.Couple

/-!
# The two printer proxies together

The proxy in front of the client connects to the one in front of the server.
What the sockets between them deliver is what the other end has taken, in order;
apart from that each of them runs as it does alone. So what is known of the two
makes up what is known of the way from the client to the server and back.
-/

namespace ProxyPrinter

open Buffer Transition

def Delivers (sent : List UInt8) (received : List (List UInt8)) (bytes : List UInt8) : Prop :=
  bytes <+: sent.drop received.flatten.length

instance (sent : List UInt8) (received : List (List UInt8)) (bytes : List UInt8) :
    Decidable (Delivers sent received bytes) :=
  inferInstanceAs (Decidable (_ <+: _))

theorem delivered {sent : List UInt8} {received : List (List UInt8)} {arrival : Option (List UInt8)}
    (hreceived : received.flatten <+: sent)
    (h : ∀ bytes ∈ arrival, Delivers sent received bytes) :
    (received ++ arrival.toList).flatten <+: sent := by
  cases arrival with
  | none => simpa using hreceived
  | some bytes =>
      have hbytes := h bytes rfl
      obtain ⟨rest, rfl⟩ := hreceived
      rw [Delivers, List.drop_left] at hbytes
      rw [List.flatten_append, Option.toList_some, List.flatten_singleton]
      exact (List.prefix_append_right_inj _).2 hbytes

/-- What an event stores at the end of the proxy that faces the other one. -/
def ProxyClient.arrival : ProxyClient.Event → Option (List UInt8)
  | .receive .server bytes => some bytes
  | _ => none

def ProxyServer.arrival : ProxyServer.Event → Option (List UInt8)
  | .receive .client bytes => some bytes
  | _ => none

theorem ProxyClient.second_of_step {s t : ProxyClient} {e : ProxyClient.Event}
    (h : s.step e = some t) :
    s.second.sent <+: t.second.sent ∧
      t.second.received = s.second.received ++ (ProxyClient.arrival e).toList := by
  cases e with
  | accept =>
      obtain ⟨-, rfl⟩ := step_accept h
      exact ⟨List.prefix_refl _, (List.append_nil _).symm⟩
  | connect =>
      obtain ⟨-, rfl⟩ := step_connect h
      exact ⟨List.prefix_refl _, (List.append_nil _).symm⟩
  | receive e bytes =>
      obtain ⟨-, rfl⟩ := step_receive h
      cases e with
      | client => exact ⟨List.prefix_refl _, (List.append_nil _).symm⟩
      | server => exact ⟨List.prefix_refl _, rfl⟩
  | read e =>
      cases e with
      | client =>
          obtain ⟨n, rest, -, rfl⟩ := step_read_client h
          exact ⟨List.prefix_refl _, (List.append_nil _).symm⟩
      | server =>
          obtain ⟨n, rest, -, rfl⟩ := step_read_server h
          exact ⟨List.prefix_refl _, (List.append_nil _).symm⟩
  | transfer e i bytes =>
      obtain ⟨w, -, -, rfl⟩ := step_transfer h
      cases e with
      | client => exact ⟨List.prefix_refl _, (List.append_nil _).symm⟩
      | server => exact ⟨List.prefix_append _ _, (List.append_nil _).symm⟩
  | written e i =>
      obtain ⟨w, -, -, rfl⟩ := step_written h
      have hwrite (s : ProxyClient) : (s.handleWrite w.handler).second.sent = s.second.sent ∧
          (s.handleWrite w.handler).second.received = s.second.received := by
        cases w.handler with
        | serverWrite => exact ⟨rfl, rfl⟩
        | clientWrite => exact ⟨rfl, rfl⟩
        | acceptorQueue => exact ⟨rfl, rfl⟩
      rw [(hwrite _).1, (hwrite _).2]
      cases e with
      | client => exact ⟨List.prefix_refl _, (List.append_nil _).symm⟩
      | server => exact ⟨List.prefix_refl _, (List.append_nil _).symm⟩

namespace ProxyServer

def ends (s : ProxyServer) : List UInt8 × List (List UInt8) := (s.first.sent, s.first.received)

section Ends

variable {s t : ProxyServer}

theorem ends_handleAcceptorQueue (taken : Nat) : (s.handleAcceptorQueue taken).ends = s.ends := by
  unfold handleAcceptorQueue
  cases s.first.inputQueue with
  | nil => rfl
  | cons message rest => rfl

theorem ends_handleConnect (k taken : Nat) : (s.handleConnect k taken).ends = s.ends :=
  ends_handleAcceptorQueue taken

theorem ends_handleClientRead (n : Nat) : (s.handleClientRead n).ends = s.ends := by
  unfold handleClientRead
  dsimp only
  split
  · split
    · rfl
    · rfl
  · split
    · rfl
    · rfl

theorem ends_handleServerRead (n : Nat) : (s.handleServerRead n).ends = s.ends := by
  unfold handleServerRead
  dsimp only
  split
  · rfl
  · rfl

theorem ends_handleWrite (taken : Nat) (handler : Handler) :
    (s.handleWrite taken handler).ends = s.ends := by
  cases handler with
  | serverWrite => rfl
  | clientWrite => rfl
  | acceptorQueue => exact ends_handleAcceptorQueue taken

theorem ends_of_step {e : Event} (h : s.step e = some t) :
    s.ends.1 <+: t.ends.1 ∧ t.ends.2 = s.ends.2 ++ (arrival e).toList := by
  cases e with
  | accept =>
      obtain ⟨-, rfl⟩ := step_accept h
      exact ⟨List.prefix_refl _, (List.append_nil _).symm⟩
  | connect k taken =>
      obtain ⟨c, -, -, rfl⟩ := step_connect h
      rw [ends_handleConnect]
      exact ⟨List.prefix_refl _, (List.append_nil _).symm⟩
  | receive e bytes =>
      obtain ⟨p, hp, -, rfl⟩ := step_receive h
      cases e with
      | client =>
          cases hp
          exact ⟨List.prefix_refl _, rfl⟩
      | server k => exact ⟨List.prefix_refl _, (List.append_nil _).symm⟩
  | read e =>
      cases e with
      | client =>
          obtain ⟨n, rest, -, rfl⟩ := step_read_client h
          rw [ends_handleClientRead]
          exact ⟨List.prefix_refl _, (List.append_nil _).symm⟩
      | server k =>
          obtain ⟨c, n, rest, -, -, rfl⟩ := step_read_server h
          rw [ends_handleServerRead]
          exact ⟨List.prefix_refl _, (List.append_nil _).symm⟩
  | transfer e i bytes =>
      obtain ⟨p, w, hp, -, -, rfl⟩ := step_transfer h
      cases e with
      | client =>
          cases hp
          exact ⟨List.prefix_append _ _, (List.append_nil _).symm⟩
      | server k => exact ⟨List.prefix_refl _, (List.append_nil _).symm⟩
  | written e i taken =>
      obtain ⟨p, w, hp, -, -, rfl⟩ := step_written h
      rw [ends_handleWrite]
      cases e with
      | client =>
          cases hp
          exact ⟨List.prefix_refl _, (List.append_nil _).symm⟩
      | server k => exact ⟨List.prefix_refl _, (List.append_nil _).symm⟩

end Ends

end ProxyServer

namespace Tunnel

open ProxyClient ProxyServer

def admits (p : ProxyClient × ProxyServer) : ProxyClient.Event ⊕ ProxyServer.Event → Prop
  | .inl e => ∀ bytes ∈ ProxyClient.arrival e,
      Delivers p.2.first.sent p.1.second.received bytes
  | .inr e => ∀ bytes ∈ ProxyServer.arrival e,
      Delivers p.1.second.sent p.2.first.received bytes

instance (p : ProxyClient × ProxyServer) (e : ProxyClient.Event ⊕ ProxyServer.Event) :
    Decidable (admits p e) :=
  match e with
  | .inl e => inferInstanceAs (Decidable (∀ bytes ∈ ProxyClient.arrival e, _))
  | .inr e => inferInstanceAs (Decidable (∀ bytes ∈ ProxyServer.arrival e, _))

def system : System (ProxyClient × ProxyServer) (ProxyClient.Event ⊕ ProxyServer.Event) :=
  ProxyClient.system.couple ProxyServer.system admits

/-- What one proxy has read from the other is what that has been able to send. -/
structure Linked (p : ProxyClient × ProxyServer) : Prop where
  requests : p.2.first.received.flatten <+: p.1.second.sent
  replies : p.1.second.received.flatten <+: p.2.first.sent

section Linked

variable {p q : ProxyClient × ProxyServer}

theorem Linked.step (h : Linked p) {e : ProxyClient.Event ⊕ ProxyServer.Event}
    (hstep : system.step p e = some q) : Linked q := by
  cases e with
  | inl e =>
      obtain ⟨hadmits, hclient, hserver⟩ := System.couple_inl hstep
      obtain ⟨hsent, hreceived⟩ := ProxyClient.second_of_step hclient
      refine ⟨hserver ▸ h.requests.trans hsent, ?_⟩
      rw [hserver, hreceived]
      exact delivered h.replies hadmits
  | inr e =>
      obtain ⟨hadmits, hserver, hclient⟩ := System.couple_inr hstep
      obtain ⟨hsent, hreceived⟩ := ProxyServer.ends_of_step hserver
      refine ⟨?_, hclient ▸ h.replies.trans hsent⟩
      have hreceived : q.2.first.received = _ := hreceived
      rw [hclient, hreceived]
      exact delivered h.requests hadmits

theorem linked_of_reachable (h : system.Reachable p) : Linked p := by
  refine h.invariant ?_ fun _ _ _ hp _ hq => hp.step hq
  rintro ⟨s, t⟩ ⟨rfl, rfl⟩
  exact ⟨List.prefix_refl _, List.prefix_refl _⟩

end Linked

def Careful (p : ProxyClient × ProxyServer) : ProxyClient.Event ⊕ ProxyServer.Event → Prop
  | .inl e => p.1.Careful e
  | .inr e => p.2.Careful e

instance (p : ProxyClient × ProxyServer) (e : ProxyClient.Event ⊕ ProxyServer.Event) :
    Decidable (Careful p e) :=
  match e with
  | .inl e => inferInstanceAs (Decidable (p.1.Careful e))
  | .inr e => inferInstanceAs (Decidable (p.2.Careful e))

structure Delivered (p : ProxyClient × ProxyServer) : Prop where
  client : p.1.first.arrived = [] ∧ p.1.second.writes = []
  link : p.2.first.received.flatten.length = p.1.second.sent.length
  server : p.2.first.arrived = []
  connectors : ∀ c ∈ p.2.connectors, c.isConnecting = false ∧ c.writes = []

structure Forwards (p : ProxyClient × ProxyServer) : Prop where
  ordered : ∀ c ∈ p.2.connectors, c.sent <+: p.1.first.received.flatten
  complete : Delivered p →
    (p.2.connectors.map fun c => c.sent).flatten = p.1.first.received.flatten

structure Answered (p : ProxyClient × ProxyServer) (c : ServerSession) : Prop where
  connector : c.arrived = []
  server : p.2.first.writes = []
  link : p.1.second.received.flatten.length = p.2.first.sent.length
  client : p.1.second.arrived = [] ∧ p.1.first.writes.filter isReply = []

/-- In every careful run of both proxies the stream of the client arrives at
the server. -/
theorem requests_arrive {p : ProxyClient × ProxyServer} (h : system.ReachableWhile Careful p) :
    Forwards p := by
  have hclient : p.1.Disciplined :=
    (stage_of_reachable (h.couple_left fun _ _ hp => hp)).disciplined
  have hserver : p.2.Faithful :=
    (staged_of_reachable (h.couple_right fun _ _ hp => hp)).faithful
  have hlinked := linked_of_reachable h.reachable
  refine ⟨fun c hc => ?_, fun hnone => ?_⟩
  · exact ((hserver.ordered c hc).trans hlinked.requests).trans hclient.ordered
  · calc (p.2.connectors.map fun c => c.sent).flatten
        = p.2.first.received.flatten := hserver.complete hnone.connectors hnone.server
      _ = p.1.second.sent := hlinked.requests.eq_of_length hnone.link
      _ = p.1.first.received.flatten := hclient.complete hnone.client.2 hnone.client.1

/-- A request of two bytes, which the second proxy reads one by one. -/
def requestRun : List (ProxyClient.Event ⊕ ProxyServer.Event) :=
  [.inl .accept, .inl .connect, .inr .accept, .inl (.receive .client [1, 2]),
    .inl (.read .client), .inl (.transfer .server 0 [1, 2]), .inr (.receive .client [1]),
    .inr (.read .client), .inr (.connect 0 1), .inr (.written (.server 0) 0 0),
    .inr (.receive .client [2]), .inr (.read .client), .inr (.transfer (.server 0) 0 [2])]

theorem requestRun_arrives : ∃ p, system.execWhile Careful ({}, {}) requestRun = some p ∧
    p.2.connectors.map (fun c => c.sent) = [[1, 2]] ∧ Forwards p := by
  have hrun : (system.execWhile Careful ({}, {}) requestRun).map
      (fun p => p.2.connectors.map fun c => c.sent) = some [[1, 2]] := by decide +kernel
  obtain ⟨p, hp, hsent⟩ := Option.map_eq_some_iff.1 hrun
  have hinit : system.ReachableWhile Careful ({}, {}) := .init ⟨rfl, rfl⟩
  exact ⟨p, hp, hsent, requests_arrive (hinit.execWhile hp)⟩

/-- In every run in which one connection to the server has been opened its
replies arrive at the client, in order and each once; responses may come
between them. -/
theorem replies_arrive {p : (ProxyClient × ProxyServer) × List (List UInt8)}
    {c : ServerSession}
    (h : (system.recording (System.observeLeft relayed)).Reachable p)
    (hc : p.1.2.connectors = [c]) :
    p.2.flatten <+: c.received.flatten ∧
      (Answered p.1 c → p.2.flatten = c.received.flatten) := by
  have hrun : system.Reachable p.1 := h.of_recording
  have hclient := (relay_of_reachable h.couple_recording).faithful
  have hserver := ((relaying_of_reachable
    (hrun.couple_right (Q := fun _ _ => True) fun _ _ _ => trivial)).one c hc).faithful
  have hlinked := linked_of_reachable hrun
  refine ⟨(hclient.ordered.trans hlinked.replies).trans hserver.ordered, fun hnone => ?_⟩
  calc p.2.flatten
      = p.1.1.second.received.flatten := hclient.complete hnone.client.1 hnone.client.2
    _ = p.1.2.first.sent := hlinked.replies.eq_of_length hnone.link
    _ = c.received.flatten := hserver.complete hnone.connector hnone.server

/-- The reply to the request, which is written beside a response. -/
def replyRun : List (ProxyClient.Event ⊕ ProxyServer.Event) :=
  requestRun ++ [.inr (.receive (.server 0) [7, 8]), .inr (.read (.server 0)),
    .inr (.transfer .client 0 [7]), .inl (.receive .server [7]), .inl (.read .server),
    .inl (.transfer .client 0 [0]), .inl (.transfer .client 1 [7])]

theorem replyRun_arrives : ∃ p c,
    (system.recording (System.observeLeft relayed)).exec (({}, {}), []) replyRun = some p ∧
      p.1.2.connectors = [c] ∧ p.1.1.first.sent = [0, 7] ∧ p.2.flatten = [7] ∧
      p.2.flatten <+: c.received.flatten := by
  have hrun : ((system.recording (System.observeLeft relayed)).exec (({}, {}), []) replyRun).map
      (fun p => (p.1.2.connectors.length, p.1.1.first.sent, p.2.flatten)) =
        some (1, [0, 7], [7]) := by decide +kernel
  obtain ⟨p, hp, hview⟩ := Option.map_eq_some_iff.1 hrun
  simp only [Prod.mk.injEq] at hview
  obtain ⟨c, hc⟩ := List.length_eq_one_iff.1 hview.1
  have hinit : (system.recording (System.observeLeft relayed)).Reachable (({}, {}), []) :=
    .init ⟨⟨rfl, rfl⟩, rfl⟩
  exact ⟨p, c, hp, hc, hview.2.1, hview.2.2, (replies_arrive (hinit.exec hp) hc).1⟩

end Tunnel

end ProxyPrinter
