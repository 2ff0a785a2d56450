import BoostSamples.ProxyPrinter.Relay
import BoostSamples.ProxyPrinter.Server
import Mathlib.Algebra.GroupWithZero.Nat

/-!
# What the printer proxy sends back

The replies are read from the last connection and written to the client. How
many operations are under way in either direction does not depend on the order
in which they complete: one for the client's data, and one for the replies for
each connection that has been made. A connection that was replaced is closed as
soon as it has been made, but what its handler has started goes on at the last
one. With one connection the replies are therefore relayed; with two, both reads
and writes go to the buffer of the last one.
-/

namespace ProxyPrinter

open Buffer Transition

/-- The elements of a list weighed before and after one of them is modified. -/
theorem sum_map_modify {α : Type*} {l : List α} {k : Nat} {x : α} (h : l[k]? = some x)
    (f : α → α) (g : α → Nat) :
    ((l.modify k f).map g).sum + g x = (l.map g).sum + g (f x) := by
  induction l generalizing k with
  | nil => simp at h
  | cons y l ih =>
      cases k with
      | zero =>
          cases h
          simp only [List.modify_zero_cons, List.map_cons, List.sum_cons]
          omega
      | succ k =>
          have hl := ih h
          simp only [List.modify_succ_cons, List.map_cons, List.sum_cons]
          omega

theorem map_modify_eq {α β : Type*} {l : List α} {k : Nat} {f : α → α} {g : α → β}
    (h : ∀ x ∈ l[k]?, g (f x) = g x) : (l.modify k f).map g = l.map g := by
  induction l generalizing k with
  | nil => rw [List.modify_nil]
  | cons y l ih =>
      cases k with
      | zero => rw [List.modify_zero_cons, List.map_cons, List.map_cons, h y rfl]
      | succ k => rw [List.modify_succ_cons, List.map_cons, List.map_cons, ih h]

theorem eq_singleton_of_getElem? {α : Type*} {l : List α} {k : Nat} {x : α}
    (hx : l[k]? = some x) (hlength : l.length = 1) : k = 0 ∧ l = [x] := by
  obtain ⟨y, rfl⟩ := List.length_eq_one_iff.1 hlength
  rw [List.getElem?_singleton] at hx
  obtain ⟨rfl, hx⟩ := Option.ite_none_right_eq_some.1 hx
  cases hx
  exact ⟨rfl, rfl⟩

namespace ProxyServer

def weigh (s : ProxyServer) (first connector : ServerSession → Nat) : Nat :=
  first s.first + (s.connectors.map connector).sum

/-- What is under way for the client's data: reads from the client, handlers of
these, and writes whose completion reads from the client. -/
def requests (s : ProxyServer) : Nat :=
  s.weigh (fun p => p.reads + p.arrived.length)
    fun c => c.writes.countP fun w => w.handler = .serverWrite

def replies (s : ProxyServer) : Nat :=
  s.weigh (fun p => p.writes.length) fun c => c.reads + c.arrived.length

/-- The connections that have been made. -/
def links (s : ProxyServer) : Nat := s.weigh (fun _ => 0) fun c => c.linked.toNat

/-- The connections that stand. -/
def standing (s : ProxyServer) : Nat := s.connectors.countP fun c => c.linked && c.isOpen

section Weigh

variable {s : ProxyServer} (first connector : ServerSession → Nat)

theorem weigh_modifyFirst (f : ServerSession → ServerSession) :
    (s.modifyFirst f).weigh first connector + first s.first =
      s.weigh first connector + first (f s.first) := by
  simp only [weigh, modifyFirst]
  omega

theorem weigh_modify {k : Nat} {c : ServerSession} (h : s.connectors[k]? = some c)
    (f : ServerSession → ServerSession) :
    ({ s with connectors := s.connectors.modify k f } : ProxyServer).weigh first connector +
      connector c = s.weigh first connector + connector (f c) := by
  have hsum := sum_map_modify h f connector
  simp only [weigh]
  omega

theorem weigh_modifySecond_eq {f : ServerSession → ServerSession}
    (h : ∀ c, connector (f c) = connector c) :
    (s.modifySecond f).weigh first connector = s.weigh first connector := by
  rw [weigh, weigh]
  congr 2
  exact map_modify_eq fun c _ => h c

theorem second_modifySecond (f : ServerSession → ServerSession) :
    (s.modifySecond f).second = s.second.map f := by
  simp [second, modifySecond, current, List.getLast?_eq_getElem?]

end Weigh

structure Adds (s t : ProxyServer) (requests replies links : Int) : Prop where
  accepting : t.accepting = s.accepting
  requests : (t.requests : Int) = s.requests + requests
  replies : (t.replies : Int) = s.replies + replies
  links : (t.links : Int) = s.links + links

namespace Adds

variable {s t u : ProxyServer} {a b c a' b' c' : Int}

theorem trans (h : s.Adds t a b c) (h' : t.Adds u a' b' c') :
    s.Adds u (a + a') (b + b') (c + c') where
  accepting := h'.accepting.trans h.accepting
  requests := by rw [h'.requests, h.requests, Int.add_assoc]
  replies := by rw [h'.replies, h.replies, Int.add_assoc]
  links := by rw [h'.links, h.links, Int.add_assoc]

theorem after (h : s.Adds t 0 0 0) (h' : t.Adds u a b c) : s.Adds u a b c := by
  simpa using h.trans h'

theorem first {f : ServerSession → ServerSession}
    (hrequests : ((f s.first).reads + (f s.first).arrived.length : Int) =
      s.first.reads + s.first.arrived.length + a)
    (hreplies : ((f s.first).writes.length : Int) = s.first.writes.length + b) :
    s.Adds (s.modifyFirst f) a b 0 where
  accepting := rfl
  requests := by
    have h := weigh_modifyFirst (s := s) (fun p => p.reads + p.arrived.length)
      (fun c => c.writes.countP fun w => w.handler = .serverWrite) f
    simp only [ProxyServer.requests]
    omega
  replies := by
    have h := weigh_modifyFirst (s := s) (fun p => p.writes.length)
      (fun c => c.reads + c.arrived.length) f
    simp only [ProxyServer.replies]
    omega
  links := (Int.add_zero _).symm

theorem connector {k : Nat} {d : ServerSession} (h : s.connectors[k]? = some d)
    {f : ServerSession → ServerSession}
    (hrequests : (((f d).writes.countP fun w => w.handler = .serverWrite : Nat) : Int) =
      (d.writes.countP fun w => w.handler = .serverWrite : Nat) + a)
    (hreplies : ((f d).reads + (f d).arrived.length : Int) = d.reads + d.arrived.length + b)
    (hlinks : ((f d).linked.toNat : Int) = d.linked.toNat + c) :
    s.Adds { s with connectors := s.connectors.modify k f } a b c where
  accepting := rfl
  requests := by
    have h := weigh_modify (fun p => p.reads + p.arrived.length)
      (fun c => c.writes.countP fun w => w.handler = .serverWrite) h f
    simp only [ProxyServer.requests]
    omega
  replies := by
    have h := weigh_modify (fun p => p.writes.length) (fun c => c.reads + c.arrived.length) h f
    simp only [ProxyServer.replies]
    omega
  links := by
    have h := weigh_modify (fun _ => 0) (fun c => c.linked.toNat) h f
    simp only [ProxyServer.links]
    omega

theorem second {d : ServerSession} (h : s.second = some d) {f : ServerSession → ServerSession}
    (hrequests : (((f d).writes.countP fun w => w.handler = .serverWrite : Nat) : Int) =
      (d.writes.countP fun w => w.handler = .serverWrite : Nat) + a)
    (hreplies : ((f d).reads + (f d).arrived.length : Int) = d.reads + d.arrived.length + b)
    (hlinks : ((f d).linked.toNat : Int) = d.linked.toNat + c) : s.Adds (s.modifySecond f) a b c :=
  connector (List.getLast?_eq_getElem? ▸ h) hrequests hreplies hlinks

theorem second_same {f : ServerSession → ServerSession}
    (hrequests : ∀ d, ((f d).writes.countP fun w => w.handler = .serverWrite) =
      d.writes.countP fun w => w.handler = .serverWrite)
    (hreplies : ∀ d, (f d).reads + (f d).arrived.length = d.reads + d.arrived.length)
    (hlinks : ∀ d, (f d).linked.toNat = d.linked.toNat) : s.Adds (s.modifySecond f) 0 0 0 where
  accepting := rfl
  requests := by
    rw [Int.add_zero]
    exact congrArg _ (weigh_modifySecond_eq _ _ hrequests)
  replies := by
    rw [Int.add_zero]
    exact congrArg _ (weigh_modifySecond_eq _ _ hreplies)
  links := by
    rw [Int.add_zero]
    exact congrArg _ (weigh_modifySecond_eq _ _ hlinks)

theorem handleServerWrite : s.Adds s.handleServerWrite 1 0 0 :=
  first (by simp [ServerSession.change, ProxySession.asyncRead]; omega) (Int.add_zero _).symm

theorem handleClientWrite {d : ServerSession} (h : s.second = some d) :
    s.Adds s.handleClientWrite 0 1 0 :=
  second h (Int.add_zero _).symm
    (by simp [ServerSession.change, ProxySession.asyncRead]; omega) (Int.add_zero _).symm

theorem handleAcceptorQueue (taken : Nat) : s.Adds (s.handleAcceptorQueue taken) 0 0 0 := by
  unfold ProxyServer.handleAcceptorQueue
  cases s.first.inputQueue with
  | nil => exact ⟨rfl, (Int.add_zero _).symm, (Int.add_zero _).symm, (Int.add_zero _).symm⟩
  | cons message rest =>
      refine after (second_same (f := fun c => c.writeMessage message taken) (fun d => ?_)
        (fun _ => rfl) fun _ => rfl) (first (Int.add_zero _).symm (Int.add_zero _).symm)
      simp [ServerSession.writeMessage, ServerSession.change, ProxySession.asyncWrite]

theorem push : s.Adds s.push 0 0 0 := first (Int.add_zero _).symm (Int.add_zero _).symm

theorem connect : s.Adds s.connect 0 0 0 where
  accepting := rfl
  requests := by simp [ProxyServer.requests, weigh, ProxyServer.connect]
  replies := by simp [ProxyServer.replies, weigh, ProxyServer.connect]
  links := by simp [ProxyServer.links, weigh, ProxyServer.connect]

/-- The chunk is written, or put into the queue and the next one is read. -/
theorem handleClientRead (n : Nat) : s.Adds (s.handleClientRead n) 1 0 0 := by
  unfold ProxyServer.handleClientRead
  refine after (first (f := fun p => p.change fun p => { p with transferred := n })
    (Int.add_zero _).symm (Int.add_zero _).symm) ?_
  dsimp only
  split
  · next hconnected =>
    split
    · obtain ⟨d, hd, -⟩ := (Option.any_eq_true _ _).1 hconnected
      refine second hd ?_ (Int.add_zero _).symm (Int.add_zero _).symm
      simp [ServerSession.change, ProxySession.asyncWrite, ProxySession.bufferWrite]
    · exact push.after handleServerWrite
  · split
    · exact push.after handleServerWrite
    · exact (push.after connect).after handleServerWrite

theorem handleServerRead {d : ServerSession} (h : s.second = some d) (n : Nat) :
    s.Adds (s.handleServerRead n) 0 1 0 := by
  have hsecond : (s.modifySecond fun c => c.change fun c => { c with transferred := n }).second =
      some (d.change fun c => { c with transferred := n }) := by
    rw [second_modifySecond, h]
    rfl
  unfold ProxyServer.handleServerRead
  refine after (second_same (f := fun c => c.change fun c => { c with transferred := n })
    (fun _ => rfl) (fun _ => rfl) fun _ => rfl) ?_
  dsimp only
  rw [hsecond]
  refine first (Int.add_zero _).symm ?_
  simp [ServerSession.change, ProxySession.asyncWrite]

/-- A connection has been made: the replies are read, and the queue is written. -/
theorem handleConnect {k : Nat} {d : ServerSession} (h : s.connectors[k]? = some d)
    (hlinked : d.linked = false) (taken : Nat) : s.Adds (s.handleConnect k taken) 0 1 1 := by
  have hlink := connector h (f := fun c => c.connect (k = s.current)) (Int.add_zero _).symm
    (Int.add_zero _).symm (c := 1) (by simp [ServerSession.connect, ServerSession.change, hlinked])
  have hpos : s.connectors ≠ [] := List.ne_nil_of_mem (List.mem_of_getElem? h)
  obtain ⟨e, he⟩ : ∃ e, ProxyServer.second { s with
      connectors := s.connectors.modify k fun c => c.connect (k = s.current) } = some e :=
    ⟨_, List.getLast?_eq_some_getLast (by simpa using hpos)⟩
  exact (hlink.trans (handleClientWrite he)).trans (handleAcceptorQueue taken)

end Adds

/-- Writes to the client are those of replies. -/
structure Directed (s : ProxyServer) : Prop where
  first : ∀ w ∈ s.first.writes, w.handler = .clientWrite
  connectors : ∀ c ∈ s.connectors, ∀ w ∈ c.writes, w.handler ≠ .clientWrite

namespace Directed

variable {s t : ProxyServer}

theorem modifyFirst (h : s.Directed) {f : ServerSession → ServerSession}
    (hf : ∀ w ∈ (f s.first).writes, w.handler = .clientWrite) : (s.modifyFirst f).Directed :=
  ⟨hf, h.connectors⟩

theorem modify (h : s.Directed) {k : Nat} {f : ServerSession → ServerSession}
    (hf : ∀ c ∈ s.connectors[k]?, (∀ w ∈ c.writes, w.handler ≠ .clientWrite) →
      ∀ w ∈ (f c).writes, w.handler ≠ .clientWrite) :
    ({ s with connectors := s.connectors.modify k f } : ProxyServer).Directed := by
  refine ⟨h.first, fun c hc => ?_⟩
  obtain ⟨j, hj⟩ := List.mem_iff_getElem?.1 hc
  rw [List.getElem?_modify] at hj
  obtain ⟨d, hd, rfl⟩ := Option.map_eq_some_iff.1 hj
  by_cases hkj : k = j
  · rw [if_pos hkj]
    exact hf d (hkj ▸ hd) (h.connectors d (List.mem_of_getElem? hd))
  · rw [if_neg hkj]
    exact h.connectors d (List.mem_of_getElem? hd)

theorem modifySecond (h : s.Directed) {f : ServerSession → ServerSession}
    (hf : ∀ c, ∀ w ∈ (f c).writes, w ∈ c.writes ∨ w.handler ≠ .clientWrite) :
    (s.modifySecond f).Directed :=
  h.modify fun c _ hc w hw => (hf c w hw).elim (hc w) id

theorem handleServerWrite (h : s.Directed) : s.handleServerWrite.Directed :=
  h.modifyFirst h.first

theorem handleClientWrite (h : s.Directed) : s.handleClientWrite.Directed :=
  h.modifySecond fun _ _ hw => .inl hw

theorem handleAcceptorQueue (h : s.Directed) (taken : Nat) :
    (s.handleAcceptorQueue taken).Directed := by
  unfold ProxyServer.handleAcceptorQueue
  cases s.first.inputQueue with
  | nil => exact h
  | cons message rest =>
      refine modifyFirst (h.modifySecond fun c w hw => ?_) h.first
      rcases List.mem_append.1 hw with hw | hw
      · exact .inl hw
      · rw [List.mem_singleton.1 hw]
        exact .inr (show Handler.acceptorQueue ≠ .clientWrite by decide)

theorem handleWrite (h : s.Directed) (taken : Nat) (handler : Handler) :
    (s.handleWrite taken handler).Directed := by
  cases handler with
  | serverWrite => exact h.handleServerWrite
  | clientWrite => exact h.handleClientWrite
  | acceptorQueue => exact h.handleAcceptorQueue taken

theorem push (h : s.Directed) : s.push.Directed := h.modifyFirst h.first

theorem connect (h : s.Directed) : s.connect.Directed := by
  refine ⟨h.first, fun c hc => ?_⟩
  rcases List.mem_append.1 hc with hc | hc
  · exact h.connectors c hc
  · rw [List.mem_singleton.1 hc]
    exact fun w hw => absurd hw List.not_mem_nil

theorem handleClientRead (h : s.Directed) (n : Nat) : (s.handleClientRead n).Directed := by
  have h' : (s.modifyFirst fun p => p.change fun p => { p with transferred := n }).Directed :=
    h.modifyFirst h.first
  unfold ProxyServer.handleClientRead
  dsimp only
  split
  · split
    · refine h'.modifySecond fun c w hw => ?_
      rcases List.mem_append.1 hw with hw | hw
      · exact .inl hw
      · rw [List.mem_singleton.1 hw]
        exact .inr (show Handler.serverWrite ≠ .clientWrite by decide)
    · exact h'.push.handleServerWrite
  · split
    · exact h'.push.handleServerWrite
    · exact h'.push.connect.handleServerWrite

theorem handleServerRead (h : s.Directed) (n : Nat) : (s.handleServerRead n).Directed := by
  have h' : (s.modifySecond fun c => c.change fun c => { c with transferred := n }).Directed :=
    h.modifySecond fun _ _ hw => .inl hw
  unfold ProxyServer.handleServerRead
  dsimp only
  split
  · exact h'
  · refine h'.modifyFirst fun w hw => ?_
    rcases List.mem_append.1 hw with hw | hw
    · exact h.first w hw
    · exact List.mem_singleton.1 hw ▸ rfl

theorem setSession (h : s.Directed) {e : Endpoint} {p q : ProxySession Endpoint}
    (hp : s.session e = some p)
    (hq : ∀ w ∈ q.writes, ∃ v ∈ p.writes, w.handler = v.handler) : (s.setSession q e).Directed := by
  cases e with
  | client =>
      cases hp
      refine modifyFirst (f := fun p => p.change fun _ => q) h fun w hw => ?_
      obtain ⟨v, hv, heq⟩ := hq w hw
      exact heq.trans (h.first v hv)
  | server k =>
      obtain ⟨c, hc, rfl⟩ := Option.map_eq_some_iff.1 hp
      refine modify (f := fun p => p.change fun _ => q) h fun d hd hwrites w hw => ?_
      cases hc.symm.trans hd
      obtain ⟨v, hv, heq⟩ := hq w hw
      exact heq ▸ hwrites v hv

theorem step (h : s.Directed) {e : Event} (hstep : s.step e = some t) : t.Directed := by
  cases e with
  | accept =>
      obtain ⟨-, rfl⟩ := step_accept hstep
      exact handleServerWrite ⟨h.first, h.connectors⟩
  | connect k taken =>
      obtain ⟨c, -, -, rfl⟩ := step_connect hstep
      have hlink := h.modify (k := k) (f := fun c => c.connect (k = s.current)) fun _ _ hc => hc
      exact hlink.handleClientWrite.handleAcceptorQueue taken
  | receive e bytes =>
      obtain ⟨p, hp, -, rfl⟩ := step_receive hstep
      exact h.setSession hp fun w hw => ⟨w, hw, rfl⟩
  | read e =>
      cases e with
      | client =>
          obtain ⟨n, rest, -, rfl⟩ := step_read_client hstep
          have hset : (s.setSession { s.first.toProxySession with
              arrived := rest } .client).Directed := ⟨h.first, h.connectors⟩
          exact hset.handleClientRead n
      | server k =>
          obtain ⟨c, n, rest, hc, -, rfl⟩ := step_read_server hstep
          have hsession : s.session (.server k) = some c.toProxySession := by
            rw [session, hc, Option.map_some]
          have hset := h.setSession (q := { c.toProxySession with arrived := rest }) hsession
            fun w hw => ⟨w, hw, rfl⟩
          exact hset.handleServerRead n
  | transfer e i bytes =>
      obtain ⟨p, v, hp, hv, -, rfl⟩ := step_transfer hstep
      refine h.setSession hp fun w hw => ?_
      rcases List.mem_or_eq_of_mem_set hw with hw | rfl
      · exact ⟨w, hw, rfl⟩
      · exact ⟨v, List.mem_of_getElem? hv, rfl⟩
  | written e i taken =>
      obtain ⟨p, v, hp, -, -, rfl⟩ := step_written hstep
      exact (h.setSession hp fun w hw => ⟨w, List.mem_of_mem_eraseIdx hw, rfl⟩).handleWrite
        taken v.handler

end Directed

/-- What is known of a connector: its connection has been made, it counts as connected,
and it has not been destroyed. -/
def status (c : ServerSession) : Bool × Bool × Bool :=
  (c.linked, c.isConnected, c.isOpen)

/-- The last connector is there, and another one has been destroyed if its connection has
been made. -/
def Held (s : ProxyServer) : Prop :=
  ∀ k c, s.connectors[k]? = some c →
    if k = s.current then c.isOpen = true ∧ c.isConnected = c.linked
    else c.linked = true → c.isOpen = false

namespace Held

variable {s t : ProxyServer}

theorem of_status (h : s.Held)
    (hst : t.connectors.map status = s.connectors.map status) :
    t.Held := by
  intro k c hc
  have hlength : t.current = s.current := by
    simpa [current] using congrArg (fun l => l.length - 1) hst
  have hk := congrArg (fun l => l[k]?) hst
  simp only [List.getElem?_map, hc, Option.map_some] at hk
  obtain ⟨d, hd, heq⟩ := Option.map_eq_some_iff.1 hk.symm
  simp only [status, Prod.mk.injEq] at heq
  rw [hlength, ← heq.1, ← heq.2.1, ← heq.2.2]
  exact h k d hd

theorem modify (h : s.Held) {k : Nat} {f : ServerSession → ServerSession}
    (hf : ∀ c ∈ s.connectors[k]?, status (f c) = status c) :
    ({ s with connectors := s.connectors.modify k f } : ProxyServer).Held :=
  h.of_status (map_modify_eq hf)

theorem handleAcceptorQueue (h : s.Held) (taken : Nat) : (s.handleAcceptorQueue taken).Held := by
  unfold ProxyServer.handleAcceptorQueue
  split
  · exact h
  · exact h.modify (f := fun c => c.writeMessage _ taken) fun _ _ => rfl

theorem handleWrite (h : s.Held) (taken : Nat) (handler : Handler) :
    (s.handleWrite taken handler).Held := by
  cases handler with
  | serverWrite => exact h
  | clientWrite => exact h.modify (f := fun c => c.change ProxySession.asyncRead) fun _ _ => rfl
  | acceptorQueue => exact h.handleAcceptorQueue taken

theorem handleServerRead (h : s.Held) (n : Nat) : (s.handleServerRead n).Held := by
  have h' : (s.modifySecond fun c => c.change fun c => { c with transferred := n }).Held :=
    h.modify fun _ _ => rfl
  unfold ProxyServer.handleServerRead
  dsimp only
  split
  · exact h'
  · exact h'

theorem connect (h : s.Held) (hsecond : ∀ c, s.second = some c → c.isConnected = false) :
    s.connect.Held := by
  intro k c hc
  have hcurrent : s.connect.current = s.connectors.length := by simp [ProxyServer.connect, current]
  rw [hcurrent]
  rw [ProxyServer.connect] at hc
  rcases lt_or_ge k s.connectors.length with hlt | hge
  · rw [List.getElem?_append_left hlt] at hc
    rw [if_neg hlt.ne]
    intro hlinked
    have hk := h k c hc
    by_cases hlast : k = s.current
    · rw [if_pos hlast] at hk
      have hfalse := hsecond c (by rw [second, List.getLast?_eq_getElem?, ← hc, hlast]; rfl)
      rw [hk.2, hlinked] at hfalse
      cases hfalse
    · rw [if_neg hlast] at hk
      exact hk hlinked
  · rw [List.getElem?_append_right hge, List.getElem?_singleton] at hc
    obtain ⟨hk, hc⟩ := Option.ite_none_right_eq_some.1 hc
    cases hc
    rw [if_pos (by omega)]
    exact ⟨rfl, rfl⟩

theorem handleClientRead (h : s.Held) (n : Nat) : (s.handleClientRead n).Held := by
  unfold ProxyServer.handleClientRead
  dsimp only
  split
  · split
    · exact h.modify (f := fun c => c.change fun c => c.asyncWrite _) fun _ _ => rfl
    · exact h
  · next hconnected =>
      split
      · exact h
      · refine connect h fun c hc => ?_
        by_contra hne
        exact hconnected ((Option.any_eq_true _ _).2 ⟨c, hc, by simpa using hne⟩)

theorem setSession (h : s.Held) {e : Endpoint} {p q : ProxySession Endpoint}
    (hp : s.session e = some p) (hlinked : q.linked = p.linked) : (s.setSession q e).Held := by
  cases e with
  | client => exact h
  | server k =>
      refine h.modify fun c hc => ?_
      obtain ⟨d, hd, rfl⟩ := Option.map_eq_some_iff.1 hp
      cases hd.symm.trans hc
      simp only [status, ServerSession.change, hlinked]

/-- The session of a connection that has been made is destroyed unless it is the last. -/
theorem handleConnect (h : s.Held) (k taken : Nat) : (s.handleConnect k taken).Held := by
  refine handleAcceptorQueue (Held.handleWrite ?_ 0 .clientWrite) taken
  intro j c hc
  have hcurrent : ({ s with
      connectors := s.connectors.modify k fun c => c.connect (k = s.current) } :
        ProxyServer).current = s.current := by simp [current]
  rw [hcurrent]
  rw [List.getElem?_modify] at hc
  obtain ⟨d, hd, rfl⟩ := Option.map_eq_some_iff.1 hc
  by_cases hkj : k = j
  · subst hkj
    by_cases hlast : k = s.current <;> simp [hlast, ServerSession.connect, ServerSession.change]
  · simpa [hkj] using h j d hd

theorem step (h : s.Held) {e : Event} (hstep : s.step e = some t) : t.Held := by
  cases e with
  | accept =>
      obtain ⟨-, rfl⟩ := step_accept hstep
      exact h
  | connect k taken =>
      obtain ⟨c, -, -, rfl⟩ := step_connect hstep
      exact h.handleConnect k taken
  | receive e bytes =>
      obtain ⟨p, hp, -, rfl⟩ := step_receive hstep
      exact h.setSession hp rfl
  | read e =>
      cases e with
      | client =>
          obtain ⟨n, rest, -, rfl⟩ := step_read_client hstep
          have hset : (s.setSession { s.first.toProxySession with
              arrived := rest } .client).Held := h
          exact hset.handleClientRead n
      | server k =>
          obtain ⟨c, n, rest, hc, -, rfl⟩ := step_read_server hstep
          have hsession : s.session (.server k) = some c.toProxySession := by
            rw [session, hc, Option.map_some]
          exact (h.setSession (q := { c.toProxySession with arrived := rest }) hsession
            rfl).handleServerRead n
  | transfer e i bytes =>
      obtain ⟨p, v, hp, -, -, rfl⟩ := step_transfer hstep
      exact h.setSession hp rfl
  | written e i taken =>
      obtain ⟨p, v, hp, -, -, rfl⟩ := step_written hstep
      exact (h.setSession (q := { p with writes := p.writes.eraseIdx i }) hp rfl).handleWrite
        taken v.handler

/-- At most the last connection stands. -/
theorem standing_le_one (h : s.Held) : s.standing ≤ 1 := by
  have hlast (k : Nat) (c : ServerSession) (hc : s.connectors[k]? = some c)
      (hstands : (c.linked && c.isOpen) = true) : k = s.current := by
    by_contra hne
    have hk := h k c hc
    rw [if_neg hne] at hk
    simp only [Bool.and_eq_true] at hstands
    rw [hk hstands.1] at hstands
    exact absurd hstands.2 Bool.false_ne_true
  rcases List.eq_nil_or_concat s.connectors with hnil | ⟨before, c, happend⟩
  · simp [standing, hnil]
  · rw [standing, happend, List.concat_eq_append, List.countP_append]
    have hbefore : before.countP (fun c => c.linked && c.isOpen) = 0 := by
      refine List.countP_eq_zero.2 fun d hd hstands => ?_
      obtain ⟨k, hk⟩ := List.mem_iff_getElem?.1 hd
      have hlt := (List.getElem?_eq_some_iff.1 hk).1
      have hcurrent := hlast k d (by
        rw [happend, List.concat_eq_append, List.getElem?_append_left hlt, hk]) hstands
      simp [current, happend] at hcurrent
      omega
    rw [hbefore, Nat.zero_add]
    exact List.countP_le_length

theorem init : Held {} := by
  intro k c hc
  simp at hc

end Held

theorem held_of_reachable {s : ProxyServer} (h : system.Reachable s) : s.Held := by
  refine h.invariant ?_ fun _ _ _ hs _ ht => hs.step ht
  rintro s rfl
  exact .init

/-- What is under way: one operation for the client's data once it has been
accepted, and one for the replies for each connection that has been made. -/
structure Accounted (s : ProxyServer) : Prop where
  requests : s.requests = if s.accepting then 0 else 1
  replies : s.replies = s.links
section Account

variable {s t : ProxyServer}

theorem links_eq_zero (h : s.connectors = []) : s.links = 0 := by
  simp [links, weigh, h]

theorem Accounted.second_of_write (h : s.Accounted) (hwrites : s.first.writes ≠ []) :
    ∃ d, s.second = some d := by
  have hne : s.connectors ≠ [] := by
    intro hnone
    have hpos := List.length_pos_iff.2 hwrites
    have hreplies := h.replies
    rw [links_eq_zero hnone, ProxyServer.replies, weigh] at hreplies
    omega
  exact ⟨_, List.getLast?_eq_some_getLast hne⟩

/-- An action that does as much as was left to do. -/
theorem Adds.back {u : ProxyServer} {a b c : Int} (h : s.Adds u (-a) (-b) 0)
    (h' : u.Adds t a b c) : s.Adds t 0 0 c := by
  have h := h.trans h'
  rwa [Int.add_left_neg, Int.add_left_neg, Int.zero_add] at h

theorem Adds.setSession {e : Endpoint} {p q : ProxySession Endpoint} (hp : s.session e = some p)
    (hreads : q.reads + q.arrived.length = p.reads + p.arrived.length)
    (hwrites : q.writes.map (fun w => w.handler) = p.writes.map fun w => w.handler)
    (hlinked : q.linked = p.linked) : s.Adds (s.setSession q e) 0 0 0 := by
  have hlength : q.writes.length = p.writes.length := by
    simpa using congrArg List.length hwrites
  have hcount : (q.writes.countP fun w => w.handler = .serverWrite) =
      p.writes.countP fun w => w.handler = .serverWrite := by
    have hmap := congrArg (List.countP fun h => h = Handler.serverWrite) hwrites
    simpa only [List.countP_map, Function.comp_def] using hmap
  cases e with
  | client =>
      cases hp
      refine first (f := fun p => p.change fun _ => q) ?_ ?_
      · simp only [ServerSession.change]
        omega
      · simp only [ServerSession.change]
        omega
  | server k =>
      obtain ⟨d, hd, rfl⟩ := Option.map_eq_some_iff.1 hp
      refine connector (f := fun p => p.change fun _ => q) hd ?_ ?_ ?_
      · simp only [ServerSession.change]
        omega
      · simp only [ServerSession.change]
        omega
      · simp only [ServerSession.change, hlinked]
        omega

theorem Adds.take_client {p : ProxySession Endpoint} {a b : Int}
    (hreads : (p.reads + p.arrived.length : Int) = s.first.reads + s.first.arrived.length + a)
    (hwrites : (p.writes.length : Int) = s.first.writes.length + b) :
    s.Adds (s.setSession p .client) a b 0 :=
  first (f := fun q => q.change fun _ => p) hreads hwrites

theorem Adds.take_server {k : Nat} {d : ServerSession} (hd : s.connectors[k]? = some d)
    {p : ProxySession Endpoint} {a b : Int}
    (hrequests : ((p.writes.countP fun w => w.handler = .serverWrite : Nat) : Int) =
      (d.writes.countP fun w => w.handler = .serverWrite : Nat) + a)
    (hreplies : (p.reads + p.arrived.length : Int) = d.reads + d.arrived.length + b)
    (hlinked : p.linked = d.linked) : s.Adds (s.setSession p (.server k)) a b 0 :=
  connector (f := fun q => q.change fun _ => p) hd hrequests hreplies (by
    simp only [ServerSession.change, hlinked]
    omega)

theorem Adds.handleWrite (taken : Nat) (handler : Handler)
    (h : handler = .clientWrite → ∃ d, s.second = some d) :
    s.Adds (s.handleWrite taken handler) (if handler = .serverWrite then 1 else 0)
      (if handler = .clientWrite then 1 else 0) 0 := by
  cases handler with
  | serverWrite => exact handleServerWrite
  | clientWrite =>
      obtain ⟨d, hd⟩ := h rfl
      exact handleClientWrite hd
  | acceptorQueue => exact handleAcceptorQueue taken

/-- Each step but the first leaves what is under way as it is, but for a
connection that comes to stand. -/
theorem Accounted.adds (h : s.Accounted) (hs : s.Directed) {e : Event}
    (hstep : s.step e = some t) (hne : s.accepting = true → e ≠ .accept) :
    ∃ c, s.Adds t 0 c c := by
  cases e with
  | accept =>
      obtain ⟨hacc, -⟩ := step_accept hstep
      exact absurd rfl (hne hacc)
  | connect k taken =>
      obtain ⟨d, hd, hlinked, rfl⟩ := step_connect hstep
      exact ⟨1, .handleConnect hd hlinked taken⟩
  | receive e bytes =>
      obtain ⟨p, hp, hreads, rfl⟩ := step_receive hstep
      refine ⟨0, .setSession hp ?_ rfl rfl⟩
      simp only [List.length_append, List.length_singleton]
      omega
  | read e =>
      cases e with
      | client =>
          obtain ⟨n, rest, harrived, rfl⟩ := step_read_client hstep
          refine ⟨0, .back (.take_client ?_ (by simp)) (.handleClientRead n)⟩
          simp [harrived]
          omega
      | server k =>
          obtain ⟨d, n, rest, hd, harrived, rfl⟩ := step_read_server hstep
          have htake : s.Adds (s.setSession { d.toProxySession with arrived := rest } (.server k))
              (-0) (-1) 0 := by
            refine .take_server hd (by simp) ?_ rfl
            simp [harrived]
            omega
          have hpos : s.connectors ≠ [] := List.ne_nil_of_mem (List.mem_of_getElem? hd)
          obtain ⟨e, he⟩ : ∃ e, (s.setSession { d.toProxySession with arrived := rest }
              (.server k)).second = some e :=
            ⟨_, List.getLast?_eq_some_getLast (by simpa [ProxyServer.setSession] using hpos)⟩
          exact ⟨0, htake.back (.handleServerRead he n)⟩
  | transfer e i bytes =>
      obtain ⟨p, v, hp, hv, -, rfl⟩ := step_transfer hstep
      refine ⟨0, .setSession hp rfl ?_ rfl⟩
      obtain ⟨before, after, hwrites, -, hset, -⟩ := exists_append_of_getElem? hv
      show (p.writes.set i _).map _ = p.writes.map _
      rw [hset, hwrites, List.map_append, List.map_append]
      rfl
  | written e i taken =>
      obtain ⟨p, v, hp, hv, -, rfl⟩ := step_written hstep
      obtain ⟨before, after, hwrites, -, -, herase⟩ := exists_append_of_getElem? hv
      cases e with
      | client =>
          cases hp
          have hhandler := hs.first v (List.mem_of_getElem? hv)
          obtain ⟨d, hd⟩ := h.second_of_write (List.ne_nil_of_mem (List.mem_of_getElem? hv))
          have htake : s.Adds (s.setSession { s.first.toProxySession with
              writes := s.first.writes.eraseIdx i } .client) (-0) (-1) 0 := by
            refine .take_client (by simp) ?_
            rw [herase, hwrites]
            simp
            omega
          rw [hhandler]
          exact ⟨0, htake.back (.handleClientWrite hd)⟩
      | server k =>
          obtain ⟨d, hd, rfl⟩ := Option.map_eq_some_iff.1 hp
          have hhandler := hs.connectors d (List.mem_of_getElem? hd) v (List.mem_of_getElem? hv)
          have htake : s.Adds (s.setSession { d.toProxySession with
              writes := d.writes.eraseIdx i } (.server k))
              (-(if v.handler = .serverWrite then 1 else 0)) (-0) 0 := by
            refine .take_server hd ?_ (by simp) rfl
            rw [herase, hwrites]
            by_cases hserver : v.handler = .serverWrite
            · simp [hserver]
              omega
            · simp [hserver]
          have hwrite := Adds.handleWrite
            (s := s.setSession { d.toProxySession with writes := d.writes.eraseIdx i } (.server k))
            taken v.handler fun heq => absurd heq hhandler
          rw [if_neg hhandler] at hwrite
          exact ⟨0, htake.back hwrite⟩

theorem Accounted.step (h : s.Accounted) (hs : s.Directed) {e : Event}
    (hstep : s.step e = some t) : t.Accounted := by
  by_cases haccept : s.accepting = true ∧ e = .accept
  · obtain ⟨hacc, rfl⟩ := haccept
    rw [ProxyServer.step, if_pos hacc] at hstep
    cases hstep
    have hrequests : s.requests = 0 := by rw [h.requests, if_pos hacc]
    obtain ⟨-, hone, hreplies, hlinks⟩ := Adds.handleServerWrite (s := { s with
      accepting := false, first := s.first.change fun p => { p with linked := true } })
    refine ⟨?_, ?_⟩
    · have hsame : ProxyServer.requests { s with
          accepting := false, first := s.first.change fun p => { p with linked := true } } =
          s.requests := rfl
      rw [hsame, hrequests] at hone
      exact Int.ofNat_inj.1 hone
    · exact h.replies
  · obtain ⟨c, hacc, hrequests, hreplies, hlinks⟩ := h.adds hs hstep fun hacc he =>
      haccept ⟨hacc, he⟩
    have heq := h.replies
    refine ⟨?_, by omega⟩
    rw [hacc, ← h.requests]
    omega

end Account

/-- The second chunk is handled before the connection stands, and both
connections are made: the replies are read twice, on the second one, and the first one
is closed. -/
def doubledRun : List Event :=
  [.accept, .receive .client [1], .read .client, .receive .client [2], .read .client,
    .connect 0 1, .connect 1 1]

theorem length_handleServerRead {s : ProxyServer} (n : Nat) :
    (s.handleServerRead n).connectors.length = s.connectors.length := by
  unfold handleServerRead
  dsimp only
  split
  · exact List.length_modify ..
  · exact List.length_modify ..

def relay (s : ProxyServer) (c : ServerSession) : Relay Endpoint :=
  ⟨c.linked, c.incoming, s.first.writes, s.first.sent⟩

/-- While at most one connection has been opened its replies are relayed. -/
structure Relaying (s : ProxyServer) : Prop where
  none : s.connectors = [] → s.first.writes = [] ∧ s.first.sent = []
  one : ∀ c, s.connectors = [c] → (s.relay c).Stage (.server 0)

structure Frame (s t : ProxyServer) : Prop where
  connectors : t.connectors.map (fun c => (c.linked, c.incoming)) =
    s.connectors.map fun c => (c.linked, c.incoming)
  writes : t.first.writes = s.first.writes
  sent : t.first.sent = s.first.sent

namespace Frame

variable {s t u : ProxyServer}

theorem trans (h : s.Frame t) (h' : t.Frame u) : s.Frame u :=
  ⟨h'.connectors.trans h.connectors, h'.writes.trans h.writes, h'.sent.trans h.sent⟩

theorem first {f : ServerSession → ServerSession} (hwrites : (f s.first).writes = s.first.writes)
    (hsent : (f s.first).sent = s.first.sent) : s.Frame (s.modifyFirst f) :=
  ⟨rfl, hwrites, hsent⟩

theorem connector {k : Nat} {f : ServerSession → ServerSession}
    (h : ∀ c ∈ s.connectors[k]?, ((f c).linked, (f c).incoming) = (c.linked, c.incoming)) :
    s.Frame { s with connectors := s.connectors.modify k f } :=
  ⟨map_modify_eq h, rfl, rfl⟩

theorem second {f : ServerSession → ServerSession}
    (h : ∀ c, ((f c).linked, (f c).incoming) = (c.linked, c.incoming)) :
    s.Frame (s.modifySecond f) := connector fun c _ => h c

theorem handleServerWrite : s.Frame s.handleServerWrite := first rfl rfl

theorem handleAcceptorQueue (taken : Nat) : s.Frame (s.handleAcceptorQueue taken) := by
  unfold ProxyServer.handleAcceptorQueue
  cases s.first.inputQueue with
  | nil => exact ⟨rfl, rfl, rfl⟩
  | cons message rest =>
      exact (second (f := fun c => c.writeMessage message taken) fun _ => rfl).trans
        (first rfl rfl)

theorem push : s.Frame s.push := first rfl rfl

theorem relaying (h : s.Frame t) (hs : s.Relaying) : t.Relaying where
  none hnone := by
    have hconnectors := h.connectors
    rw [hnone] at hconnectors
    have hempty := hs.none (List.map_eq_nil_iff.1 hconnectors.symm)
    rwa [h.writes, h.sent]
  one c hc := by
    have hconnectors := h.connectors
    rw [hc] at hconnectors
    obtain ⟨d, hd, heq⟩ := List.map_eq_singleton_iff.1 hconnectors.symm
    obtain ⟨hlinked, hincoming⟩ := Prod.mk.inj heq
    have hstage := hs.one d hd
    rw [relay, hlinked, hincoming, ← h.writes, ← h.sent] at hstage
    exact hstage

end Frame

namespace Relaying

variable {s t : ProxyServer}

theorem connect (h : s.Relaying) : s.connect.Relaying where
  none hnone := absurd hnone (List.append_ne_nil_of_right_ne_nil _ (List.cons_ne_nil _ _))
  one c hc := by
    have hlength := congrArg List.length hc
    simp only [ProxyServer.connect, List.length_append, List.length_singleton] at hlength
    have hnone := List.eq_nil_of_length_eq_zero (Nat.succ.inj hlength)
    obtain ⟨hwrites, hsent⟩ := h.none hnone
    rw [ProxyServer.connect, hnone, List.nil_append] at hc
    cases hc
    exact .closed rfl rfl rfl rfl hwrites hsent

theorem handleClientRead (h : s.Relaying) (n : Nat) : (s.handleClientRead n).Relaying := by
  have h' : (s.modifyFirst fun p => p.change fun p => { p with transferred := n }).Relaying :=
    Frame.relaying (.first rfl rfl) h
  unfold ProxyServer.handleClientRead
  dsimp only
  split
  · split
    · exact Frame.relaying (.second fun _ => rfl) h'
    · exact (Frame.push.trans .handleServerWrite).relaying h'
  · split
    · exact (Frame.push.trans .handleServerWrite).relaying h'
    · exact Frame.handleServerWrite.relaying (Frame.push.relaying h').connect

/-- An action after which there are as many connections, one of them being
that of an index, has kept the replies if it keeps those of a single one. -/
theorem of_single {k : Nat} {d : ServerSession} (hd : s.connectors[k]? = some d)
    (hlength : t.connectors.length = s.connectors.length)
    (hone : ∀ c, k = 0 → s.connectors = [d] → t.connectors = [c] →
      (t.relay c).Stage (.server 0)) : t.Relaying where
  none hnone := by
    rw [hnone] at hlength
    rw [List.eq_nil_of_length_eq_zero hlength.symm] at hd
    exact absurd hd (by simp)
  one c hc := by
    rw [hc] at hlength
    obtain ⟨hk, hs⟩ := eq_singleton_of_getElem? hd hlength.symm
    exact hone c hk hs hc

theorem handleConnect (h : s.Relaying) {k : Nat} {d : ServerSession}
    (hd : s.connectors[k]? = some d) (hlinked : d.linked = false) (taken : Nat) :
    (s.handleConnect k taken).Relaying := by
  refine (Frame.handleAcceptorQueue taken).relaying (of_single hd ?_ fun c hk hs hc => ?_)
  · simp [ProxyServer.handleClientWrite, modifySecond]
  · subst hk
    simp only [ProxyServer.handleClientWrite, modifySecond, current, hs, List.modify_zero_cons,
      List.length_singleton, Nat.sub_self] at hc
    cases hc
    exact (h.one d hs).start hlinked

theorem receive_server (h : s.Relaying) {k : Nat} {bytes : List UInt8}
    (hstep : s.step (.receive (.server k) bytes) = some t) : t.Relaying := by
  obtain ⟨p, hp, hreads, rfl⟩ := step_receive hstep
  obtain ⟨d, hd, rfl⟩ := Option.map_eq_some_iff.1 hp
  refine of_single hd (List.length_modify ..) fun c hk hs hc => ?_
  subst hk
  simp only [setSession, hs, List.modify_zero_cons] at hc
  cases hc
  exact (h.one d hs).receive hreads bytes

theorem read_server (h : s.Relaying) {k : Nat}
    (hstep : s.step (.read (.server k)) = some t) : t.Relaying := by
  obtain ⟨d, n, rest, hd, harrived, rfl⟩ := step_read_server hstep
  have hreply (hk : k = 0) (hs : s.connectors = [d]) :
      (s.setSession { d.toProxySession with arrived := rest } (.server k)).handleServerRead n =
        { s with
          first := { s.first with writes := s.first.writes ++
            [⟨some (.server 0), ⟨0, n, []⟩, .clientWrite, region d.buffer 0 n⟩] }
          connectors := [{ d with arrived := rest, transferred := n }] } := by
    subst hk
    simp [handleServerRead, setSession, second, current, hs, modifySecond, modifyFirst,
      ServerSession.change, ProxySession.asyncWrite, ProxySession.bufferWrite]
  refine of_single hd (by simp [length_handleServerRead, setSession]) fun c hk hs hc => ?_
  dsimp only at hc ⊢
  rw [hreply hk hs] at hc ⊢
  cases hc
  exact (h.one d hs).handle harrived

theorem transfer_client (h : s.Relaying) (hheld : s.Held) {i : Nat} {bytes : List UInt8}
    (hstep : s.step (.transfer .client i bytes) = some t) : t.Relaying := by
  obtain ⟨p, w, hp, hw, hgives, rfl⟩ := step_transfer hstep
  cases hp
  have hmem := List.mem_of_getElem? hw
  refine ⟨fun hnone => ?_, fun c hc => ?_⟩
  · rw [(h.none hnone).1] at hmem
    exact absurd hmem List.not_mem_nil
  · have hc : s.connectors = [c] := hc
    have hwrites : s.first.writes = [w] := ((h.one c hc).of_mem hmem).2.2.2.1
    have hset : s.first.writes.set i (w.take bytes) = [w.take bytes] := by
      obtain ⟨rfl, -⟩ := eq_singleton_of_getElem? hw (by rw [hwrites]; rfl)
      rw [hwrites]
      rfl
    have hopen : c.isOpen = true := by
      have hlast := hheld 0 c (by rw [hc]; rfl)
      rw [if_pos (by simp [current, hc])] at hlast
      exact hlast.1
    have htake := (h.one c hc).take hmem hgives (by simp [memory, hc, relay, hopen]; rfl)
    rw [Relay.take, ← hset] at htake
    exact htake

theorem written_client (h : s.Relaying) (hs : s.Directed) {i taken : Nat}
    (hstep : s.step (.written .client i taken) = some t) : t.Relaying := by
  obtain ⟨p, w, hp, hw, hdone, rfl⟩ := step_written hstep
  cases hp
  have hmem := List.mem_of_getElem? hw
  have hhandler := hs.first w hmem
  rw [hhandler]
  refine ⟨fun hnone => ?_, fun c hc => ?_⟩
  · have hempty : s.connectors = [] := by
      simpa [handleWrite, ProxyServer.handleClientWrite, modifySecond, setSession,
        modifyFirst] using hnone
    rw [(h.none hempty).1] at hmem
    exact absurd hmem List.not_mem_nil
  · have hlength : s.connectors.length = 1 := by
      simpa [handleWrite, ProxyServer.handleClientWrite, modifySecond, setSession,
        modifyFirst] using congrArg List.length hc
    obtain ⟨d, hd⟩ := List.length_eq_one_iff.1 hlength
    have hwrites : s.first.writes = [w] := ((h.one d hd).of_mem hmem).2.2.2.1
    have herase : s.first.writes.eraseIdx i = [] := by
      obtain ⟨rfl, -⟩ := eq_singleton_of_getElem? hw (by rw [hwrites]; rfl)
      rw [hwrites]
      rfl
    have hfinish := (h.one d hd).finish hmem hdone
    rw [Relay.finish, ← herase] at hfinish
    simp only [handleWrite, ProxyServer.handleClientWrite, modifySecond, setSession, modifyFirst,
      current, hd, List.length_singleton, Nat.sub_self, List.modify_zero_cons] at hc
    cases hc
    exact hfinish

theorem step (h : s.Relaying) (hs : s.Directed) (hheld : s.Held) {e : Event}
    (hstep : s.step e = some t) : t.Relaying := by
  cases e with
  | accept =>
      obtain ⟨-, rfl⟩ := step_accept hstep
      have hframe : s.Frame s.handleAccept := ⟨rfl, rfl, rfl⟩
      exact hframe.relaying h
  | connect k taken =>
      obtain ⟨d, hd, hlinked, rfl⟩ := step_connect hstep
      exact h.handleConnect hd hlinked taken
  | receive e bytes =>
      cases e with
      | client =>
          obtain ⟨p, hp, -, rfl⟩ := step_receive hstep
          cases hp
          refine Frame.relaying (s := s) ?_ h
          exact ⟨rfl, rfl, rfl⟩
      | server k => exact h.receive_server hstep
  | read e =>
      cases e with
      | client =>
          obtain ⟨n, rest, -, rfl⟩ := step_read_client hstep
          have hframe : s.Frame (s.setSession { s.first.toProxySession with
              arrived := rest } .client) := ⟨rfl, rfl, rfl⟩
          exact (hframe.relaying h).handleClientRead n
      | server k => exact h.read_server hstep
  | transfer e i bytes =>
      cases e with
      | client => exact h.transfer_client hheld hstep
      | server k =>
          obtain ⟨p, w, hp, -, -, rfl⟩ := step_transfer hstep
          obtain ⟨d, hd, rfl⟩ := Option.map_eq_some_iff.1 hp
          refine Frame.relaying (.connector fun c hc => ?_) h
          cases hd.symm.trans hc
          rfl
  | written e i taken =>
      cases e with
      | client => exact h.written_client hs hstep
      | server k =>
          obtain ⟨p, w, hp, hw, -, rfl⟩ := step_written hstep
          obtain ⟨d, hd, rfl⟩ := Option.map_eq_some_iff.1 hp
          have hhandler := hs.connectors d (List.mem_of_getElem? hd) w (List.mem_of_getElem? hw)
          have hset : s.Frame (s.setSession { d.toProxySession with
              writes := d.writes.eraseIdx i } (.server k)) := by
            refine .connector fun c hc => ?_
            cases hd.symm.trans hc
            rfl
          refine (hset.trans ?_).relaying h
          cases hwrite : w.handler with
          | serverWrite => exact .handleServerWrite
          | clientWrite => exact absurd hwrite hhandler
          | acceptorQueue => exact .handleAcceptorQueue taken

end Relaying

theorem relaying_of_reachable {s : ProxyServer} (h : system.Reachable s) : s.Relaying := by
  have hinv := h.invariant (I := fun s => s.Relaying ∧ s.Directed ∧ s.Held)
    (by
      rintro s rfl
      exact ⟨⟨fun _ => ⟨rfl, rfl⟩, fun c hc => absurd hc.symm (List.cons_ne_nil _ _)⟩,
        ⟨by simp, by simp⟩, .init⟩)
    fun _ _ _ hs _ ht => ⟨hs.1.step hs.2.1 hs.2.2 ht, hs.2.1.step ht, hs.2.2.step ht⟩
  exact hinv.1

/-- In every run in which one connection has been opened its replies are
relayed. -/
theorem replies_relayed {s : ProxyServer} {c : ServerSession} (h : system.Reachable s)
    (hc : s.connectors = [c]) : (s.relay c).Faithful :=
  ((relaying_of_reachable h).one c hc).faithful

/-- Two replies come; the client's socket takes the first one in two pieces. -/
def repliedRun : List Event :=
  [.accept, .receive .client [1], .read .client, .connect 0 1, .receive (.server 0) [7, 8],
    .read (.server 0), .transfer .client 0 [7], .transfer .client 0 [8], .written .client 0 0,
    .receive (.server 0) [9], .read (.server 0), .transfer .client 0 [9]]

theorem repliedRun_relayed : ∃ s c, system.exec {} repliedRun = some s ∧ s.connectors = [c] ∧
    s.first.sent = [7, 8, 9] ∧ (s.relay c).Faithful := by
  have hrun : (system.exec {} repliedRun).map (fun s => (s.connectors.length, s.first.sent)) =
      some (1, [7, 8, 9]) := by decide +kernel
  obtain ⟨s, hs, hview⟩ := Option.map_eq_some_iff.1 hrun
  simp only [Prod.mk.injEq] at hview
  obtain ⟨c, hc⟩ := List.length_eq_one_iff.1 hview.1
  exact ⟨s, c, hs, hc, hview.2, replies_relayed (System.Reachable.exec (.init rfl) hs) hc⟩

end ProxyServer

end ProxyPrinter
