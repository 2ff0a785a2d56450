import BoostSamples.ProxyPrinter.Server

/-!
# What the printer proxy forwards to the server

The client's bytes reach the server in order if three things do not happen: a
chunk is handled while a connection is being made (the handler looks at the
flag of the accepted session, which is never set, and connects once more), a
chunk is handled while a write of the queue is in progress (the queue is empty
by then, and the chunk is written beside it), and bytes of a queued message are
taken after the call that starts its write (the memory has been given back).
Then the proxy goes through few stages, and at most one chunk is under way.
-/

namespace ProxyPrinter

open Buffer Transition

structure Outgoing where
  isConnected : Bool
  isConnecting : Bool
  linked : Bool
  writes : List (Write Endpoint)
  sent : List UInt8

structure Forwarding where
  accepting : Bool
  incoming : Incoming
  inputQueue : List (List UInt8)
  isConnecting : Bool
  outgoing : List Outgoing

def ServerSession.outgoing (s : ServerSession) : Outgoing :=
  ⟨s.isConnected, s.isConnecting, s.linked, s.writes, s.sent⟩

def ProxyServer.forwarding (s : ProxyServer) : Forwarding :=
  ⟨s.accepting, s.first.incoming, s.first.inputQueue, s.first.isConnecting,
    s.connectors.map ServerSession.outgoing⟩

/-- The connection stands and `HandleConnect` has run. -/
structure Outgoing.Open (c : Outgoing) : Prop where
  isConnected : c.isConnected = true
  isConnecting : c.isConnecting = false
  linked : c.linked = true

structure Write.Queued (w : Write Endpoint) : Prop where
  source : w.source = none
  handler : w.handler = .acceptorQueue
  size : w.cursor.size = w.content.length

inductive Forwarding.Stage (f : Forwarding) : Prop
  | accepting : f.accepting = true → f.outgoing = [] → f.incoming.reads = 0 →
      f.incoming.arrived = [] → f.incoming.received = [] → f.inputQueue = [] → Stage f
  | idle : f.accepting = false → f.outgoing = [] → f.inputQueue = [] →
      f.incoming.Reading [] → Stage f
  | connecting {c : Outgoing} {m : List UInt8} : f.accepting = false → f.outgoing = [c] →
      c.isConnecting = true → c.isConnected = false → c.writes = [] → c.sent = [] →
      f.inputQueue = [m] → f.incoming.Reading [m] → Stage f
  | resting {c : Outgoing} {handled : List (List UInt8)} : f.accepting = false →
      f.outgoing = [c] → c.Open → c.writes = [] → f.inputQueue = [] →
      handled ≠ [] → f.incoming.Reading handled → c.sent = handled.flatten → Stage f
  | queued {c : Outgoing} {w : Write Endpoint} {handled : List (List UInt8)} :
      f.accepting = false → f.outgoing = [c] → c.Open → c.writes = [w] → w.Queued →
      f.inputQueue = [] → handled ≠ [] → f.incoming.Reading handled →
      c.sent ++ w.content.drop w.cursor.done.length = handled.flatten → Stage f
  | direct {c : Outgoing} {w : Write Endpoint} {handled : List (List UInt8)} :
      f.accepting = false → f.outgoing = [c] → c.Open → c.writes = [w] →
      w.Direct .client f.incoming.buffer → f.inputQueue = [] →
      f.incoming.reads = 0 → f.incoming.arrived = [] →
      f.incoming.received = handled ++ [w.content] →
      c.sent = handled.flatten ++ w.cursor.done → Stage f

namespace ProxyServer

/-- The accepted session is never connecting, its socket writes what the server
has sent, and the stage is one of these. -/
structure Staged (s : ProxyServer) : Prop where
  isConnecting : s.first.isConnecting = false
  responses : ∀ w ∈ s.first.writes, w.handler = .clientWrite
  stage : s.forwarding.Stage

/-- The stream of the client is forwarded: one connection is opened, by the
first chunk; its socket has at most one write in progress; it has taken the
beginning of what was read, and all of it if nothing is under way. -/
structure Faithful (s : ProxyServer) : Prop where
  single : s.connectors.length =
    if s.first.received.length = s.first.arrived.length then 0 else 1
  exclusive : ∀ c ∈ s.connectors, c.writes.length ≤ 1
  ordered : ∀ c ∈ s.connectors, c.sent <+: s.first.received.flatten
  complete : (∀ c ∈ s.connectors, c.isConnecting = false ∧ c.writes = []) →
    s.first.arrived = [] →
    (s.connectors.map fun c => c.sent).flatten = s.first.received.flatten

/-- No chunk is handled while a connector is connecting or a write of the queue
is in progress, and the memory of a queued message is not read once it has been
given back. -/
def Careful (s : ProxyServer) : Event → Prop
  | .read .client =>
      ∀ c ∈ s.connectors, c.isConnecting = false ∧ ∀ w ∈ c.writes, w.handler ≠ .acceptorQueue
  | .transfer (.server k) i _ =>
      ∀ c ∈ s.connectors[k]?, ∀ w ∈ c.writes[i]?, w.source ≠ none
  | _ => True

end ProxyServer

namespace ProxyServer

variable {s t : ProxyServer}

theorem connectors_eq {c : Outgoing} (h : s.forwarding.outgoing = [c]) :
    ∃ q, s.connectors = [q] ∧ q.outgoing = c := List.map_eq_singleton_iff.1 h

theorem eq_of_getElem? {c : Outgoing} {k : Nat} {q : ServerSession}
    (h : s.forwarding.outgoing = [c]) (hq : s.connectors[k]? = some q) :
    k = 0 ∧ s.connectors = [q] ∧ q.outgoing = c := by
  obtain ⟨d, hd, rfl⟩ := connectors_eq h
  rw [hd, List.getElem?_singleton] at hq
  obtain ⟨rfl, hq⟩ := Option.ite_none_right_eq_some.1 hq
  cases hq
  exact ⟨rfl, hd, rfl⟩

theorem getElem?_of_none (h : s.forwarding.outgoing = []) (k : Nat) :
    s.connectors[k]? = none := by
  rw [List.map_eq_nil_iff.1 h]
  rfl

/-- One connector whose socket has at most one write in progress is faithful
if it has taken what was handled, but for that write. -/
theorem Faithful.of_single {q : ServerSession} {handled : List (List UInt8)}
    (hq : s.connectors = [q]) (hne : handled ≠ []) (hread : s.first.incoming.Reading handled)
    (hwrites : q.writes.length ≤ 1) (hsent : q.sent <+: handled.flatten)
    (hall : q.isConnecting = false → q.writes = [] → q.sent = handled.flatten) : s.Faithful where
  single := by
    have hlength : s.first.received.length = handled.length + s.first.arrived.length :=
      hread.length_received
    have hpos := List.length_pos_iff.2 hne
    rw [hq, if_neg (by omega)]
    rfl
  exclusive := by simpa [hq] using hwrites
  ordered := by
    have hprefix : q.sent <+: s.first.received.flatten := hsent.trans hread.handled_isPrefix
    simpa [hq] using hprefix
  complete hidle harrived := by
    obtain ⟨hconnecting, hempty⟩ := hidle q (by simp [hq])
    have hreceived : s.first.received = handled := hread.received_eq harrived
    simp [hq, hall hconnecting hempty, hreceived]

theorem Faithful.of_none (hnone : s.forwarding.outgoing = [])
    (hlength : s.first.received.length = s.first.arrived.length) : s.Faithful := by
  have hq : s.connectors = [] := List.map_eq_nil_iff.1 hnone
  refine ⟨by rw [hq, if_pos hlength]; rfl, by simp [hq], by simp [hq], fun _ harrived => ?_⟩
  rw [harrived, List.length_nil, List.length_eq_zero_iff] at hlength
  simp [hq, hlength]

/-- In each stage the stream is forwarded. -/
theorem Staged.faithful (h : s.Staged) : s.Faithful := by
  cases h.stage with
  | accepting _ hnone _ harrived hreceived _ =>
      refine .of_none hnone ?_
      have harrived : s.first.arrived = [] := harrived
      have hreceived : s.first.received = [] := hreceived
      rw [harrived, hreceived]
      rfl
  | idle _ hnone _ hread =>
      have hlength : s.first.received.length = 0 + s.first.arrived.length := hread.length_received
      exact .of_none hnone (by rw [hlength, Nat.zero_add])
  | connecting _ hone hconnecting _ hwrites hsent _ hread =>
      obtain ⟨q, hq, rfl⟩ := connectors_eq hone
      have hwrites : q.writes = [] := hwrites
      have hsent : q.sent = [] := hsent
      refine .of_single hq (List.cons_ne_nil _ _) hread (by simp [hwrites])
        (by simp [hsent]) fun hfalse => ?_
      exact absurd (hconnecting.symm.trans hfalse) (by decide)
  | resting _ hone _ hwrites _ hne hread hsent =>
      obtain ⟨q, hq, rfl⟩ := connectors_eq hone
      have hwrites : q.writes = [] := hwrites
      have hsent : q.sent = _ := hsent
      exact .of_single hq hne hread (by simp [hwrites]) (by simp [hsent]) fun _ _ => hsent
  | queued _ hone _ hwrites _ _ hne hread hsent =>
      obtain ⟨q, hq, rfl⟩ := connectors_eq hone
      have hwrites : q.writes = _ := hwrites
      refine .of_single hq hne hread (by simp [hwrites]) ⟨_, hsent⟩ fun _ hempty => ?_
      rw [hwrites] at hempty
      exact nomatch hempty
  | direct _ hone _ hwrites hdirect _ _ harrived hreceived hsent =>
      obtain ⟨q, hq, rfl⟩ := connectors_eq hone
      have hwrites : q.writes = _ := hwrites
      have hsent : q.sent = _ := hsent
      have harrived : s.first.arrived = [] := harrived
      have hreceived : s.first.received = _ := hreceived
      refine ⟨?_, by simp [hq, hwrites], ?_, fun hidle _ => ?_⟩
      · rw [hq, harrived, hreceived]
        simp
      · simp only [hq, List.mem_singleton, forall_eq, hsent, hreceived, List.flatten_append]
        simpa using hdirect.reads.isPrefix
      · have hempty := (hidle q (by simp [hq])).2
        rw [hwrites] at hempty
        exact nomatch hempty

theorem map_outgoing_modify {l : List ServerSession} {k : Nat}
    {f : ServerSession → ServerSession} (h : ∀ c ∈ l[k]?, (f c).outgoing = c.outgoing) :
    (l.modify k f).map ServerSession.outgoing = l.map ServerSession.outgoing := by
  refine List.ext_getElem? fun j => ?_
  rw [List.getElem?_map, List.getElem?_map, List.getElem?_modify]
  cases hj : l[j]? with
  | none => rfl
  | some c =>
      by_cases hkj : k = j
      · subst hkj
        simp [h c hj]
      · simp [hkj]

structure Same (s t : ProxyServer) : Prop where
  forwarding : t.forwarding = s.forwarding
  responses : (∀ w ∈ s.first.writes, w.handler = .clientWrite) →
    ∀ w ∈ t.first.writes, w.handler = .clientWrite

namespace Same

variable {u : ProxyServer}

theorem trans (h : s.Same t) (h' : t.Same u) : s.Same u :=
  ⟨h'.forwarding.trans h.forwarding, h'.responses ∘ h.responses⟩

theorem staged (h : s.Same t) (hs : s.Staged) : t.Staged where
  isConnecting := by
    have heq : t.first.isConnecting = s.first.isConnecting :=
      congrArg (fun f => f.isConnecting) h.forwarding
    rw [heq, hs.isConnecting]
  responses := h.responses hs.responses
  stage := h.forwarding ▸ hs.stage

theorem connector {k : Nat} {f : ServerSession → ServerSession}
    (h : ∀ c ∈ s.connectors[k]?, (f c).outgoing = c.outgoing) :
    s.Same { s with connectors := s.connectors.modify k f } where
  forwarding := by
    simp only [ProxyServer.forwarding, map_outgoing_modify h]
  responses hs := hs

theorem second {f : ServerSession → ServerSession} (h : ∀ c, (f c).outgoing = c.outgoing) :
    s.Same (s.modifySecond f) := connector fun c _ => h c

theorem first {f : ServerSession → ServerSession}
    (hincoming : (f s.first).incoming = s.first.incoming)
    (hqueue : (f s.first).inputQueue = s.first.inputQueue)
    (hflag : (f s.first).isConnecting = s.first.isConnecting)
    (hwrites : ∀ w ∈ (f s.first).writes, w ∈ s.first.writes ∨ w.handler = .clientWrite) :
    s.Same (s.modifyFirst f) where
  forwarding := by
    simp only [ProxyServer.forwarding, modifyFirst, hincoming, hqueue, hflag]
  responses hs w hw := (hwrites w hw).elim (hs w) id

theorem handleClientWrite : s.Same s.handleClientWrite := second fun _ => rfl

theorem handleServerRead (n : Nat) : s.Same (s.handleServerRead n) := by
  unfold ProxyServer.handleServerRead
  refine trans (second (f := fun c => c.change fun c => { c with transferred := n })
    fun _ => rfl) ?_
  dsimp only
  split
  · exact ⟨rfl, fun h => h⟩
  · refine first rfl rfl rfl fun w hw => ?_
    rcases List.mem_append.1 hw with hw | hw
    · exact .inl hw
    · exact .inr (List.mem_singleton.1 hw ▸ rfl)

/-- What happens on the sockets of the connectors to the reads of the replies,
and on the socket of the client to the writes of them. -/
theorem receive_server {k : Nat} {bytes : List UInt8}
    (h : s.step (.receive (.server k) bytes) = some t) : s.Same t := by
  obtain ⟨p, hp, -, rfl⟩ := step_receive h
  refine connector fun c hc => ?_
  obtain ⟨d, hd, rfl⟩ := Option.map_eq_some_iff.1 hp
  cases hd.symm.trans hc
  rfl

theorem read_server {k : Nat} (h : s.step (.read (.server k)) = some t) : s.Same t := by
  obtain ⟨d, n, rest, hd, -, rfl⟩ := step_read_server h
  refine trans (connector fun c hc => ?_) (handleServerRead n)
  cases hd.symm.trans hc
  rfl

theorem transfer_client {i : Nat} {bytes : List UInt8}
    (h : s.step (.transfer .client i bytes) = some t) : s.Same t := by
  obtain ⟨p, w, hp, hw, -, rfl⟩ := step_transfer h
  cases hp
  refine ⟨rfl, fun hs v hv => ?_⟩
  rcases List.mem_or_eq_of_mem_set hv with hv | rfl
  · exact hs v hv
  · exact hs w (List.mem_of_getElem? hw)

theorem written_client {i taken : Nat} (hs : ∀ w ∈ s.first.writes, w.handler = .clientWrite)
    (h : s.step (.written .client i taken) = some t) : s.Same t := by
  obtain ⟨p, w, hp, hw, -, rfl⟩ := step_written h
  cases hp
  rw [hs w (List.mem_of_getElem? hw)]
  refine trans ?_ handleClientWrite
  exact ⟨rfl, fun hs v hv => hs v (List.mem_of_mem_eraseIdx hv)⟩

end Same

namespace Staged

theorem accept (hs : s.Staged) (h : s.step .accept = some t) : t.Staged := by
  obtain ⟨hacc, rfl⟩ := step_accept h
  have hfalse : s.forwarding.accepting ≠ false := by
    show s.accepting ≠ false
    rw [hacc]
    decide
  refine ⟨hs.isConnecting, hs.responses, ?_⟩
  cases hs.stage with
  | accepting _ hnone hreads harrived hreceived hqueue =>
      refine .idle rfl hnone hqueue (.waiting ?_ harrived hreceived)
      exact congrArg (· + 1) hreads
  | idle h => exact absurd h hfalse
  | connecting h => exact absurd h hfalse
  | resting h => exact absurd h hfalse
  | queued h => exact absurd h hfalse
  | direct h => exact absurd h hfalse

theorem connect (hs : s.Staged) {k taken : Nat} (h : s.step (.connect k taken) = some t) :
    t.Staged := by
  obtain ⟨q, hq, hlinked, rfl⟩ := step_connect h
  have hunlinked (hlinked' : q.linked = true) : False := by
    rw [hlinked'] at hlinked
    exact nomatch hlinked
  cases hs.stage with
  | accepting _ hnone => exact nomatch (getElem?_of_none hnone k).symm.trans hq
  | idle _ hnone => exact nomatch (getElem?_of_none hnone k).symm.trans hq
  | @connecting _ m hacc hone _ _ hwrites hsent hqueue hread =>
      obtain ⟨rfl, hd, rfl⟩ := eq_of_getElem? hone hq
      have hqueue : s.first.inputQueue = [m] := hqueue
      have hwrites : q.writes = [] := hwrites
      have hsent : q.sent = [] := hsent
      have hstep : s.handleConnect 0 taken =
          { s with
            first := { s.first with inputQueue := [] }
            connectors := [ServerSession.writeMessage { q with
              linked := true
              isConnecting := false
              isConnected := true
              isOpen := true
              reads := q.reads + 1 } m taken] } := by
        simp [handleConnect, ProxyServer.handleClientWrite, handleAcceptorQueue, hqueue,
          modifySecond, modifyFirst, current, hd, ServerSession.connect, ServerSession.change,
          ProxySession.asyncRead]
      rw [hstep]
      refine ⟨hs.isConnecting, hs.responses, .queued
        (w := ⟨none, ⟨0, m.length, m.take taken⟩, .acceptorQueue, m⟩) hacc rfl ⟨rfl, rfl, rfl⟩ ?_
        ⟨rfl, rfl, rfl⟩ rfl (List.cons_ne_nil m []) ?_ ?_⟩
      · show q.writes ++ _ = _
        rw [hwrites]
        rfl
      · exact hread
      · show (q.sent ++ _) ++ _ = _
        rw [hsent, List.nil_append]
        exact (List.prefix_iff_eq_append.1 (List.take_prefix taken m)).trans (by simp)
  | resting _ hone hopen =>
      obtain ⟨-, -, rfl⟩ := eq_of_getElem? hone hq
      exact (hunlinked hopen.linked).elim
  | queued _ hone hopen =>
      obtain ⟨-, -, rfl⟩ := eq_of_getElem? hone hq
      exact (hunlinked hopen.linked).elim
  | direct _ hone hopen =>
      obtain ⟨-, -, rfl⟩ := eq_of_getElem? hone hq
      exact (hunlinked hopen.linked).elim

theorem receive_client (hs : s.Staged) {bytes : List UInt8}
    (h : s.step (.receive .client bytes) = some t) : t.Staged := by
  obtain ⟨p, hp, hreads, rfl⟩ := step_receive h
  cases hp
  refine ⟨hs.isConnecting, hs.responses, ?_⟩
  cases hs.stage with
  | accepting _ _ hzero => exact absurd hzero (Nat.ne_of_gt hreads)
  | idle hacc hnone hqueue hread => exact .idle hacc hnone hqueue (hread.store hreads bytes)
  | connecting hacc hone hconnecting hconnected hwrites hsent hqueue hread =>
      exact .connecting hacc hone hconnecting hconnected hwrites hsent hqueue
        (hread.store hreads bytes)
  | resting hacc hone hopen hwrites hqueue hne hread hsent =>
      exact .resting hacc hone hopen hwrites hqueue hne (hread.store hreads bytes) hsent
  | queued hacc hone hopen hwrites hw hqueue hne hread hsent =>
      exact .queued hacc hone hopen hwrites hw hqueue hne (hread.store hreads bytes) hsent
  | direct _ _ _ _ _ _ hzero => exact absurd hzero (Nat.ne_of_gt hreads)

/-- A chunk is handled: the first one opens the connection, the others are
written from the buffer. -/
theorem read_client (hs : s.Staged) (hc : s.Careful (.read .client))
    (h : s.step (.read .client) = some t) : t.Staged := by
  obtain ⟨n, rest, harrived, rfl⟩ := step_read_client h
  have hcons : s.forwarding.incoming.arrived = n :: rest := harrived
  cases hs.stage with
  | accepting _ _ _ hempty => exact nomatch hcons.symm.trans hempty
  | idle hacc hnone hqueue hread =>
      obtain ⟨hreads, rfl, hreceived⟩ := hread.of_arrived hcons
      have hq : s.connectors = [] := List.map_eq_nil_iff.1 hnone
      have hqueue : s.first.inputQueue = [] := hqueue
      have hreads : s.first.reads = 0 := hreads
      have hstep : (s.setSession { s.first.toProxySession with arrived := [] }
          .client).handleClientRead n =
          { s with
            first := { s.first with
              arrived := []
              transferred := n
              reads := 1
              inputQueue := [region s.first.buffer 0 n] }
            connectors := [{ isConnecting := true }] } := by
        simp [handleClientRead, setSession, second, hq, hs.isConnecting, push,
          ProxyServer.connect, handleServerWrite, modifyFirst, ServerSession.change,
          ProxySession.asyncRead, hqueue, hreads]
      rw [hstep]
      exact ⟨hs.isConnecting, hs.responses,
        .connecting hacc rfl rfl rfl rfl rfl rfl (.waiting rfl rfl hreceived)⟩
  | connecting _ hone hconnecting =>
      obtain ⟨q, hq, rfl⟩ := connectors_eq hone
      have hfalse := (hc q (by simp [hq])).1
      exact absurd (hconnecting.symm.trans hfalse) (by decide)
  | resting hacc hone hopen hwrites hqueue hne hread hsent =>
      obtain ⟨hreads, rfl, hreceived⟩ := hread.of_arrived hcons
      obtain ⟨q, hq, rfl⟩ := connectors_eq hone
      have hqueue : s.first.inputQueue = [] := hqueue
      have hwrites : q.writes = [] := hwrites
      have hsent : q.sent = _ := hsent
      have hconnected : q.isConnected = true := hopen.isConnected
      have hstep : (s.setSession { s.first.toProxySession with arrived := [] }
          .client).handleClientRead n =
          { s with
            first := { s.first with arrived := [], transferred := n }
            connectors := [{ q with writes := [⟨some .client, ⟨0, n, []⟩, .serverWrite,
              region s.first.buffer 0 n⟩] }] } := by
        simp [handleClientRead, setSession, second, current, hq, hconnected, modifySecond,
          modifyFirst, ServerSession.change, ProxySession.asyncWrite, ProxySession.bufferWrite,
          hqueue, hwrites]
      rw [hstep]
      refine ⟨hs.isConnecting, hs.responses, .direct hacc rfl ⟨hopen.1, hopen.2, hopen.3⟩ rfl
        ⟨rfl, rfl, Cursor.reads_start 0 n⟩ hqueue hreads rfl hreceived ?_⟩
      show q.sent = _ ++ []
      rw [hsent, List.append_nil]
  | queued _ hone _ hwrites hw =>
      obtain ⟨q, hq, rfl⟩ := connectors_eq hone
      have hwrites : q.writes = _ := hwrites
      exact absurd hw.handler ((hc q (by simp [hq])).2 _ (by simp [hwrites]))
  | direct _ _ _ _ _ _ _ hempty => exact nomatch hcons.symm.trans hempty

inductive Writing (s : ProxyServer) (q : ServerSession) (w : Write Endpoint) : Prop
  | queued {handled : List (List UInt8)} : w.Queued → handled ≠ [] →
      s.first.incoming.Reading handled →
      q.sent ++ w.content.drop w.cursor.done.length = handled.flatten → Writing s q w
  | direct {handled : List (List UInt8)} : w.Direct .client s.first.buffer →
      s.first.reads = 0 → s.first.arrived = [] →
      s.first.received = handled ++ [w.content] →
      q.sent = handled.flatten ++ w.cursor.done → Writing s q w

theorem of_write (hs : s.Staged) {k i : Nat} {q : ServerSession} {w : Write Endpoint}
    (hq : s.connectors[k]? = some q) (hw : q.writes[i]? = some w) :
    k = 0 ∧ i = 0 ∧ s.connectors = [q] ∧ q.writes = [w] ∧ s.accepting = false ∧
      s.first.inputQueue = [] ∧ q.outgoing.Open ∧ Writing s q w := by
  have hsingle {v : Write Endpoint} (hv : q.writes = [v]) : i = 0 ∧ v = w := by
    rw [hv, List.getElem?_singleton] at hw
    obtain ⟨hi, hw⟩ := Option.ite_none_right_eq_some.1 hw
    exact ⟨hi, Option.some.inj hw⟩
  cases hs.stage with
  | accepting _ hnone => exact nomatch (getElem?_of_none hnone k).symm.trans hq
  | idle _ hnone => exact nomatch (getElem?_of_none hnone k).symm.trans hq
  | connecting _ hone _ _ hwrites =>
      obtain ⟨-, -, rfl⟩ := eq_of_getElem? hone hq
      have hwrites : q.writes = [] := hwrites
      simp [hwrites] at hw
  | resting _ hone _ hwrites =>
      obtain ⟨-, -, rfl⟩ := eq_of_getElem? hone hq
      have hwrites : q.writes = [] := hwrites
      simp [hwrites] at hw
  | queued hacc hone hopen hwrites hqueued hqueue hne hread hsent =>
      obtain ⟨hk, hd, rfl⟩ := eq_of_getElem? hone hq
      obtain ⟨hi, rfl⟩ := hsingle hwrites
      exact ⟨hk, hi, hd, hwrites, hacc, hqueue, hopen, .queued hqueued hne hread hsent⟩
  | direct hacc hone hopen hwrites hdirect hqueue hreads harrived hreceived hsent =>
      obtain ⟨hk, hd, rfl⟩ := eq_of_getElem? hone hq
      obtain ⟨hi, rfl⟩ := hsingle hwrites
      exact ⟨hk, hi, hd, hwrites, hacc, hqueue, hopen,
        .direct hdirect hreads harrived hreceived hsent⟩

theorem transfer_server (hs : s.Staged) {k i : Nat} {bytes : List UInt8}
    (hc : s.Careful (.transfer (.server k) i bytes))
    (h : s.step (.transfer (.server k) i bytes) = some t) : t.Staged := by
  obtain ⟨p, w, hp, hw, hgives, rfl⟩ := step_transfer h
  obtain ⟨q, hq, rfl⟩ := Option.map_eq_some_iff.1 hp
  obtain ⟨rfl, rfl, hd, hwrites, hacc, hqueue, hopen, hwriting⟩ := hs.of_write hq hw
  refine ⟨hs.isConnecting, hs.responses, ?_⟩
  cases hwriting with
  | queued hqueued => exact absurd hqueued.source (hc q hq w hw)
  | direct hdirect hreads harrived hreceived hsent =>
      refine .direct (w := w.take bytes) hacc (c := ⟨q.isConnected, q.isConnecting, q.linked,
        [w.take bytes], q.sent ++ bytes⟩) ?_ ⟨hopen.1, hopen.2, hopen.3⟩ rfl
        ⟨hdirect.source, hdirect.handler, ?_⟩ hqueue hreads harrived hreceived ?_
      · show List.map _ (s.connectors.modify 0 _) = _
        rw [hd]
        simp [ServerSession.outgoing, ServerSession.change, hwrites]
      · refine Write.reads_take hgives ?_ hdirect.reads
        rw [hdirect.source]
        rfl
      · show q.sent ++ bytes = _ ++ (w.cursor.done ++ bytes)
        rw [hsent, List.append_assoc]

/-- A write to the server is done: it has written its chunk, and the next
chunk may come. -/
theorem written_server (hs : s.Staged) {k i taken : Nat}
    (h : s.step (.written (.server k) i taken) = some t) : t.Staged := by
  obtain ⟨p, w, hp, hw, hdone, rfl⟩ := step_written h
  obtain ⟨q, hq, rfl⟩ := Option.map_eq_some_iff.1 hp
  obtain ⟨rfl, rfl, hd, hwrites, hacc, hqueue, hopen, hwriting⟩ := hs.of_write hq hw
  have hrest : (s.setSession { q.toProxySession with writes := q.writes.eraseIdx 0 }
      (.server 0)).connectors = [{ q with writes := [] }] := by
    simp [setSession, hd, hwrites, ServerSession.change]
  cases hwriting with
  | @queued handled hqueued hne hread hsent =>
      have hskip : (s.setSession { q.toProxySession with writes := q.writes.eraseIdx 0 }
          (.server 0)).handleWrite taken w.handler = { s with
            connectors := [{ q with writes := [] }] } := by
        rw [hqueued.handler, ← hrest]
        simp only [handleWrite, handleAcceptorQueue, setSession, hqueue]
      rw [hskip]
      refine ⟨hs.isConnecting, hs.responses, .resting hacc rfl ⟨hopen.1, hopen.2, hopen.3⟩ rfl
        hqueue hne hread ?_⟩
      rw [← hsent, hdone, hqueued.size, List.drop_length, List.append_nil]
      rfl
  | @direct handled hdirect hreads harrived hreceived hsent =>
      have hnext : (s.setSession { q.toProxySession with writes := q.writes.eraseIdx 0 }
          (.server 0)).handleWrite taken w.handler = { s with
            first := { s.first with reads := 1 }
            connectors := [{ q with writes := [] }] } := by
        rw [hdirect.handler, ← hrest]
        simp [handleWrite, handleServerWrite, setSession, modifyFirst, ServerSession.change,
          ProxySession.asyncRead, hreads]
      rw [hnext]
      refine ⟨hs.isConnecting, hs.responses, .resting hacc rfl ⟨hopen.1, hopen.2, hopen.3⟩ rfl
        hqueue (List.append_ne_nil_of_right_ne_nil handled (List.cons_ne_nil w.content []))
        (.waiting rfl harrived hreceived) ?_⟩
      show q.sent = _
      rw [hsent, hdirect.reads.eq_of_length hdone, List.flatten_append]
      simp

/-- A chunk that is handled too early opens a second connection or starts a
second write. -/
theorem not_faithful_of_read (hs : s.Staged) (hc : ¬ s.Careful (.read .client))
    (h : s.step (.read .client) = some t) : ¬ t.Faithful := by
  obtain ⟨n, rest, harrived, rfl⟩ := step_read_client h
  have hcons : s.forwarding.incoming.arrived = n :: rest := harrived
  cases hs.stage with
  | accepting _ _ _ hempty => exact nomatch hcons.symm.trans hempty
  | idle _ hnone =>
      have hq : s.connectors = [] := List.map_eq_nil_iff.1 hnone
      exact absurd (fun c hmem => by simp [hq] at hmem) hc
  | connecting _ hone _ hconnected =>
      obtain ⟨q, hq, rfl⟩ := connectors_eq hone
      have hconnected : q.isConnected = false := hconnected
      have htwo : ((s.setSession { s.first.toProxySession with arrived := rest }
          .client).handleClientRead n).connectors.length = 2 := by
        simp [handleClientRead, setSession, second, hq, hconnected, hs.isConnecting, push,
          ProxyServer.connect, handleServerWrite, modifyFirst, ServerSession.change]
      intro hfaithful
      have hsingle := hfaithful.single
      rw [htwo] at hsingle
      split at hsingle <;> omega
  | resting _ hone hopen hwrites =>
      obtain ⟨q, hq, rfl⟩ := connectors_eq hone
      have hwrites : q.writes = [] := hwrites
      refine absurd (fun c hmem => ?_) hc
      rw [hq] at hmem
      cases List.mem_singleton.1 hmem
      exact ⟨hopen.isConnecting, by simp [hwrites]⟩
  | @queued _ w _ _ hone hopen hwrites _ hqueue =>
      obtain ⟨q, hq, rfl⟩ := connectors_eq hone
      have hqueue : s.first.inputQueue = [] := hqueue
      have hwrites : q.writes = [w] := hwrites
      have hconnected : q.isConnected = true := hopen.isConnected
      have htwo : ((s.setSession { s.first.toProxySession with arrived := rest }
          .client).handleClientRead n).connectors.map (fun c => c.writes.length) = [2] := by
        simp [handleClientRead, setSession, second, current, hq, hconnected, modifySecond,
          modifyFirst, ServerSession.change, ProxySession.asyncWrite, hqueue, hwrites]
      intro hfaithful
      obtain ⟨c, hmem, hlength⟩ := List.map_eq_singleton_iff.1 htwo
      have hone := hfaithful.exclusive c (by simp [hmem])
      omega
  | direct _ _ _ _ _ _ _ hempty => exact nomatch hcons.symm.trans hempty

end Staged

theorem Staged.step (hs : s.Staged) {e : Event} (hc : s.Careful e) (h : s.step e = some t) :
    t.Staged := by
  cases e with
  | accept => exact hs.accept h
  | connect k taken => exact hs.connect h
  | receive e bytes =>
      cases e with
      | client => exact hs.receive_client h
      | server k => exact (Same.receive_server h).staged hs
  | read e =>
      cases e with
      | client => exact hs.read_client hc h
      | server k => exact (Same.read_server h).staged hs
  | transfer e i bytes =>
      cases e with
      | client => exact (Same.transfer_client h).staged hs
      | server k => exact hs.transfer_server hc h
  | written e i taken =>
      cases e with
      | client => exact (Same.written_client hs.responses h).staged hs
      | server k => exact hs.written_server h

theorem staged_of_reachable (h : system.ReachableWhile Careful s) : s.Staged := by
  refine h.invariant ?_ fun _ _ _ hs hc ht => hs.step hc ht
  rintro s rfl
  exact ⟨rfl, by simp, .accepting rfl rfl rfl rfl rfl rfl⟩

/-- In every careful run the stream of the client is forwarded, and it is no
longer once a chunk is handled too early. -/
theorem forwards_of_reachable (h : system.ReachableWhile Careful s) :
    s.Faithful ∧ ∀ t, ¬ s.Careful (.read .client) → s.step (.read .client) = some t →
      ¬ t.Faithful :=
  have hs := staged_of_reachable h
  ⟨hs.faithful, fun _ hc ht => hs.not_faithful_of_read hc ht⟩

instance (s : ProxyServer) (e : Event) : Decidable (s.Careful e) :=
  match e with
  | .read .client => inferInstanceAs (Decidable (∀ c ∈ s.connectors, _ ∧ ∀ w ∈ c.writes, _))
  | .transfer (.server k) i _ =>
      inferInstanceAs (Decidable (∀ c ∈ s.connectors[k]?, ∀ w ∈ c.writes[i]?, _))
  | .accept | .connect _ _ | .receive _ _ | .read (.server _) | .transfer .client _ _
  | .written _ _ _ => isTrue trivial

/-- The second chunk comes when the first has been written. -/
def patientRun : List Event :=
  [.accept, .receive .client [1, 2], .read .client, .connect 0 2, .written (.server 0) 0 0,
    .receive .client [3], .read .client, .transfer (.server 0) 0 [3], .written (.server 0) 0 0]

theorem patientRun_faithful : ∃ s, system.execWhile Careful {} patientRun = some s ∧
    s.Faithful ∧ s.connectors.map (fun c => c.sent) = [[1, 2, 3]] := by
  have hrun : (system.execWhile Careful {} patientRun).map
      (fun s => s.connectors.map fun c => c.sent) = some [[1, 2, 3]] := by decide +kernel
  obtain ⟨s, hs, hsent⟩ := Option.map_eq_some_iff.1 hrun
  exact ⟨s, hs, (forwards_of_reachable (System.ReachableWhile.execWhile (.init rfl) hs)).1, hsent⟩

/-- The second chunk is handled before the connection stands. -/
def hastyRun : List Event :=
  [.accept, .receive .client [1], .read .client, .receive .client [2], .read .client]

/-- The second chunk is handled while the queued first one is being written. -/
def besideRun : List Event :=
  [.accept, .receive .client [1], .read .client, .connect 0 1, .receive .client [2],
    .read .client]

/-- The socket takes the queued chunk after the handler has returned. -/
def releasedRun : List Event :=
  [.accept, .receive .client [1], .read .client, .connect 0 0, .transfer (.server 0) 0 [9]]

/-- There are two connections, two writes in progress on one socket, and a
chunk that is not what was read. -/
theorem hastyRun_not_faithful :
    (∃ s, system.exec {} hastyRun = some s ∧ s.connectors.length = 2 ∧ ¬ s.Faithful) ∧
      (∃ s, system.exec {} besideRun = some s ∧
        s.connectors.map (fun c => c.writes.length) = [2] ∧ ¬ s.Faithful) ∧
      ∃ s, system.exec {} releasedRun = some s ∧ s.first.received = [[1]] ∧
        s.connectors.map (fun c => c.sent) = [[9]] ∧ ¬ s.Faithful := by
  have hhasty : (system.exec {} hastyRun).map
      (fun s => (s.connectors.length, s.first.received.length, s.first.arrived.length)) =
        some (2, 2, 0) := by decide +kernel
  have hbeside : (system.exec {} besideRun).map
      (fun s => s.connectors.map fun c => c.writes.length) = some [2] := by decide +kernel
  have hreleased : (system.exec {} releasedRun).map
      (fun s => (s.first.received, s.connectors.map fun c => c.sent)) =
        some ([[1]], [[9]]) := by decide +kernel
  refine ⟨?_, ?_, ?_⟩
  · obtain ⟨s, hs, hview⟩ := Option.map_eq_some_iff.1 hhasty
    simp only [Prod.mk.injEq] at hview
    refine ⟨s, hs, hview.1, fun h => ?_⟩
    have hsingle := h.single
    split at hsingle <;> omega
  · obtain ⟨s, hs, hview⟩ := Option.map_eq_some_iff.1 hbeside
    refine ⟨s, hs, hview, fun h => ?_⟩
    obtain ⟨c, hc, hwrites⟩ := List.map_eq_singleton_iff.1 hview
    have hone := h.exclusive c (by simp [hc])
    omega
  · obtain ⟨s, hs, hview⟩ := Option.map_eq_some_iff.1 hreleased
    simp only [Prod.mk.injEq] at hview
    refine ⟨s, hs, hview.1, hview.2, fun h => ?_⟩
    obtain ⟨c, hc, hsent⟩ := List.map_eq_singleton_iff.1 hview.2
    have hprefix := h.ordered c (by simp [hc])
    rw [hsent, hview.1] at hprefix
    exact absurd hprefix (by decide)

end ProxyServer

end ProxyPrinter
