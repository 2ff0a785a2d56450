import BoostSamples.OpenNat.RelayBuffer

/-!
# The bytes of a proxy session

`SendProxy` hands the frame that `ReceiveProxy` has found to an asynchronous
write as a region of the sender's stream buffer. The frame is consumed and the
next one read only when the write has completed, so that, other than with
`SendP2P`, nothing can happen to the region in the meantime: what is relayed
from a connection is what arrived on it, byte for byte, and all of it goes to
one destination.

The states are those of the server with its stream buffers; in addition the
writes of `SendProxy` read their regions piece by piece, and what has arrived on
each connection and what `Receive` has consumed of it is recorded.
-/

namespace OpenNat

open Buffer Framing Registry Transition

namespace Membership

/-- The relays there have been, each with its destination and its sender: the
sender has left `Receive` and stands, as long as it is in a pair, opposite its
destination, which is always the same. -/
structure Facing (m : Membership) (relays : List (ConnId × ConnId)) : Prop where
  away : ∀ w ∈ relays, (m.member w.2).receives = 0 ∧ (m.member w.2).accepted = true
  opposite : ∀ w ∈ relays, ∀ id p d, m.proxyMgr.find id = some p →
    p.get d = some w.2 → p.get d.other = some w.1
  single : ∀ w ∈ relays, ∀ w' ∈ relays, w.2 = w'.2 → w.1 = w'.1

namespace Facing

variable {m m' : Membership} {relays : List (ConnId × ConnId)}

theorem init : Facing {} [] where
  away _ h := absurd h List.not_mem_nil
  opposite _ h := absurd h List.not_mem_nil
  single _ h := absurd h List.not_mem_nil

theorem subset (h : m.Facing relays) {relays' : List (ConnId × ConnId)}
    (hsubset : relays' ⊆ relays) : m.Facing relays' where
  away w hw := h.away w (hsubset hw)
  opposite w hw := h.opposite w (hsubset hw)
  single w hw w' hw' := h.single w (hsubset hw) w' (hsubset hw')

/-- A connect request comes from a connection that has not relayed anything, and
fills no half that a sender has lost its destination from. -/
theorem request {r : Request} (h : m.Facing relays) (hr : 0 < (m.member r.conn).receives)
    (hconnected : m.Connected r m') : m'.Facing relays := by
  have hne : ∀ w ∈ relays, w.2 ≠ r.conn := by
    intro w hw hconn
    have haway := (h.away w hw).1
    rw [hconn] at haway
    omega
  cases hconnected with
  | stun hfree hself hother hfind hproxy =>
      refine ⟨fun w hw => ?_, fun w hw => ?_, h.single⟩
      · rw [hother w.2 (hne w hw)]
        exact h.away w hw
      · rw [hproxy]
        exact h.opposite w hw
  | proxy hadd hself hother hstun =>
      next c d id =>
        obtain ⟨⟨q, hq, hqc, hqother⟩, hrest⟩ := PairMap.find_of_add hadd
        refine ⟨fun w hw => ?_, fun w hw id' p' e hp' he => ?_, h.single⟩
        · rw [hother w.2 (hne w hw)]
          exact h.away w hw
        · by_cases hid : id' = id
          · subst hid
            obtain rfl := Option.some.inj (hq.symm.trans hp')
            rcases d.eq_or_eq_other e with rfl | rfl
            · exact absurd (Option.some.inj (he.symm.trans hqc)) (hne w hw)
            -- the half that is filled would not have been empty
            · rw [he, eq_comm, Option.bind_eq_some_iff] at hqother
              obtain ⟨p, hp, hpd⟩ := hqother
              have hdest := h.opposite w hw _ p d.other hp hpd
              rw [d.other_other, PairMap.vacant_of_add hadd hp] at hdest
              cases hdest
          · rw [hrest id' hid] at hp'
            exact h.opposite w hw id' p' e hp' he
  | refused hrefused hself hother hstun hproxy =>
      refine ⟨fun w hw => ?_, fun w hw => ?_, h.single⟩
      · rw [hother w.2 (hne w hw)]
        exact h.away w hw
      · rw [hproxy]
        exact h.opposite w hw

theorem start (h : m.Facing relays) (hm : m.WellPlaced) {c dest : ConnId}
    (hends : m.relayEnds c = some (c, dest)) : m.Facing (relays ++ [(dest, c)]) := by
  obtain ⟨p, d, hp, hc, hdest⟩ := Relaying.ends_placed hends
  obtain ⟨hid, htype, hreceives, haccepted⟩ := hm.placed _ p d c hp hc
  have hold : ∀ w ∈ relays, w.2 = c → w.1 = dest := by
    intro w hw hsender
    have hopposite := h.opposite w hw _ p d hp (hsender ▸ hc)
    exact Option.some.inj (hopposite.symm.trans hdest)
  refine ⟨fun w hw => ?_, fun w hw id p' e hp' he => ?_, fun w hw w' hw' heq => ?_⟩
  · rcases List.mem_append.1 hw with hw | hw
    · exact h.away w hw
    · rw [List.mem_singleton.1 hw]
      exact ⟨hreceives, haccepted⟩
  · rcases List.mem_append.1 hw with hw | hw
    · exact h.opposite w hw id p' e hp' he
    · rw [List.mem_singleton.1 hw] at he ⊢
      obtain ⟨hid', htype', -, -⟩ := hm.placed id p' e c hp' he
      have hside : e = d :=
        Option.some.inj (by rw [← side_proxyType e, ← htype', htype, side_proxyType])
      rw [← hid'] at hp'
      obtain rfl := Option.some.inj (hp.symm.trans hp')
      rw [hside]
      exact hdest
  · rcases List.mem_append.1 hw with hw | hw
    · rcases List.mem_append.1 hw' with hw' | hw'
      · exact h.single w hw w' hw' heq
      · rw [List.mem_singleton.1 hw'] at heq ⊢
        exact hold w hw heq
    · rw [List.mem_singleton.1 hw] at heq ⊢
      rcases List.mem_append.1 hw' with hw' | hw'
      · exact (hold w' hw' heq.symm).symm
      · rw [List.mem_singleton.1 hw']

theorem perform (h : m.Facing relays) {a : Action} (henabled : m.Enabled a)
    (ha : a.request = none) : (m.perform a).Facing relays where
  away w hw := Relaying.away_perform henabled ha (h.away w hw)
  opposite w hw id p d hp hd := h.opposite w hw id p d (perform_proxy ha hp) hd
  single := h.single

theorem step (h : m.Facing relays) {a : Action} (hstep : system.step m a = some m') :
    m'.Facing relays := by
  obtain ⟨henabled, rfl⟩ := step_eq_some_iff.1 hstep
  cases ha : a.request with
  | none => exact h.perform henabled ha
  | some r =>
      obtain rfl := Action.eq_connect ha
      exact h.request henabled (connected henabled)

end Facing

end Membership

namespace RelayBuffers

/-- The relay that an event starts: the connection whose handler runs, and the
sender. -/
def starts (s : RelayBuffers) : Event → Option (ConnId × ConnId)
  | .receiveProxy c => (s.server.membership.relayEnds c).map fun ends => (c, ends.1)
  | _ => none

def ends (s : RelayBuffers) : Event → Option ConnId
  | .relayDone i _ => s.relays[i]?.map Prod.fst
  | _ => none

section Refines

variable {parse : Buff → Option Command} {s t : RelayBuffers}

theorem receive_refines {c : ConnId} (hreceives : 0 < (s.server.conns c).receives) (bytes : ℕ)
    (frame : Frame) :
    ∃ a, Membership.system.step s.server.membership a =
        some (s.receive c bytes frame).server.membership ∧ a.starts = none ∧ a.ends = none := by
  rw [RelayBuffers.receive]
  split
  · next server herror =>
      obtain rfl := Server.handleReceive_error herror
      refine ⟨.receiveFail c, Membership.step_eq_some_iff.2 ⟨hreceives, ?_⟩, rfl, rfl⟩
      simp [Membership.perform, Server.membership_receiveCatch]
  · next server hok =>
      rcases Server.handleReceive_ok hok with ⟨r, -, rfl, heq⟩ | heq
      · refine ⟨.connect r, Membership.step_eq_some_iff.2 ⟨hreceives, ?_⟩, rfl, rfl⟩
        rw [heq, Server.membership_takeReceive]
        rfl
      · refine ⟨.idle, Membership.step_eq_some_iff.2 ⟨trivial, ?_⟩, rfl, rfl⟩
        rw [heq, Server.membership_takeReceive]
        exact (Membership.takeReceive_postReceive hreceives).symm

theorem session_takeReceiveProxy (s : Server) (c : ConnId) :
    ((s.takeReceiveProxy c).conns c).session = (s.conns c).session := by
  simp [Server.takeReceiveProxy, Server.modify]

/-- Nothing is relayed when `ReceiveProxy` throws. -/
theorem relayEnds_of_error {u : Server} {c : ConnId} {frame : Frame}
    (h : (s.server.takeReceiveProxy c).handleReceiveProxy c frame = .error u) :
    s.server.membership.relayEnds c = none := by
  have hunpaired := Server.handleReceiveProxy_unpaired h
  rw [session_takeReceiveProxy] at hunpaired
  simp only [Membership.relayEnds, ProxyMgr.findPair, Server.membership, Conn.member]
  rcases hunpaired with hnone | hnone
  · rw [show s.server.proxyMgr.find (s.server.conns c).session.id = none from hnone]
    rfl
  · cases s.server.proxyMgr.find (s.server.conns c).session.id <;> simp [hnone]

theorem receiveProxy_cases (s : RelayBuffers) (c : ConnId) (bytes : ℕ) (frame : Frame) :
    (∃ sender dest, s.server.membership.relayEnds c = some (sender, dest) ∧
      (s.receiveProxy c bytes frame).server.membership =
        (s.server.membership.takeReceiveProxy c).modify sender
          fun x => { x with relays := x.relays + 1 }) ∨
    (s.server.membership.relayEnds c = none ∧
      ((s.receiveProxy c bytes frame).server.membership =
          s.server.membership.takeReceiveProxy c ∨
        (s.receiveProxy c bytes frame).server.membership =
          (s.server.membership.takeReceiveProxy c).receiveProxyCatch c)) := by
  rw [RelayBuffers.receiveProxy]
  split
  · next server herror =>
      right
      have hnone := relayEnds_of_error herror
      obtain rfl := Server.handleReceiveProxy_error herror
      refine ⟨hnone, .inr ?_⟩
      rw [Server.membership_receiveProxyCatch, Server.membership_takeReceiveProxy]
  · next server hok =>
      obtain ⟨p, d, hp, hd, rfl⟩ := Server.handleReceiveProxy_ok hok
      rw [session_takeReceiveProxy] at hp hd
      have hends : s.server.membership.relayEnds c =
          (p.get d).bind fun sender => (p.get d.other).map fun dest => (sender, dest) := by
        have hp' : s.server.proxyMgr.find (s.server.conns c).session.id = some p := hp
        simp [Membership.relayEnds, ProxyMgr.findPair, Server.membership, Conn.member, hp', hd]
      rcases Server.sendProxy_cases (s.server.takeReceiveProxy c) c frame (p.get d)
        (p.get d.other) with ⟨f, t, hf, ht, -, heq⟩ | ⟨hnone, heq⟩
      · refine .inl ⟨f, t, by simp [hends, hf, ht], ?_⟩
        rw [heq, Server.membership_takeReceiveProxy]
      · refine .inr ⟨?_, .inl ?_⟩
        · rw [hends]
          rcases hnone with hnone | hnone
          · simp [hnone]
          · cases p.get d <;> simp [hnone]
        · rw [heq]
          exact Server.membership_takeReceiveProxy _ c

theorem receiveProxy_refines {c : ConnId} (hreceives : 0 < (s.server.conns c).proxyReceives)
    (bytes : ℕ) (frame : Frame) :
    ∃ a, Membership.system.step s.server.membership a =
        some (s.receiveProxy c bytes frame).server.membership ∧
      a.starts = s.starts (.receiveProxy c) ∧ a.ends = none := by
  rcases s.receiveProxy_cases c bytes frame with ⟨sender, dest, hends, heq⟩ | ⟨hends, heq | heq⟩
  · refine ⟨.relay c sender, Membership.step_eq_some_iff.2 ⟨⟨hreceives, ?_⟩, heq.symm⟩, ?_, rfl⟩
    · rw [hends]
      rfl
    · rw [starts, hends]
      rfl
  · refine ⟨.lost c, Membership.step_eq_some_iff.2 ⟨hreceives, heq.symm⟩, ?_, rfl⟩
    rw [starts, hends]
    rfl
  · refine ⟨.receiveProxyFail c, Membership.step_eq_some_iff.2 ⟨hreceives, heq.symm⟩, ?_, rfl⟩
    rw [starts, hends]
    rfl

/-- Each step of the buffers is one action on the membership. -/
theorem step_refines {e : Event} (h : s.step parse e = some t) :
    ∃ a, Membership.system.step s.server.membership a = some t.server.membership ∧
      a.starts = s.starts e ∧ a.ends = s.ends e := by
  obtain ⟨-, h⟩ := Option.ite_none_left_eq_some.1 h
  have hidle : t.server.membership = s.server.membership →
      ∃ a, Membership.system.step s.server.membership a = some t.server.membership ∧
        a.starts = none ∧ a.ends = none :=
    fun heq => ⟨.idle, Membership.step_eq_some_iff.2 ⟨trivial, heq.symm⟩, rfl, rfl⟩
  cases e with
  | server e =>
      obtain ⟨hbytes, h⟩ := Option.ite_none_left_eq_some.1 h
      obtain ⟨server, hserver, rfl⟩ := Option.map_eq_some_iff.1 h
      obtain ⟨a, ha, -, hstarts, hends⟩ := Server.step_refines hserver
      refine ⟨a, ha, hstarts.trans ?_, hends.trans ?_⟩
      · cases e with
        | receiveProxy c => exact absurd rfl hbytes
        | _ => rfl
      · cases e with
        | relayDone c ok => exact absurd rfl hbytes
        | _ => rfl
  | prepare c memory next =>
      obtain ⟨-, h⟩ := Option.ite_none_right_eq_some.1 h
      obtain rfl := Option.some.inj h
      exact hidle rfl
  | commit c bytes =>
      obtain ⟨-, h⟩ := Option.ite_none_right_eq_some.1 h
      obtain rfl := Option.some.inj h
      exact hidle rfl
  | receive c =>
      obtain ⟨⟨hreceives, -⟩, h⟩ := Option.ite_none_right_eq_some.1 h
      obtain ⟨⟨bytes, frame⟩, -, rfl⟩ := Option.map_eq_some_iff.1 h
      exact receive_refines hreceives bytes frame
  | receiveProxy c =>
      obtain ⟨⟨hreceives, -⟩, h⟩ := Option.ite_none_right_eq_some.1 h
      obtain ⟨⟨bytes, frame⟩, -, rfl⟩ := Option.map_eq_some_iff.1 h
      exact receiveProxy_refines hreceives bytes frame
  | relayDone i ok =>
      obtain ⟨⟨c, bytes⟩, hrelay, h⟩ := Option.bind_eq_some_iff.1 h
      obtain ⟨server, hserver, rfl⟩ := Option.map_eq_some_iff.1 h
      obtain ⟨a, ha, -, hstarts, hends⟩ := Server.step_refines hserver
      refine ⟨a, ha, hstarts, hends.trans ?_⟩
      rw [ends, hrelay]
      rfl
  | progress i n =>
      obtain ⟨w, -, h⟩ := Option.bind_eq_some_iff.1 h
      obtain ⟨-, h⟩ := Option.ite_none_right_eq_some.1 h
      obtain rfl := Option.some.inj h
      exact hidle rfl
  | p2pDone i ok =>
      obtain ⟨w, -, h⟩ := Option.bind_eq_some_iff.1 h
      obtain ⟨-, h⟩ := Option.ite_none_right_eq_some.1 h
      obtain ⟨server, hserver, rfl⟩ := Option.map_eq_some_iff.1 h
      obtain ⟨a, ha, -, hstarts, hends⟩ := Server.step_refines hserver
      exact ⟨a, ha, hstarts, hends⟩

end Refines

end RelayBuffers

/-- The server with its stream buffers and the writes of `SendProxy`. -/
structure ProxyStreams where
  buffers : RelayBuffers := {}
  /-- Writes of `SendProxy` in progress, in the order of their relays. -/
  writes : List RelayWrite := []
  /-- Writes of `SendProxy` completed. -/
  sent : List RelayWrite := []
  /-- What the reads of a connection have stored. -/
  arrived : ConnId → Buff := fun _ => []
  /-- What `Receive` has consumed of it. -/
  handled : ConnId → Buff := fun _ => []

namespace ProxyStreams

inductive Event
  | buffers (e : RelayBuffers.Event)
  /-- A write of `SendProxy` goes on by a number of bytes. -/
  | progress (i n : ℕ)

/-- The write that a read of `ReceiveProxy` starts: the frame stays in the buffer of the
sender, `t` being the buffers after the handler. -/
def started (s : ProxyStreams) (c : ConnId) (t : RelayBuffers) : List RelayWrite :=
  (s.buffers.server.membership.relayEnds c).toList.map fun ends =>
    ⟨ends.1, ends.2, ⟨(t.stream ends.1).next, t.transferred ends.1, []⟩,
      (t.stream ends.1).input.take (t.transferred ends.1)⟩

def consumed (s : ProxyStreams) (c : ConnId) (t : RelayBuffers) : Buff :=
  (s.buffers.stream c).input.take ((s.buffers.stream c).size - (t.stream c).size)

def follow (s : ProxyStreams) (e : RelayBuffers.Event) (t : RelayBuffers) : ProxyStreams :=
  match e with
  | .commit c bytes =>
      { s with buffers := t, arrived := Function.update s.arrived c (s.arrived c ++ bytes) }
  | .receive c =>
      { s with
        buffers := t
        handled := Function.update s.handled c (s.handled c ++ s.consumed c t) }
  | .receiveProxy c => { s with buffers := t, writes := s.writes ++ s.started c t }
  | .relayDone i ok =>
      { s with
        buffers := t
        writes := s.writes.eraseIdx i
        sent := if ok then s.sent ++ s.writes[i]?.toList else s.sent }
  | _ => { s with buffers := t }

/-- A write completes without an error only when it has written everything. -/
def Completes (s : ProxyStreams) : RelayBuffers.Event → Prop
  | .relayDone i true => ∀ w ∈ s.writes[i]?, w.cursor.done.length = w.cursor.size
  | _ => True

instance (s : ProxyStreams) (e : RelayBuffers.Event) : Decidable (s.Completes e) := by
  unfold Completes
  split <;> infer_instance

def step (parse : Buff → Option Command) (s : ProxyStreams) : Event → Option ProxyStreams
  | .buffers e =>
      if s.Completes e then (s.buffers.step parse e).map (s.follow e) else none
  | .progress i n =>
      if s.buffers.server.fault ∨ s.buffers.server.hung then none
      else
        s.writes[i]?.bind fun w =>
          if w.cursor.done.length + n ≤ w.cursor.size then
            some { s with
              writes := s.writes.set i (w.advance (s.buffers.stream w.sender).memory n) }
          else none

def system (parse : Buff → Option Command) : System ProxyStreams Event where
  init s := s = {}
  step := step parse

/-- The frame that `ReceiveProxy` handles has been read by the session that stands in the
pair that is found for it. -/
def Own (s : ProxyStreams) : Event → Prop
  | .buffers (.receiveProxy c) =>
      ∀ ends ∈ s.buffers.server.membership.relayEnds c, ends.1 = c
  | _ => True

instance (s : ProxyStreams) (e : Event) : Decidable (s.Own e) := by
  unfold Own
  split <;> infer_instance

def relayed (s : ProxyStreams) (c : ConnId) : Buff :=
  ((s.sent.filter (·.sender = c)).map (·.cursor.done)).flatten

/-- The relays of a list of writes, each with its destination and its sender. -/
def ends (writes : List RelayWrite) : List (ConnId × ConnId) :=
  writes.map fun w => (w.dest, w.sender)

structure Steered (s : ProxyStreams) : Prop where
  relaying : s.buffers.server.membership.Relaying (ends s.writes)
  facing : s.buffers.server.membership.Facing (ends (s.sent ++ s.writes))

/-- A write reads the beginning of the buffer of its sender, from where it starts. -/
structure Writing (b : Streambuf UInt8) (w : RelayWrite) : Prop where
  size : w.cursor.size ≤ b.size
  frame : w.frame = b.input.take w.cursor.size
  reads : w.cursor.Reads b.memory w.frame

structure Streamed (s : ProxyStreams) : Prop where
  relays : s.buffers.relays = s.writes.map fun w => (w.sender, w.cursor.size)
  writing : ∀ w ∈ s.writes, Writing (s.buffers.stream w.sender) w
  whole : ∀ c, s.arrived c = s.handled c ++ s.relayed c ++ (s.buffers.stream c).input

section Steps

variable {parse : Buff → Option Command} {s : ProxyStreams} {t : RelayBuffers}
  {e : RelayBuffers.Event} {c : ConnId}

theorem Streamed.write_of_relay (h : s.Streamed) {i n : ℕ}
    (hi : s.buffers.relays[i]? = some (c, n)) :
    ∃ w, s.writes[i]? = some w ∧ w.sender = c ∧ w.cursor.size = n := by
  rw [h.relays, List.getElem?_map] at hi
  obtain ⟨w, hw, heq⟩ := Option.map_eq_some_iff.1 hi
  obtain ⟨rfl, rfl⟩ := Prod.mk.inj heq
  exact ⟨w, hw, rfl, rfl⟩

theorem ends_started (s : ProxyStreams) (c : ConnId) (t : RelayBuffers) :
    ends (s.started c t) =
      (s.buffers.server.membership.relayEnds c).toList.map fun x => (x.2, x.1) := by
  rw [ends, started, List.map_map]
  rfl

theorem ends_append (writes writes' : List RelayWrite) :
    ends (writes ++ writes') = ends writes ++ ends writes' := List.map_append

theorem carried (hstreamed : s.Streamed) {a : Membership.Action}
    (hstarts : a.starts = s.buffers.starts e) (hends : a.ends = s.buffers.ends e)
    (hstep : s.buffers.step parse e = some t) :
    s.buffers.server.membership.Carried (ends s.writes) a (ends (s.follow e t).writes) := by
  cases e with
  | receiveProxy c =>
      rw [follow, ends_append, ends_started]
      rw [RelayBuffers.starts] at hstarts
      cases hrelay : s.buffers.server.membership.relayEnds c with
      | none =>
          rw [hrelay] at hstarts
          rw [Option.toList_none, List.map_nil, List.append_nil]
          exact .other hstarts hends
      | some x =>
          rw [hrelay] at hstarts
          exact .start hstarts hrelay
  | relayDone i ok =>
      obtain ⟨-, hstep⟩ := Option.ite_none_left_eq_some.1 hstep
      obtain ⟨⟨c, n⟩, hrelay, -⟩ := Option.bind_eq_some_iff.1 hstep
      obtain ⟨w, hw, hsender, -⟩ := hstreamed.write_of_relay hrelay
      rw [RelayBuffers.ends, hrelay, Option.map_some] at hends
      obtain ⟨before, after, hlist, -, -, herase⟩ := exists_append_of_getElem? hw
      rw [follow, herase, ends_append]
      have hwrites : ends s.writes = ends before ++ (w.dest, w.sender) :: ends after := by
        rw [hlist, ends_append]
        rfl
      exact .done (by rw [hends, hsender]) hwrites
  | _ => exact .other hstarts hends

theorem ends_relayDone_subset (s : ProxyStreams) (i : ℕ) (ok : Bool) (t : RelayBuffers) :
    ends ((s.follow (.relayDone i ok) t).sent ++ (s.follow (.relayDone i ok) t).writes) ⊆
      ends (s.sent ++ s.writes) := by
  refine List.map_subset _ fun w hw => ?_
  rcases List.mem_append.1 hw with hsent | hwrites
  · cases ok with
    | false => exact List.mem_append_left _ hsent
    | true =>
        rcases List.mem_append.1 hsent with hsent | hlast
        · exact List.mem_append_left _ hsent
        · exact List.mem_append_right _ (List.mem_of_getElem? (Option.mem_toList.1 hlast))
  · exact List.mem_append_right _ (List.mem_of_mem_eraseIdx hwrites)

theorem Steered.step (h : s.Steered) (hstreamed : s.Streamed) (hown : s.Own (.buffers e))
    (hstep : s.buffers.step parse e = some t) : (s.follow e t).Steered := by
  obtain ⟨a, ha, hstarts, hends⟩ := RelayBuffers.step_refines hstep
  have hbuffers : (s.follow e t).buffers = t := by
    cases e <;> rfl
  have hself : ∀ c sender, a.starts = some (c, sender) → sender = c := by
    intro c sender hstart
    rw [hstarts] at hstart
    cases e with
    | receiveProxy c' =>
        obtain ⟨x, hx, heq⟩ := Option.map_eq_some_iff.1 hstart
        obtain ⟨rfl, rfl⟩ := Prod.mk.inj heq
        exact hown x hx
    | _ => cases hstart
  constructor
  · rw [hbuffers]
    exact h.relaying.step ha hself (carried hstreamed hstarts hends hstep)
  · rw [hbuffers]
    cases e with
    | receiveProxy c =>
        change t.server.membership.Facing (ends (s.sent ++ (s.writes ++ s.started c t)))
        rw [← List.append_assoc, ends_append, ends_started]
        cases hrelay : s.buffers.server.membership.relayEnds c with
        | none =>
            rw [Option.toList_none, List.map_nil, List.append_nil]
            exact h.facing.step ha
        | some x =>
            obtain ⟨sender, dest⟩ := x
            obtain rfl : sender = c := hown _ hrelay
            exact (h.facing.start h.relaying.wellPlaced hrelay).step ha
    | relayDone i ok => exact (h.facing.subset (ends_relayDone_subset s i ok t)).step ha
    | _ => exact h.facing.step ha

/-- The sender of a write in progress is not being read, and has no other write. -/
theorem Steered.not_reading (h : s.Steered) {w : RelayWrite} (hw : w ∈ s.writes) :
    s.buffers.reading w.sender = false := by
  have hcount : 0 < ((ends s.writes).map Prod.snd).count w.sender :=
    List.count_pos_iff.2 (List.mem_map.2 ⟨_, List.mem_map.2 ⟨w, hw, rfl⟩, rfl⟩)
  rw [h.relaying.counted] at hcount
  have hsingle := h.relaying.single w.sender
  have hmode := h.relaying.wellPlaced.mode w.sender
  rw [Member.proxied] at hsingle hmode
  have hreceives : (s.buffers.server.conns w.sender).receives = 0 := by
    by_contra hne
    have hzero := hmode (Nat.pos_of_ne_zero hne)
    omega
  have hproxy : (s.buffers.server.conns w.sender).proxyReceives = 0 := by
    change (s.buffers.server.conns w.sender).proxyReceives + _ ≤ 1 at hsingle
    omega
  simp [RelayBuffers.reading, hreceives, hproxy]

theorem Steered.nodup (h : s.Steered) : (s.writes.map RelayWrite.sender).Nodup := by
  rw [List.nodup_iff_count_le_one]
  intro c
  have hcount := h.relaying.counted c
  rw [ends, List.map_map] at hcount
  have hsingle := h.relaying.single c
  rw [Member.proxied] at hsingle
  exact (Nat.le_of_eq hcount).trans (by omega)

theorem take_append_consume (b : Streambuf UInt8) (n : ℕ) :
    b.input.take (b.size - (b.consume n).size) ++ (b.consume n).input = b.input := by
  have hsize : b.size - (b.consume n).size = min n b.size := by
    rw [Streambuf.consume]
    exact Nat.sub_sub_self (Nat.min_le_right n b.size)
  rw [hsize, Streambuf.input_consume, ← Streambuf.length_input b, ← List.take_take,
    List.take_length, List.take_append_drop]

theorem receive_stream (s : RelayBuffers) (c : ConnId) (bytes : ℕ) (frame : Frame) :
    (s.receive c bytes frame).relays = s.relays ∧
      ((s.receive c bytes frame).stream = s.stream ∨
        (s.receive c bytes frame).stream =
          Function.update s.stream c ((s.stream c).consume bytes)) := by
  rw [RelayBuffers.receive]
  split
  · exact ⟨rfl, .inl rfl⟩
  · exact ⟨rfl, .inr rfl⟩

/-- `ReceiveProxy` leaves the buffers as they are, and the size of its relay is that of the
frame it has found. -/
theorem receiveProxy_stream (s : RelayBuffers) (c : ConnId) (bytes : ℕ) (frame : Frame) :
    (s.receiveProxy c bytes frame).stream = s.stream ∧
      (s.receiveProxy c bytes frame).relays = s.relays ++
        (s.server.membership.relayEnds c).toList.map (fun x =>
          (x.1, (s.receiveProxy c bytes frame).transferred x.1)) ∧
      ((s.server.membership.relayEnds c).isSome →
        (s.receiveProxy c bytes frame).transferred c = bytes) := by
  rw [RelayBuffers.receiveProxy]
  split
  · next server herror =>
      rw [RelayBuffers.relayEnds_of_error herror]
      exact ⟨rfl, (List.append_nil _).symm, fun h => absurd h (by simp)⟩
  · exact ⟨rfl, rfl, fun _ => Function.update_self c bytes s.transferred⟩

theorem Steered.relayed_eq_nil (h : s.Steered)
    (hreceives : 0 < (s.buffers.server.conns c).receives) : s.relayed c = [] := by
  have hnone : s.sent.filter (·.sender = c) = [] := by
    rw [List.filter_eq_nil_iff]
    intro w hw hsender
    obtain rfl := of_decide_eq_true hsender
    have haway := h.facing.away _ (List.mem_map.2 ⟨w, List.mem_append_left _ hw, rfl⟩)
    exact absurd haway.1 (Nat.pos_iff_ne_zero.1 hreceives)
  rw [relayed, hnone]
  rfl

theorem Streamed.writing_congr (h : s.Streamed) {stream : ConnId → Streambuf UInt8}
    (hstream : ∀ w ∈ s.writes, stream w.sender = s.buffers.stream w.sender) :
    ∀ w ∈ s.writes, Writing (stream w.sender) w := by
  intro w hw
  rw [hstream w hw]
  exact h.writing w hw

theorem Streamed.prepare (h : s.Streamed) (hs : s.Steered) {memory : ℕ → UInt8} {next : ℕ}
    (hstep : s.buffers.step parse (.prepare c memory next) = some t) :
    (s.follow (.prepare c memory next) t).Streamed := by
  obtain ⟨-, hstep⟩ := Option.ite_none_left_eq_some.1 hstep
  obtain ⟨⟨hreading, -, -, hprepares⟩, hstep⟩ := Option.ite_none_right_eq_some.1 hstep
  obtain rfl := Option.some.inj hstep
  refine ⟨h.relays, h.writing_congr fun w hw => ?_, fun c' => ?_⟩
  · refine Function.update_of_ne (fun hc => ?_) _ _
    rw [← hc, hs.not_reading hw] at hreading
    cases hreading
  · refine (h.whole c').trans (congrArg _ ?_)
    by_cases hc : c' = c
    · rw [hc]
      simp only [follow, RelayBuffers.setStream, Function.update_self]
      exact (Streambuf.input_prepare hprepares).symm
    · simp only [follow, RelayBuffers.setStream, Function.update_of_ne hc]

theorem Streamed.commit (h : s.Streamed) (hs : s.Steered) {bytes : Buff}
    (hstep : s.buffers.step parse (.commit c bytes) = some t) :
    (s.follow (.commit c bytes) t).Streamed := by
  obtain ⟨-, hstep⟩ := Option.ite_none_left_eq_some.1 hstep
  obtain ⟨⟨hreading, -⟩, hstep⟩ := Option.ite_none_right_eq_some.1 hstep
  obtain rfl := Option.some.inj hstep
  refine ⟨h.relays, h.writing_congr fun w hw => ?_, fun c' => ?_⟩
  · refine Function.update_of_ne (fun hc => ?_) _ _
    rw [← hc, hs.not_reading hw] at hreading
    cases hreading
  · have hwhole := h.whole c'
    by_cases hc : c' = c
    · subst hc
      simp only [follow, RelayBuffers.setStream, Function.update_self, Streambuf.input_commit]
      rw [hwhole, List.append_assoc _ _ bytes]
      rfl
    · simp only [follow, RelayBuffers.setStream, Function.update_of_ne hc]
      exact hwhole

theorem Streamed.receive (h : s.Streamed) (hs : s.Steered)
    (hstep : s.buffers.step parse (.receive c) = some t) :
    (s.follow (.receive c) t).Streamed := by
  obtain ⟨-, hstep⟩ := Option.ite_none_left_eq_some.1 hstep
  obtain ⟨⟨hreceives, -⟩, hstep⟩ := Option.ite_none_right_eq_some.1 hstep
  obtain ⟨⟨bytes, frame⟩, -, rfl⟩ := Option.map_eq_some_iff.1 hstep
  have hreading : s.buffers.reading c = true := by simp [RelayBuffers.reading, hreceives]
  obtain ⟨hrelays, hstream⟩ := receive_stream s.buffers c bytes frame
  have hother : ∀ c', c' ≠ c →
      (s.buffers.receive c bytes frame).stream c' = s.buffers.stream c' := by
    intro c' hc
    rcases hstream with hstream | hstream
    · rw [hstream]
    · rw [hstream, Function.update_of_ne hc]
  refine ⟨hrelays.trans h.relays, h.writing_congr fun w hw => hother _ fun hc => ?_, fun c' => ?_⟩
  · rw [← hc, hs.not_reading hw] at hreading
    cases hreading
  · have hwhole := h.whole c'
    by_cases hc : c' = c
    · subst hc
      have hconsumed : s.consumed c' (s.buffers.receive c' bytes frame) ++
          ((s.buffers.receive c' bytes frame).stream c').input = (s.buffers.stream c').input := by
        rw [consumed]
        rcases hstream with hstream | hstream
        · rw [hstream, Nat.sub_self]
          rfl
        · rw [hstream, Function.update_self]
          exact take_append_consume _ bytes
      have hnone := hs.relayed_eq_nil hreceives
      rw [hnone, List.append_nil] at hwhole
      change s.arrived c' = Function.update s.handled c' _ c' ++ s.relayed c' ++ _
      rw [Function.update_self, hnone, List.append_nil, List.append_assoc, hwhole]
      exact congrArg _ hconsumed.symm
    · simp only [follow, Function.update_of_ne hc]
      rw [hother c' hc]
      exact hwhole

theorem Streamed.receiveProxy (h : s.Streamed) (hown : s.Own (.buffers (.receiveProxy c)))
    (hstep : s.buffers.step parse (.receiveProxy c) = some t) :
    (s.follow (.receiveProxy c) t).Streamed := by
  obtain ⟨-, hstep⟩ := Option.ite_none_left_eq_some.1 hstep
  obtain ⟨-, hstep⟩ := Option.ite_none_right_eq_some.1 hstep
  obtain ⟨⟨bytes, frame⟩, hframe, rfl⟩ := Option.map_eq_some_iff.1 hstep
  obtain ⟨n, hn, heq⟩ := Option.map_eq_some_iff.1 hframe
  obtain ⟨rfl, -⟩ := Prod.mk.inj heq
  have hle := firstEnd_le_length delimiter_ne_nil hn
  rw [Streambuf.length_input] at hle
  obtain ⟨hstream, hrelays, htransferred⟩ := receiveProxy_stream s.buffers c n frame
  constructor
  · change (s.buffers.receiveProxy c n frame).relays = (s.writes ++ s.started c _).map _
    rw [hrelays, h.relays, List.map_append, started, List.map_map]
    rfl
  · intro w hw
    change Writing ((s.buffers.receiveProxy c n frame).stream w.sender) w
    rcases List.mem_append.1 hw with hw | hw
    · rw [hstream]
      exact h.writing w hw
    · obtain ⟨x, hx, rfl⟩ := List.mem_map.1 hw
      have hrelay := Option.mem_toList.1 hx
      have hsize := htransferred (Option.isSome_of_mem hrelay)
      obtain rfl : x.1 = c := hown x hrelay
      rw [hstream, hsize]
      refine ⟨hle, rfl, ?_⟩
      dsimp only
      rw [Streambuf.input, take_region hle]
      exact Cursor.reads_start _ n
  · intro c'
    refine (h.whole c').trans (congrArg _ ?_)
    change (s.buffers.stream c').input = ((s.buffers.receiveProxy c n frame).stream c').input
    rw [hstream]

/-- The frame of a completed write is the beginning of the buffer it has been written from. -/
theorem Writing.done_append {b : Streambuf UInt8} {w : RelayWrite} (h : Writing b w)
    (hdone : w.cursor.done.length = w.cursor.size) :
    w.cursor.done ++ (b.consume w.cursor.size).input = b.input := by
  rw [h.reads.eq_of_length hdone, h.frame, Streambuf.input_consume, List.take_append_drop]

theorem relayed_append (s : ProxyStreams) (w : RelayWrite) (c : ConnId) :
    ({ s with sent := s.sent ++ [w] } : ProxyStreams).relayed c =
      s.relayed c ++ if w.sender = c then w.cursor.done else [] := by
  rw [relayed, relayed, List.filter_append, List.map_append, List.flatten_append]
  congr 1
  by_cases hc : w.sender = c
  · simp [hc]
  · simp [hc]

/-- Only the buffer that the write was from changes, by the frame that has been written. -/
theorem Streamed.relayDone (h : s.Streamed) (hs : s.Steered) {i : ℕ} {ok : Bool}
    (hcompletes : s.Completes (.relayDone i ok))
    (hstep : s.buffers.step parse (.relayDone i ok) = some t) :
    (s.follow (.relayDone i ok) t).Streamed := by
  obtain ⟨-, hstep⟩ := Option.ite_none_left_eq_some.1 hstep
  obtain ⟨⟨c, n⟩, hrelay, hstep⟩ := Option.bind_eq_some_iff.1 hstep
  obtain ⟨server, -, rfl⟩ := Option.map_eq_some_iff.1 hstep
  obtain ⟨w, hw, rfl, rfl⟩ := h.write_of_relay hrelay
  have hwriting := h.writing w (List.mem_of_getElem? hw)
  refine ⟨?_, fun w' hw' => ?_, fun c' => ?_⟩
  · change s.buffers.relays.eraseIdx i = (s.writes.eraseIdx i).map _
    rw [h.relays, List.eraseIdx_map]
  · have hne : w'.sender ≠ w.sender := by
      obtain ⟨before, after, hlist, -, -, herase⟩ := exists_append_of_getElem? hw
      change w' ∈ s.writes.eraseIdx i at hw'
      rw [herase] at hw'
      have hnodup := hs.nodup
      rw [hlist, List.map_append, List.map_cons, List.nodup_middle, List.nodup_cons,
        ← List.map_append] at hnodup
      intro hsame
      exact hnodup.1 (List.mem_map.2 ⟨w', hw', hsame⟩)
    have hsame := h.writing w' (List.mem_of_mem_eraseIdx hw')
    simp only [follow, RelayBuffers.setStream, Function.update_of_ne hne]
    exact hsame
  · have hwhole := h.whole c'
    cases ok with
    | false =>
        simp only [follow, RelayBuffers.setStream, Bool.false_eq_true, if_false,
          Function.update_eq_self]
        exact hwhole
    | true =>
        have hdone := hcompletes w hw
        have hrelayed := s.relayed_append w c'
        simp only [follow, RelayBuffers.setStream, if_true, hw, Option.toList_some]
        change s.arrived c' = s.handled c' ++ ({ s with sent := s.sent ++ [w] } :
          ProxyStreams).relayed c' ++ _
        rw [hrelayed]
        by_cases hc : c' = w.sender
        · rw [hc] at hwhole ⊢
          rw [if_pos rfl, Function.update_self, List.append_assoc, List.append_assoc,
            hwriting.done_append hdone, ← List.append_assoc]
          exact hwhole
        · rw [if_neg (Ne.symm hc), Function.update_of_ne hc, List.append_nil]
          exact hwhole

theorem Streamed.step (h : s.Streamed) (hs : s.Steered) (hcompletes : s.Completes e)
    (hown : s.Own (.buffers e)) (hstep : s.buffers.step parse e = some t) :
    (s.follow e t).Streamed := by
  cases e with
  | prepare c memory next => exact h.prepare hs hstep
  | commit c bytes => exact h.commit hs hstep
  | receive c => exact h.receive hs hstep
  | receiveProxy c => exact h.receiveProxy hown hstep
  | relayDone i ok => exact h.relayDone hs hcompletes hstep
  | server e =>
      obtain ⟨-, hstep⟩ := Option.ite_none_left_eq_some.1 hstep
      obtain ⟨-, hstep⟩ := Option.ite_none_left_eq_some.1 hstep
      obtain ⟨server, -, rfl⟩ := Option.map_eq_some_iff.1 hstep
      exact ⟨h.relays, h.writing, h.whole⟩
  | progress i n =>
      obtain ⟨-, hstep⟩ := Option.ite_none_left_eq_some.1 hstep
      obtain ⟨w, -, hstep⟩ := Option.bind_eq_some_iff.1 hstep
      obtain ⟨-, hstep⟩ := Option.ite_none_right_eq_some.1 hstep
      obtain rfl := Option.some.inj hstep
      exact ⟨h.relays, h.writing, h.whole⟩
  | p2pDone i ok =>
      obtain ⟨-, hstep⟩ := Option.ite_none_left_eq_some.1 hstep
      obtain ⟨w, -, hstep⟩ := Option.bind_eq_some_iff.1 hstep
      obtain ⟨-, hstep⟩ := Option.ite_none_right_eq_some.1 hstep
      obtain ⟨server, -, rfl⟩ := Option.map_eq_some_iff.1 hstep
      exact ⟨h.relays, h.writing, h.whole⟩

theorem Streamed.progress (h : s.Streamed) {i n : ℕ} {w : RelayWrite}
    (hw : s.writes[i]? = some w) (hn : w.cursor.done.length + n ≤ w.cursor.size) :
    Streamed { s with
      writes := s.writes.set i (w.advance (s.buffers.stream w.sender).memory n) } := by
  obtain ⟨before, after, hlist, -, hset, -⟩ := exists_append_of_getElem? hw
  have hwriting := h.writing w (List.mem_of_getElem? hw)
  refine ⟨?_, fun w' hw' => ?_, h.whole⟩
  · simp only [hset]
    rw [h.relays, hlist]
    simp [RelayWrite.advance, Cursor.advance]
  · simp only [hset] at hw'
    have hold := h.writing
    rw [hlist] at hold
    rcases List.mem_append.1 hw' with hmem | hmem
    · exact hold w' (List.mem_append_left _ hmem)
    · rcases List.mem_cons.1 hmem with rfl | hmem
      · exact ⟨hwriting.size, hwriting.frame, hwriting.reads.advance hn⟩
      · exact hold w' (List.mem_append_right _ (List.mem_cons_of_mem _ hmem))

theorem Steered.progress (h : s.Steered) {i n : ℕ} {w : RelayWrite}
    (hw : s.writes[i]? = some w) :
    Steered { s with
      writes := s.writes.set i (w.advance (s.buffers.stream w.sender).memory n) } := by
  obtain ⟨before, after, hlist, -, hset, -⟩ := exists_append_of_getElem? hw
  have hends : ends (s.writes.set i (w.advance (s.buffers.stream w.sender).memory n)) =
      ends s.writes := by
    rw [hset, ends, ends, hlist, List.map_append, List.map_append]
    rfl
  refine ⟨?_, ?_⟩
  · rw [hends]
    exact h.relaying
  · rw [ends_append, hends, ← ends_append]
    exact h.facing

end Steps

section Runs

variable {parse : Buff → Option Command} {s : ProxyStreams}

theorem init : Steered {} ∧ Streamed {} :=
  ⟨⟨.init, .init⟩, rfl, fun _ h => absurd h List.not_mem_nil, fun _ => rfl⟩

theorem steered_of_reachable (h : (system parse).ReachableWhile Own s) :
    s.Steered ∧ s.Streamed := by
  refine h.invariant (I := fun s => s.Steered ∧ s.Streamed) ?_ ?_
  · rintro s rfl
    exact init
  · rintro s e t ⟨hsteered, hstreamed⟩ hown hstep
    cases e with
    | buffers e =>
        obtain ⟨hcompletes, hstep⟩ := Option.ite_none_right_eq_some.1 hstep
        obtain ⟨u, hu, rfl⟩ := Option.map_eq_some_iff.1 hstep
        exact ⟨hsteered.step hstreamed hown hu, hstreamed.step hsteered hcompletes hown hu⟩
    | progress i n =>
        obtain ⟨-, hstep⟩ := Option.ite_none_left_eq_some.1 hstep
        obtain ⟨w, hw, hstep⟩ := Option.bind_eq_some_iff.1 hstep
        obtain ⟨hn, hstep⟩ := Option.ite_none_right_eq_some.1 hstep
        obtain rfl := Option.some.inj hstep
        exact ⟨hsteered.progress hw, hstreamed.progress hw hn⟩

/-- In every run in which `ReceiveProxy` only handles frames of sessions that stand in their
pairs: what has arrived on a connection is what `Receive` has handled, what has been relayed
and what is left in its buffer, in this order; a write in progress has written a beginning
of what is left; and everything is relayed to one destination. -/
theorem relayed_faithful (h : (system parse).ReachableWhile Own s) (c : ConnId) :
    s.arrived c = s.handled c ++ s.relayed c ++ (s.buffers.stream c).input ∧
      (∀ w ∈ s.writes, w.sender = c → w.cursor.done <+: (s.buffers.stream c).input) ∧
      ∃ dest, ∀ w ∈ s.sent ++ s.writes, w.sender = c → w.dest = dest := by
  obtain ⟨hsteered, hstreamed⟩ := steered_of_reachable h
  refine ⟨hstreamed.whole c, fun w hw hc => ?_, ?_⟩
  · have hwriting := hstreamed.writing w hw
    have hframe : w.frame <+: (s.buffers.stream w.sender).input := by
      rw [hwriting.frame]
      exact List.take_prefix _ _
    rw [← hc]
    exact hwriting.reads.isPrefix.trans hframe
  · by_cases hany : ∃ w ∈ s.sent ++ s.writes, w.sender = c
    · obtain ⟨w, hw, hc⟩ := hany
      refine ⟨w.dest, fun w' hw' hc' => ?_⟩
      exact hsteered.facing.single _ (List.mem_map.2 ⟨w', hw', rfl⟩) _
        (List.mem_map.2 ⟨w, hw, rfl⟩) (hc'.trans hc.symm)
    · exact ⟨c, fun w hw hc => absurd ⟨w, hw, hc⟩ hany⟩

/-- The protobuf bytes of a request for one end of the proxy session of a uuid. -/
def proxyBytes (kind digit : UInt8) : Buff :=
  [0x08, 0x01, 0x12, 0x26, 0x08, 0x01, 0x10, kind, 0x1a, 0x20] ++ RelayBuffers.uuidText digit

def parseProxy : Buff → Option Command
  | 0x08 :: 0x01 :: 0x12 :: _ :: 0x08 :: 0x01 :: 0x10 :: kind :: 0x1a :: _ :: text =>
      some
        { protocol := .connect
          connect := some
            { protocol := .request
              kind := if kind = 0x02 then .proxyUp else .proxyDown
              clientId := RelayBuffers.readUuid text } }
  | _ => none

/-- A client asks for one end of the proxy session. -/
def joinRun (c : ConnId) (kind : UInt8) : List RelayBuffers.Event :=
  .server (.accept c) :: RelayBuffers.readRun c [] (proxyBytes kind 0x39) ++ [.receive c]

/-- Both ends join, and a frame of three bytes is relayed in two pieces. -/
def relayedRun : List Event :=
  let join := joinRun 0 0x02 ++ joinRun 1 0x03 ++ RelayBuffers.readRun 0 [] [1, 2, 3]
  join.map .buffers ++ [.buffers (.receiveProxy 0), .progress 0 2,
    .progress 0 (1 + delimiter.length), .buffers (.relayDone 0 true)]

theorem relayedRun_faithful : ∃ s, (system parseProxy).execWhile Own {} relayedRun = some s ∧
    s.relayed 0 = [1, 2, 3] ++ delimiter ∧ s.arrived 0 = s.handled 0 ++ s.relayed 0 := by
  have hrun : ((system parseProxy).execWhile Own {} relayedRun).map
      (fun s => (s.relayed 0, (s.buffers.stream 0).input)) = some ([1, 2, 3] ++ delimiter, []) := by
    decide +kernel
  obtain ⟨s, hs, hview⟩ := Option.map_eq_some_iff.1 hrun
  obtain ⟨hrelayed, hinput⟩ := Prod.mk.inj hview
  obtain ⟨hwhole, -, -⟩ := relayed_faithful (System.ReachableWhile.execWhile (.init rfl) hs) 0
  refine ⟨s, hs, hrelayed, ?_⟩
  rw [hwhole, hinput, List.append_nil]

end Runs

end ProxyStreams

end OpenNat
