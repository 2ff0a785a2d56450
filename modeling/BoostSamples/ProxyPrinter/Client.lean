import BoostSamples.ProxyPrinter.Session
import BoostSamples.Transition.System

/-!
# The printer proxy in front of the client

`ProxyClient` accepts one client and connects to the server at once. For each
chunk that it reads from the client it starts two writes, of the chunk to the
server and of a response of one byte to the client, and the completion of either
reads from the client again. So there is one read too many as soon as the
completion of a response is handled, and not before.
-/

namespace ProxyPrinter

open Buffer Transition

inductive Side
  | client
  | server
  deriving DecidableEq, Repr

/-- The proxy: `sessions_.first` is the accepted session. -/
structure ProxyClient where
  accepting : Bool := true
  connecting : Bool := true
  first : ProxySession Side := {}
  second : ProxySession Side := {}

namespace ProxyClient

def session (s : ProxyClient) : Side → ProxySession Side
  | .client => s.first
  | .server => s.second

def setSession (s : ProxyClient) (p : ProxySession Side) : Side → ProxyClient
  | .client => { s with first := p }
  | .server => { s with second := p }

def memory (s : ProxyClient) (e : Side) : Option (Nat → UInt8) := some (s.session e).buffer

/-- `HandleServerWrite`: reads from the client. -/
def handleServerWrite (s : ProxyClient) : ProxyClient := { s with first := s.first.asyncRead }

/-- `HandleClientWrite`: reads from the server. -/
def handleClientWrite (s : ProxyClient) : ProxyClient := { s with second := s.second.asyncRead }

def handleAccept (s : ProxyClient) : ProxyClient :=
  handleServerWrite { s with accepting := false, first := { s.first with linked := true } }

def handleConnect (s : ProxyClient) : ProxyClient :=
  handleClientWrite { s with connecting := false, second := { s.second with linked := true } }

def handleServerRead (s : ProxyClient) (transferred : Nat) : ProxyClient :=
  let second := { s.second with transferred := transferred }
  { s with
    first := s.first.asyncWrite (second.bufferWrite .server .clientWrite)
    second := second }

/-- The write of the response, from a variable of the handler that starts it. -/
def response : Write Side := ⟨none, ⟨0, 1, []⟩, .serverWrite, [0]⟩

/-- `HandleClientRead`: writes the chunk to the server and a response to the
client. -/
def handleClientRead (s : ProxyClient) (transferred : Nat) : ProxyClient :=
  let first := { s.first with transferred := transferred }
  { s with
    first := first.asyncWrite response
    second := s.second.asyncWrite (first.bufferWrite .client .serverWrite) }

def handleWrite (s : ProxyClient) : Handler → ProxyClient
  | .serverWrite => s.handleServerWrite
  | .clientWrite => s.handleClientWrite
  | .acceptorQueue => s

/-- What can happen: the network accepts, connects, delivers and takes bytes,
and the handlers of completed operations run. -/
inductive Event
  | accept
  | connect
  | receive (e : Side) (bytes : List UInt8)
  | read (e : Side)
  | transfer (e : Side) (i : Nat) (bytes : List UInt8)
  | written (e : Side) (i : Nat)

def step (s : ProxyClient) : Event → Option ProxyClient
  | .accept => if s.accepting then some s.handleAccept else none
  | .connect => if s.connecting then some s.handleConnect else none
  | .receive e bytes => ((s.session e).receive bytes).map fun p => s.setSession p e
  | .read e =>
      (s.session e).takeRead.map fun (n, p) =>
        match e with
        | .client => (s.setSession p e).handleClientRead n
        | .server => (s.setSession p e).handleServerRead n
  | .transfer e i bytes =>
      ((s.session e).transfer s.memory i bytes).map fun p => s.setSession p e
  | .written e i =>
      ((s.session e).takeWrite i).map fun (w, p) => (s.setSession p e).handleWrite w.handler

section Spec

variable {s t : ProxyClient}

theorem step_accept (h : s.step .accept = some t) : s.accepting = true ∧ t = s.handleAccept := by
  obtain ⟨haccepting, h⟩ := Option.ite_none_right_eq_some.1 h
  exact ⟨haccepting, (Option.some.inj h).symm⟩

theorem step_connect (h : s.step .connect = some t) :
    s.connecting = true ∧ t = s.handleConnect := by
  obtain ⟨hconnecting, h⟩ := Option.ite_none_right_eq_some.1 h
  exact ⟨hconnecting, (Option.some.inj h).symm⟩

theorem step_receive {e : Side} {bytes : List UInt8} (h : s.step (.receive e bytes) = some t) :
    0 < (s.session e).reads ∧ t = s.setSession { s.session e with
      buffer := store (s.session e).buffer 0 bytes
      reads := (s.session e).reads - 1
      arrived := (s.session e).arrived ++ [bytes.length]
      received := (s.session e).received ++ [bytes] } e := by
  obtain ⟨p, hp, rfl⟩ := Option.map_eq_some_iff.1 h
  obtain ⟨hreads, rfl⟩ := ProxySession.receive_eq_some hp
  exact ⟨hreads, rfl⟩

theorem step_read_client (h : s.step (.read .client) = some t) :
    ∃ n rest, s.first.arrived = n :: rest ∧
      t = (s.setSession { s.first with arrived := rest } .client).handleClientRead n := by
  obtain ⟨⟨n, p⟩, hp, rfl⟩ := Option.map_eq_some_iff.1 h
  obtain ⟨rest, harrived, rfl⟩ := ProxySession.takeRead_eq_some hp
  exact ⟨n, rest, harrived, rfl⟩

theorem step_read_server (h : s.step (.read .server) = some t) :
    ∃ n rest, s.second.arrived = n :: rest ∧
      t = (s.setSession { s.second with arrived := rest } .server).handleServerRead n := by
  obtain ⟨⟨n, p⟩, hp, rfl⟩ := Option.map_eq_some_iff.1 h
  obtain ⟨rest, harrived, rfl⟩ := ProxySession.takeRead_eq_some hp
  exact ⟨n, rest, harrived, rfl⟩

theorem step_transfer {e : Side} {i : Nat} {bytes : List UInt8}
    (h : s.step (.transfer e i bytes) = some t) :
    ∃ w, (s.session e).writes[i]? = some w ∧ w.Gives s.memory bytes ∧
      t = s.setSession { s.session e with
        writes := (s.session e).writes.set i (w.take bytes)
        sent := (s.session e).sent ++ bytes } e := by
  obtain ⟨p, hp, rfl⟩ := Option.map_eq_some_iff.1 h
  obtain ⟨w, hw, hgives, rfl⟩ := ProxySession.transfer_eq_some hp
  exact ⟨w, hw, hgives, rfl⟩

theorem step_written {e : Side} {i : Nat} (h : s.step (.written e i) = some t) :
    ∃ w, (s.session e).writes[i]? = some w ∧ w.Done ∧
      t = (s.setSession { s.session e with
        writes := (s.session e).writes.eraseIdx i } e).handleWrite w.handler := by
  obtain ⟨⟨w, p⟩, hp, rfl⟩ := Option.map_eq_some_iff.1 h
  obtain ⟨hw, hdone, rfl⟩ := ProxySession.takeWrite_eq_some hp
  exact ⟨w, hw, hdone, rfl⟩

end Spec

def system : System ProxyClient Event where
  init s := s = {}
  step := step

/-- At most one read from the client is outstanding, none while its buffer is
being written to the server, and the server is sent what has been read. -/
structure Disciplined (s : ProxyClient) : Prop where
  single : s.first.reads + s.first.arrived.length ≤ 1
  apart : (∃ w ∈ s.second.writes, w.source = some .client) → s.first.reads = 0
  ordered : s.second.sent <+: s.first.received.flatten
  complete : s.second.writes = [] → s.first.arrived = [] →
    s.second.sent = s.first.received.flatten

/-- The completion of a response is not handled. -/
def Careful (s : ProxyClient) : Event → Prop
  | .written .client i => ∀ w ∈ s.first.writes[i]?, w.handler ≠ .serverWrite
  | _ => True

instance (s : ProxyClient) (e : Event) : Decidable (s.Careful e) :=
  match e with
  | .written .client i => inferInstanceAs (Decidable (∀ w ∈ s.first.writes[i]?, _))
  | .accept | .connect | .receive _ _ | .read _ | .transfer _ _ _ | .written .server _ =>
      isTrue trivial

/-- Either a read from the client is outstanding or its last chunk is being
written. -/
inductive Stage (s : ProxyClient) : Prop
  | accepting : s.accepting = true → s.first.reads = 0 → s.first.arrived = [] →
      s.first.received = [] → (∀ w ∈ s.first.writes, w.handler = .clientWrite) →
      s.second.writes = [] → s.second.sent = [] → Stage s
  | resting {handled : List (List UInt8)} : s.accepting = false →
      s.first.incoming.Reading handled → s.second.writes = [] →
      s.second.sent = handled.flatten → Stage s
  | direct {w : Write Side} {handled : List (List UInt8)} : s.accepting = false →
      s.first.reads = 0 → s.first.arrived = [] → s.second.writes = [w] →
      w.Direct .client s.first.buffer → s.first.received = handled ++ [w.content] →
      s.second.sent = handled.flatten ++ w.cursor.done → Stage s

section Steps

variable {s t : ProxyClient}

theorem Stage.disciplined (h : s.Stage) : s.Disciplined := by
  cases h with
  | accepting _ hreads harrived hreceived _ hwrites hsent =>
      refine ⟨by simp [hreads, harrived], fun _ => hreads, by simp [hsent], fun _ _ => ?_⟩
      rw [hsent, hreceived]
      rfl
  | resting _ hread hwrites hsent =>
      refine ⟨?_, by simp [hwrites], ?_, fun _ harrived => ?_⟩
      · cases hread with
        | waiting hone hnone _ =>
            have hone : s.first.reads = 1 := hone
            have hnone : s.first.arrived = [] := hnone
            simp [hone, hnone]
        | arrived hzero hsome _ =>
            have hzero : s.first.reads = 0 := hzero
            have hsome : s.first.arrived = [_] := hsome
            simp [hzero, hsome]
      · rw [hsent]
        exact hread.handled_isPrefix
      · have hreceived : s.first.received = _ := hread.received_eq harrived
        rw [hsent, hreceived]
  | direct _ hreads harrived hwrites hdirect hreceived hsent =>
      refine ⟨by simp [hreads, harrived], fun _ => hreads, ?_, fun hempty => ?_⟩
      · rw [hsent, hreceived, List.flatten_append]
        simpa using hdirect.reads.isPrefix
      · exact nomatch hwrites.symm.trans hempty

/-- What happens between the server and the client's socket does not matter
here. -/
structure Same (s t : ProxyClient) : Prop where
  accepting : t.accepting = s.accepting
  incoming : t.first.incoming = s.first.incoming
  writes : t.second.writes = s.second.writes
  sent : t.second.sent = s.second.sent
  responses : (∀ w ∈ s.first.writes, w.handler = .clientWrite) →
    ∀ w ∈ t.first.writes, w.handler = .clientWrite

theorem Stage.of_same (h : s.Stage) (hsame : s.Same t) : t.Stage := by
  have hbuffer : t.first.buffer = s.first.buffer := congrArg (fun p => p.buffer) hsame.incoming
  have hreads : t.first.reads = s.first.reads := congrArg (fun p => p.reads) hsame.incoming
  have harrived : t.first.arrived = s.first.arrived :=
    congrArg (fun p => p.arrived) hsame.incoming
  have hreceived : t.first.received = s.first.received :=
    congrArg (fun p => p.received) hsame.incoming
  cases h with
  | accepting hacc hzero hnone hempty hresponses hwrites hsent =>
      exact .accepting (hsame.accepting.trans hacc) (hreads.trans hzero) (harrived.trans hnone)
        (hreceived.trans hempty) (hsame.responses hresponses) (hsame.writes.trans hwrites)
        (hsame.sent.trans hsent)
  | resting hacc hread hwrites hsent =>
      exact .resting (hsame.accepting.trans hacc) (hsame.incoming ▸ hread)
        (hsame.writes.trans hwrites) (hsame.sent.trans hsent)
  | direct hacc hzero hnone hwrites hdirect hchunk hsent =>
      exact .direct (hsame.accepting.trans hacc) (hreads.trans hzero) (harrived.trans hnone)
        (hsame.writes.trans hwrites) (hbuffer ▸ hdirect) (hreceived.trans hchunk)
        (hsame.sent.trans hsent)

/-- A response whose completion is handled starts a read although one is
outstanding or the buffer is being written. -/
theorem Stage.not_disciplined (h : s.Stage) {e : Event} (hc : ¬ s.Careful e)
    (hstep : s.step e = some t) : ¬ t.Disciplined := by
  cases e with
  | written e i =>
      cases e with
      | server => exact absurd trivial hc
      | client =>
          obtain ⟨⟨w, p⟩, hp, rfl⟩ := Option.map_eq_some_iff.1 hstep
          obtain ⟨hw, -, rfl⟩ := ProxySession.takeWrite_eq_some hp
          have hhandler : w.handler = .serverWrite := by
            by_contra hne
            refine hc fun v hv => ?_
            cases hw.symm.trans hv
            exact hne
          dsimp only
          rw [hhandler]
          intro hfaithful
          have hsingle : s.first.reads + 1 + s.first.arrived.length ≤ 1 := hfaithful.single
          cases h with
          | accepting _ _ _ _ hresponses =>
              have hclient := hresponses w (List.mem_of_getElem? hw)
              exact absurd (hhandler.symm.trans hclient) (by decide)
          | resting _ hread =>
              cases hread with
              | waiting hone _ _ =>
                  have hone : s.first.reads = 1 := hone
                  omega
              | arrived _ hsome _ =>
                  have hsome : s.first.arrived = [_] := hsome
                  simp [hsome] at hsingle
          | @direct v _ _ _ _ hwrites hdirect =>
              have hzero : s.first.reads + 1 = 0 :=
                hfaithful.apart ⟨v, by
                  show v ∈ s.second.writes
                  simp [hwrites], hdirect.source⟩
              omega
  | accept => exact absurd trivial hc
  | connect => exact absurd trivial hc
  | receive => exact absurd trivial hc
  | read => exact absurd trivial hc
  | transfer => exact absurd trivial hc

namespace Stage

theorem accept (h : s.Stage) (hstep : s.step .accept = some t) : t.Stage := by
  obtain ⟨hacc, hstep⟩ := Option.ite_none_right_eq_some.1 hstep
  cases hstep
  cases h with
  | accepting _ hreads harrived hreceived _ hwrites hsent =>
      refine .resting rfl (.waiting ?_ harrived hreceived) hwrites hsent
      exact congrArg (· + 1) hreads
  | resting hfalse => exact absurd (hacc.symm.trans hfalse) (by decide)
  | direct hfalse => exact absurd (hacc.symm.trans hfalse) (by decide)

theorem receive_client (h : s.Stage) {bytes : List UInt8}
    (hstep : s.step (.receive .client bytes) = some t) : t.Stage := by
  obtain ⟨p, hp, rfl⟩ := Option.map_eq_some_iff.1 hstep
  obtain ⟨hreads, rfl⟩ := ProxySession.receive_eq_some hp
  cases h with
  | accepting _ hzero => exact absurd hzero (Nat.ne_of_gt hreads)
  | resting hacc hread hwrites hsent =>
      exact .resting hacc (hread.store hreads bytes) hwrites hsent
  | direct _ hzero => exact absurd hzero (Nat.ne_of_gt hreads)

theorem read_client (h : s.Stage) (hstep : s.step (.read .client) = some t) : t.Stage := by
  obtain ⟨⟨n, p⟩, hp, rfl⟩ := Option.map_eq_some_iff.1 hstep
  obtain ⟨rest, harrived, rfl⟩ := ProxySession.takeRead_eq_some hp
  cases h with
  | accepting _ _ hempty => exact nomatch harrived.symm.trans hempty
  | @resting handled hacc hread hwrites hsent =>
      obtain ⟨hreads, rfl, hreceived⟩ := hread.of_arrived harrived
      refine .direct (w := ⟨some .client, ⟨0, n, []⟩, .serverWrite, region s.first.buffer 0 n⟩)
        hacc hreads rfl ?_ ⟨rfl, rfl, Cursor.reads_start 0 n⟩ hreceived ?_
      · show s.second.writes ++ _ = _
        rw [hwrites]
        rfl
      · show s.second.sent = handled.flatten ++ []
        rw [hsent, List.append_nil]
  | direct _ _ hempty => exact nomatch harrived.symm.trans hempty

theorem of_write (h : s.Stage) {i : Nat} {w : Write Side} (hw : s.second.writes[i]? = some w) :
    i = 0 ∧ s.accepting = false ∧ s.first.reads = 0 ∧ s.first.arrived = [] ∧
      s.second.writes = [w] ∧ w.Direct .client s.first.buffer ∧
      ∃ handled : List (List UInt8), s.first.received = handled ++ [w.content] ∧
        s.second.sent = handled.flatten ++ w.cursor.done := by
  cases h with
  | accepting _ _ _ _ _ hwrites => simp [hwrites] at hw
  | resting _ _ hwrites => simp [hwrites] at hw
  | direct hacc hreads harrived hwrites hdirect hreceived hsent =>
      rw [hwrites, List.getElem?_singleton] at hw
      obtain ⟨hi, hw⟩ := Option.ite_none_right_eq_some.1 hw
      cases hw
      exact ⟨hi, hacc, hreads, harrived, hwrites, hdirect, _, hreceived, hsent⟩

theorem transfer_server (h : s.Stage) {i : Nat} {bytes : List UInt8}
    (hstep : s.step (.transfer .server i bytes) = some t) : t.Stage := by
  obtain ⟨p, hp, rfl⟩ := Option.map_eq_some_iff.1 hstep
  obtain ⟨w, hw, hgives, rfl⟩ := ProxySession.transfer_eq_some hp
  obtain ⟨rfl, hacc, hreads, harrived, hwrites, hdirect, handled, hreceived, hsent⟩ :=
    h.of_write hw
  refine .direct (w := w.take bytes) hacc hreads harrived ?_
    ⟨hdirect.source, hdirect.handler, ?_⟩ hreceived ?_
  · show s.second.writes.set 0 _ = _
    rw [hwrites]
    rfl
  · refine Write.reads_take hgives ?_ hdirect.reads
    rw [hdirect.source]
    rfl
  · show s.second.sent ++ bytes = _ ++ (w.cursor.done ++ bytes)
    rw [hsent, List.append_assoc]

theorem written_server (h : s.Stage) {i : Nat} (hstep : s.step (.written .server i) = some t) :
    t.Stage := by
  obtain ⟨⟨w, p⟩, hp, rfl⟩ := Option.map_eq_some_iff.1 hstep
  obtain ⟨hw, hdone, rfl⟩ := ProxySession.takeWrite_eq_some hp
  obtain ⟨rfl, hacc, hreads, harrived, hwrites, hdirect, handled, hreceived, hsent⟩ :=
    h.of_write hw
  dsimp only
  rw [hdirect.handler]
  refine .resting hacc (.waiting (congrArg (· + 1) hreads) harrived hreceived) ?_ ?_
  · show s.second.writes.eraseIdx 0 = _
    rw [hwrites]
    rfl
  · show s.second.sent = _
    rw [hsent, hdirect.reads.eq_of_length hdone, List.flatten_append]
    simp

end Stage

namespace Same

theorem read_server (hstep : s.step (.read .server) = some t) : s.Same t := by
  obtain ⟨⟨n, p⟩, hp, rfl⟩ := Option.map_eq_some_iff.1 hstep
  obtain ⟨rest, -, rfl⟩ := ProxySession.takeRead_eq_some hp
  refine ⟨rfl, rfl, rfl, rfl, fun hs w hw => ?_⟩
  rcases List.mem_append.1 hw with hw | hw
  · exact hs w hw
  · exact List.mem_singleton.1 hw ▸ rfl

theorem transfer_client {i : Nat} {bytes : List UInt8}
    (hstep : s.step (.transfer .client i bytes) = some t) : s.Same t := by
  obtain ⟨p, hp, rfl⟩ := Option.map_eq_some_iff.1 hstep
  obtain ⟨w, hw, -, rfl⟩ := ProxySession.transfer_eq_some hp
  refine ⟨rfl, rfl, rfl, rfl, fun hs v hv => ?_⟩
  rcases List.mem_or_eq_of_mem_set hv with hv | rfl
  · exact hs v hv
  · exact hs w (List.mem_of_getElem? hw)

theorem written_client {i : Nat} (hc : s.Careful (.written .client i))
    (hstep : s.step (.written .client i) = some t) : s.Same t := by
  obtain ⟨⟨w, p⟩, hp, rfl⟩ := Option.map_eq_some_iff.1 hstep
  obtain ⟨hw, -, rfl⟩ := ProxySession.takeWrite_eq_some hp
  dsimp only
  cases hhandler : w.handler with
  | serverWrite => exact absurd hhandler (hc w hw)
  | clientWrite => exact ⟨rfl, rfl, rfl, rfl, fun hs v hv => hs v (List.mem_of_mem_eraseIdx hv)⟩
  | acceptorQueue => exact ⟨rfl, rfl, rfl, rfl, fun hs v hv => hs v (List.mem_of_mem_eraseIdx hv)⟩

end Same

theorem Stage.step (h : s.Stage) {e : Event} (hc : s.Careful e) (hstep : s.step e = some t) :
    t.Stage := by
  cases e with
  | accept => exact h.accept hstep
  | connect =>
      obtain ⟨-, hstep⟩ := Option.ite_none_right_eq_some.1 hstep
      cases hstep
      exact h.of_same ⟨rfl, rfl, rfl, rfl, fun hs => hs⟩
  | receive e bytes =>
      cases e with
      | client => exact h.receive_client hstep
      | server =>
          obtain ⟨p, hp, rfl⟩ := Option.map_eq_some_iff.1 hstep
          obtain ⟨-, rfl⟩ := ProxySession.receive_eq_some hp
          exact h.of_same ⟨rfl, rfl, rfl, rfl, fun hs => hs⟩
  | read e =>
      cases e with
      | client => exact h.read_client hstep
      | server => exact h.of_same (.read_server hstep)
  | transfer e i bytes =>
      cases e with
      | client => exact h.of_same (.transfer_client hstep)
      | server => exact h.transfer_server hstep
  | written e i =>
      cases e with
      | client => exact h.of_same (.written_client hc hstep)
      | server => exact h.written_server hstep

theorem stage_of_reachable (h : system.ReachableWhile Careful s) : s.Stage := by
  refine h.invariant ?_ fun _ _ _ hs hc ht => hs.step hc ht
  rintro s rfl
  exact .accepting rfl rfl rfl rfl (by simp) rfl rfl

/-- As long as no completion of a response is handled the discipline holds, and
the first one that is handled breaks it. -/
theorem disciplined_iff_careful (h : system.ReachableWhile Careful s) :
    s.Disciplined ∧ ∀ e t, s.step e = some t → (t.Disciplined ↔ s.Careful e) := by
  have hs := stage_of_reachable h
  refine ⟨hs.disciplined, fun e t ht => ⟨fun hd => ?_, fun hc => (hs.step hc ht).disciplined⟩⟩
  by_contra hc
  exact hs.not_disciplined hc ht hd

end Steps

/-- Two chunks are written to the server; no response is taken by its socket. -/
def silentRun : List Event :=
  [.accept, .connect, .receive .client [1, 2], .read .client, .transfer .server 0 [1, 2],
    .written .server 0, .receive .client [3], .read .client, .transfer .server 0 [3],
    .written .server 0]

theorem silentRun_disciplined : ∃ s, system.execWhile Careful {} silentRun = some s ∧
    s.Disciplined ∧ s.second.sent = [1, 2, 3] := by
  have hrun : (system.execWhile Careful {} silentRun).map (fun s => s.second.sent) =
      some [1, 2, 3] := by decide +kernel
  obtain ⟨s, hs, hsent⟩ := Option.map_eq_some_iff.1 hrun
  exact ⟨s, hs, (disciplined_iff_careful (System.ReachableWhile.execWhile (.init rfl) hs)).1,
    hsent⟩

/-- The response to the first chunk is written before the chunk, and the next
chunk is stored over it. -/
def answeredRun : List Event :=
  [.accept, .connect, .receive .client [1], .read .client, .transfer .client 0 [0],
    .written .client 0, .receive .client [2], .transfer .server 0 [2]]

/-- The buffer has been read into while it was being written, and the server is
sent what the client has not sent first. -/
theorem answeredRun_not_disciplined : ∃ s, system.exec {} answeredRun = some s ∧
    s.first.received = [[1], [2]] ∧ s.second.sent = [2] ∧ ¬ s.Disciplined := by
  have hrun : (system.exec {} answeredRun).map (fun s => (s.first.received, s.second.sent)) =
      some ([[1], [2]], [2]) := by decide +kernel
  obtain ⟨s, hs, hview⟩ := Option.map_eq_some_iff.1 hrun
  simp only [Prod.mk.injEq] at hview
  refine ⟨s, hs, hview.1, hview.2, fun h => ?_⟩
  have hprefix := h.ordered
  rw [hview.1, hview.2] at hprefix
  exact absurd hprefix (by decide)

end ProxyClient

end ProxyPrinter
