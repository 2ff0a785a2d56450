import Mathlib.Data.List.InsertIdx
import BoostSamples.Buffer.Streambuf
import BoostSamples.OpenNat.Framing
import BoostSamples.OpenNat.SocketWrites

/-!
# The bytes of a relayed frame

`SendP2P` hands the frame to an asynchronous write as a region of the sender's
stream buffer, and then consumes the frame and starts the next read of the
sender. The write goes on reading its region while the buffer is prepared for
that read and the bytes of the following frames are stored in it. The bytes of
the frame are written as long as no read touches the part of the region that is
not written yet.

The handlers here are those of the server, on the frames that the stream
buffers hold; `parse` is the parser of the protocol buffers.
-/

namespace OpenNat

open Buffer Framing Transition

/-- A write of `SendP2P`: the region it was given, what it has written, and the
frame that the region held when the write was started. -/
structure RelayWrite where
  sender : ConnId
  dest : ConnId
  cursor : Cursor UInt8
  frame : Buff

/-- The write goes on by a number of bytes, read from the memory it was given. -/
def RelayWrite.advance (w : RelayWrite) (memory : Nat → UInt8) (n : Nat) : RelayWrite :=
  { w with cursor := w.cursor.advance memory n }

def Frame.isP2P (frame : Frame) : Bool :=
  frame.command.any fun cmd => cmd.protocol = .p2p && cmd.p2p.isSome

structure RelayBuffers where
  server : Server := {}
  stream : ConnId → Streambuf UInt8 := fun _ => ⟨fun _ => 0, 0, 0⟩
  /-- The outstanding read has been given a part of the buffer to store to. -/
  prepared : ConnId → Bool := fun _ => false
  /-- `SetBytesTransferred`. -/
  transferred : ConnId → Nat := fun _ => 0
  /-- Writes of `SendProxy` in progress: the sender and the number of bytes. -/
  relays : List (ConnId × Nat) := []
  /-- Writes of `SendP2P` in progress. -/
  writes : List RelayWrite := []
  /-- Writes of `SendP2P` completed. -/
  sent : List RelayWrite := []

namespace RelayBuffers

/-- What can happen to the buffers; `server` stands for the events that leave
them alone. -/
inductive Event
  | server (e : Server.Event)
  | prepare (c : ConnId) (memory : Nat → UInt8) (next : Nat)
  | commit (c : ConnId) (bytes : Buff)
  | receive (c : ConnId)
  | receiveProxy (c : ConnId)
  | relayDone (i : Nat) (ok : Bool)
  | progress (i n : Nat)
  | p2pDone (i : Nat) (ok : Bool)

/-- The event of the server needs the bytes of a frame or of a write. -/
def onBytes : Server.Event → Bool
  | .arrive _ _ | .receive _ | .receiveProxy _ | .relayDone _ _ | .p2pDone _ _ => true
  | _ => false

def reading (s : RelayBuffers) (c : ConnId) : Bool :=
  0 < (s.server.conns c).receives || 0 < (s.server.conns c).proxyReceives

def setStream (s : RelayBuffers) (c : ConnId) (b : Streambuf UInt8) : RelayBuffers :=
  { s with stream := Function.update s.stream c b }

/-- The next frame in the buffer of a connection, with its number of bytes. -/
def nextFrame (parse : Buff → Option Command) (s : RelayBuffers) (c : ConnId) :
    Option (Nat × Frame) :=
  (firstEnd delimiter (s.stream c).input).map fun bytes =>
    (bytes, ⟨parse ((s.stream c).input.take (bytes - delimiter.length)), .stray⟩)

/-- The read handler of `Server::Receive` on a frame. -/
def receive (s : RelayBuffers) (c : ConnId) (bytes : Nat) (frame : Frame) : RelayBuffers :=
  match (s.server.takeReceive c).handleReceive c frame with
  | .error server => { s with server := server.receiveCatch c }
  | .ok server =>
      { s.setStream c ((s.stream c).consume bytes) with
        server := server
        transferred := if frame.isP2P then Function.update s.transferred c bytes else s.transferred
        writes := s.writes ++ (s.server.p2pDestOf frame).toList.map fun dest =>
          ⟨c, dest, ⟨(s.stream c).next, bytes, []⟩, (s.stream c).input.take bytes⟩ }

/-- The read handler of `Server::ReceiveProxy` on a frame. -/
def receiveProxy (s : RelayBuffers) (c : ConnId) (bytes : Nat) (frame : Frame) : RelayBuffers :=
  let transferred := Function.update s.transferred c bytes
  match (s.server.takeReceiveProxy c).handleReceiveProxy c frame with
  | .error server => { s with server := server.receiveProxyCatch c }
  | .ok server =>
      { s with
        server := server
        transferred := transferred
        relays := s.relays ++ (s.server.membership.relayEnds c).toList.map fun ends =>
          (ends.1, transferred ends.1) }

def handle (parse : Buff → Option Command) (s : RelayBuffers) : Event → Option RelayBuffers
  | .server e =>
      if onBytes e then none else (s.server.step e).map fun server => { s with server := server }
  | .prepare c memory next =>
      if s.reading c ∧ s.prepared c = false ∧ firstEnd delimiter (s.stream c).input = none ∧
          (s.stream c).Prepares memory next then
        some { s.setStream c ((s.stream c).prepare memory next) with
          prepared := Function.update s.prepared c true }
      else none
  | .commit c bytes =>
      if s.reading c ∧ s.prepared c ∧ (s.server.conns c).session.isOpen then
        some { s.setStream c ((s.stream c).commit bytes) with
          prepared := Function.update s.prepared c false }
      else none
  | .receive c =>
      if 0 < (s.server.conns c).receives ∧ s.prepared c = false then
        (s.nextFrame parse c).map fun (bytes, frame) => s.receive c bytes frame
      else none
  | .receiveProxy c =>
      if 0 < (s.server.conns c).proxyReceives ∧ s.prepared c = false then
        (s.nextFrame parse c).map fun (bytes, frame) => s.receiveProxy c bytes frame
      else none
  | .relayDone i ok =>
      (s.relays[i]?).bind fun (c, bytes) =>
        (s.server.step (.relayDone c ok)).map fun server =>
          { s.setStream c (if ok then (s.stream c).consume bytes else s.stream c) with
            server := server
            relays := s.relays.eraseIdx i }
  | .progress i n =>
      (s.writes[i]?).bind fun w =>
        if w.cursor.done.length + n ≤ w.cursor.size then
          some { s with writes := s.writes.set i (w.advance (s.stream w.sender).memory n) }
        else none
  | .p2pDone i ok =>
      (s.writes[i]?).bind fun w =>
        if ok → w.cursor.done.length = w.cursor.size then
          (s.server.step (.p2pDone i ok)).map fun server =>
            { s with
              server := server
              writes := s.writes.eraseIdx i
              sent := if ok then s.sent ++ [w] else s.sent }
        else none

/-- The event is handled on the strand; so are the reads and writes of the
composed operations, whose handlers it wraps. -/
def Event.onStrand : Event → Bool
  | .server e => e.onStrand
  | _ => true

/-- One step: a crashed server does nothing, and a blocked strand runs none of
its handlers. -/
def step (parse : Buff → Option Command) (s : RelayBuffers) (e : Event) : Option RelayBuffers :=
  if s.server.fault ∨ (s.server.hung ∧ e.onStrand) then none else s.handle parse e

def system (parse : Buff → Option Command) : System RelayBuffers Event where
  init s := s = {}
  step := step parse

/-- Each write has written a beginning of its frame, and the whole frame when it
is completed. -/
structure Faithful (s : RelayBuffers) : Prop where
  writes : ∀ w ∈ s.writes, w.cursor.done <+: w.frame
  sent : ∀ w ∈ s.sent, w.cursor.done = w.frame

/-- A read leaves alone what the writes from its buffer have not written yet. -/
def Undisturbed (s : RelayBuffers) : Event → Prop
  | .prepare c memory _ => ∀ w ∈ s.writes, w.sender = c →
      w.cursor.unread memory = w.cursor.unread (s.stream c).memory
  | .commit c bytes => ∀ w ∈ s.writes, w.sender = c →
      w.cursor.unread ((s.stream c).commit bytes).memory = w.cursor.unread (s.stream c).memory
  | _ => True

instance (s : RelayBuffers) (e : Event) : Decidable (s.Undisturbed e) := by
  cases e <;> unfold Undisturbed <;> infer_instance

section Server

open Server

/-- `Receive` starts a write of `SendP2P` if the frame has a destination. -/
theorem p2pWrites_handleReceive {s t : Server} {c : ConnId} {frame : Frame}
    (h : s.handleReceive c frame = .ok t) :
    t.p2pWrites = s.p2pWrites ++ (s.p2pDestOf frame).toList.map fun dest => (dest, c) := by
  unfold handleReceive at h
  cases hcommand : frame.command with
  | none =>
      simp only [hcommand] at h
      cases h
  | some cmd =>
      simp only [hcommand] at h
      split at h
      · next p2p hprotocol hp2p =>
          split at h
          · cases h
          · next clientId hto =>
              cases h
              rw [p2pDestOf_of_p2p hcommand hprotocol hp2p hto]
              unfold sendP2P
              cases s.stunMgr.find clientId with
              | none =>
                  rw [Option.toList_none, List.map_nil, List.append_nil]
                  exact (Quiet.send s _ _ _).p2pWrites
              | some dest => rfl
      · next hnot =>
          have hnone : s.p2pDestOf frame = none := by
            simp only [p2pDestOf, hcommand]
          rw [hnone, Option.toList_none, List.map_nil, List.append_nil]
          split at h
          · cases h
          · next s' hprocess =>
              cases h
              exact (Quiet.deaf.processed (processed_of_ok hprocess)).p2pWrites
          · next s' hprocess =>
              cases h
              exact (Quiet.deaf.processed (processed_of_ok hprocess)).p2pWrites

theorem p2pWrites_handleReceiveProxy {s t : Server} {c : ConnId} {frame : Frame}
    (h : s.handleReceiveProxy c frame = .ok t) : t.p2pWrites = s.p2pWrites := by
  obtain ⟨p, d, -, -, rfl⟩ := handleReceiveProxy_ok h
  cases p.get d <;> cases p.get d.other <;> rfl

theorem p2pWrites_p2pDone {s t : Server} {i : Nat} {ok : Bool}
    (h : s.step (.p2pDone i ok) = some t) : t.p2pWrites = s.p2pWrites.eraseIdx i := by
  obtain ⟨-, -, heffect⟩ := effect_of_step h
  cases heffect with
  | p2pDone hwrites =>
      rw [hwrites, List.eraseIdx_append_of_length_le (Nat.le_refl _)]
      simp
  | p2pFail hwrites =>
      rw [(Quiet.send _ _ _ _).p2pWrites, hwrites,
        List.eraseIdx_append_of_length_le (Nat.le_refl _)]
      simp

theorem p2pWrites_of_step {s t : Server} {e : Server.Event} (h : s.step e = some t)
    (hreceive : ∀ c, e ≠ .receive c) (hdone : ∀ i ok, e ≠ .p2pDone i ok) :
    t.p2pWrites = s.p2pWrites := by
  obtain ⟨-, -, heffect⟩ := effect_of_step h
  cases writeStep_of_effect heffect with
  | quiet _ hquiet => exact hquiet.p2pWrites
  | send _ _ hp2p _ => exact hp2p
  | sent _ _ hp2p _ => exact hp2p
  | p2p => exact absurd rfl (hreceive _)
  | p2pDone => exact absurd rfl (hdone _ _)

end Server

/-- The writes in progress are those of the server; each has written the
beginning of its frame and finds the rest of it in its region. -/
structure Tracked (s : RelayBuffers) : Prop where
  server : s.server.p2pWrites = s.writes.map fun w => (w.dest, w.sender)
  writes : ∀ w ∈ s.writes, w.cursor.Reads (s.stream w.sender).memory w.frame
  sent : ∀ w ∈ s.sent, w.cursor.done = w.frame

namespace Tracked

variable {parse : Buff → Option Command} {s t : RelayBuffers}

theorem init : Tracked {} where
  server := rfl
  writes _ h := (nomatch h)
  sent _ h := (nomatch h)

theorem setStream (h : s.Tracked) {c : ConnId} {b : Streambuf UInt8}
    (hb : ∀ w ∈ s.writes, w.sender = c →
      w.cursor.unread b.memory = w.cursor.unread (s.stream c).memory) :
    (s.setStream c b).Tracked where
  server := h.server
  writes w hw := by
    have hreads := h.writes w hw
    by_cases hc : w.sender = c
    · subst hc
      simpa [RelayBuffers.setStream] using hreads.congr (hb w hw rfl)
    · simpa [RelayBuffers.setStream, hc] using hreads
  sent := h.sent

theorem consume (h : s.Tracked) (c : ConnId) (n : Nat) :
    (s.setStream c ((s.stream c).consume n)).Tracked :=
  h.setStream fun _ _ _ => rfl

theorem receive (h : s.Tracked) {c : ConnId} {bytes : Nat} (hbytes : bytes ≤ (s.stream c).size)
    (frame : Frame) : (s.receive c bytes frame).Tracked := by
  unfold RelayBuffers.receive
  split
  · next server herror =>
      obtain rfl := Server.handleReceive_error herror
      refine ⟨?_, h.writes, h.sent⟩
      have hquiet : s.server.Quiet ((s.server.takeReceive c).receiveCatch c) :=
        (Server.Quiet.modify s.server c _).trans (Server.Quiet.receiveCatch _ c)
      exact hquiet.p2pWrites.trans h.server
  · next server hok =>
      have hserver := p2pWrites_handleReceive hok
      have hconsume := h.consume c bytes
      refine ⟨?_, fun w hw => ?_, h.sent⟩
      · simp only [List.map_append, List.map_map]
        rw [hserver]
        exact congrArg₂ (· ++ ·) h.server rfl
      · rcases List.mem_append.1 hw with hw | hw
        · exact hconsume.writes w hw
        · obtain ⟨dest, -, rfl⟩ := List.mem_map.1 hw
          have htake : (s.stream c).input.take bytes =
              region (s.stream c).memory (s.stream c).next bytes := take_region hbytes
          simp only [RelayBuffers.setStream, Function.update_self, Streambuf.memory_consume, htake]
          exact Cursor.reads_start _ _

theorem receiveProxy (h : s.Tracked) (c : ConnId) (bytes : Nat) (frame : Frame) :
    (s.receiveProxy c bytes frame).Tracked := by
  unfold RelayBuffers.receiveProxy
  dsimp only
  split
  · next server herror =>
      obtain rfl := Server.handleReceiveProxy_error herror
      have hquiet : s.server.Quiet ((s.server.takeReceiveProxy c).receiveProxyCatch c) :=
        (Server.Quiet.modify s.server c _).trans (Server.Quiet.deaf.removeProxy _ _)
      exact ⟨hquiet.p2pWrites.trans h.server, h.writes, h.sent⟩
  · next server hok =>
      exact ⟨(p2pWrites_handleReceiveProxy hok).trans h.server, h.writes, h.sent⟩

theorem step (h : s.Tracked) {e : Event} (he : s.Undisturbed e)
    (hstep : s.step parse e = some t) : t.Tracked := by
  obtain ⟨-, hstep⟩ := Option.ite_none_left_eq_some.1 hstep
  cases e with
  | server e =>
      obtain ⟨hbytes, hstep⟩ := Option.ite_none_left_eq_some.1 hstep
      obtain ⟨server, hserver, rfl⟩ := Option.map_eq_some_iff.1 hstep
      refine ⟨?_, h.writes, h.sent⟩
      refine (p2pWrites_of_step hserver ?_ ?_).trans h.server
      · rintro c rfl
        exact hbytes rfl
      · rintro i ok rfl
        exact hbytes rfl
  | prepare c memory next =>
      obtain ⟨-, hstep⟩ := Option.ite_none_right_eq_some.1 hstep
      obtain rfl := Option.some.inj hstep
      have hprepare := h.setStream (b := (s.stream c).prepare memory next) he
      exact ⟨hprepare.server, hprepare.writes, hprepare.sent⟩
  | commit c bytes =>
      obtain ⟨-, hstep⟩ := Option.ite_none_right_eq_some.1 hstep
      obtain rfl := Option.some.inj hstep
      have hcommit := h.setStream (b := (s.stream c).commit bytes) he
      exact ⟨hcommit.server, hcommit.writes, hcommit.sent⟩
  | receive c =>
      obtain ⟨-, hstep⟩ := Option.ite_none_right_eq_some.1 hstep
      obtain ⟨⟨bytes, frame⟩, hframe, rfl⟩ := Option.map_eq_some_iff.1 hstep
      obtain ⟨n, hn, heq⟩ := Option.map_eq_some_iff.1 hframe
      obtain ⟨rfl, -⟩ := Prod.mk.inj heq
      have hle := firstEnd_le_length delimiter_ne_nil hn
      exact h.receive (by rwa [Streambuf.length_input] at hle) frame
  | receiveProxy c =>
      obtain ⟨-, hstep⟩ := Option.ite_none_right_eq_some.1 hstep
      obtain ⟨⟨bytes, frame⟩, -, rfl⟩ := Option.map_eq_some_iff.1 hstep
      exact h.receiveProxy c bytes frame
  | relayDone i ok =>
      obtain ⟨⟨c, bytes⟩, -, hstep⟩ := Option.bind_eq_some_iff.1 hstep
      obtain ⟨server, hserver, rfl⟩ := Option.map_eq_some_iff.1 hstep
      have hstream : (s.setStream c
          (if ok then (s.stream c).consume bytes else s.stream c)).Tracked :=
        h.setStream fun _ _ _ => by cases ok <;> rfl
      have hp2p := p2pWrites_of_step hserver nofun nofun
      exact ⟨hp2p.trans h.server, hstream.writes, h.sent⟩
  | progress i n =>
      obtain ⟨w, hw, hstep⟩ := Option.bind_eq_some_iff.1 hstep
      obtain ⟨hn, hstep⟩ := Option.ite_none_right_eq_some.1 hstep
      obtain rfl := Option.some.inj hstep
      obtain ⟨before, after, hlist, -, hset, -⟩ := exists_append_of_getElem? hw
      refine ⟨?_, fun w' hw' => ?_, h.sent⟩
      · simp only [hset]
        rw [h.server, hlist]
        simp [RelayWrite.advance]
      · simp only [hset] at hw'
        have hold := h.writes
        rw [hlist] at hold
        rcases List.mem_append.1 hw' with hmem | hmem
        · exact hold w' (List.mem_append_left _ hmem)
        · rcases List.mem_cons.1 hmem with rfl | hmem
          · exact (hold w (by simp)).advance hn
          · exact hold w' (List.mem_append_right _ (List.mem_cons_of_mem _ hmem))
  | p2pDone i ok =>
      obtain ⟨w, hw, hstep⟩ := Option.bind_eq_some_iff.1 hstep
      obtain ⟨hall, hstep⟩ := Option.ite_none_right_eq_some.1 hstep
      obtain ⟨server, hserver, rfl⟩ := Option.map_eq_some_iff.1 hstep
      refine ⟨?_, fun w' hw' => h.writes w' (List.mem_of_mem_eraseIdx hw'), fun w' hw' => ?_⟩
      · rw [p2pWrites_p2pDone hserver, h.server, List.eraseIdx_map]
      · cases ok with
        | false => exact h.sent w' hw'
        | true =>
            rcases List.mem_append.1 hw' with hmem | hmem
            · exact h.sent w' hmem
            · rw [List.mem_singleton.1 hmem]
              exact (h.writes w (List.mem_of_getElem? hw)).eq_of_length (hall rfl)

end Tracked

/-- In every run whose reads leave the unwritten parts of the relayed frames
alone, the frames are written as they were received. -/
theorem faithful_of_reachable {parse : Buff → Option Command} {s : RelayBuffers}
    (h : (system parse).ReachableWhile Undisturbed s) : s.Faithful := by
  have htracked : s.Tracked := h.invariant (fun _ hs => hs ▸ Tracked.init)
    fun _ _ _ hs he hstep => hs.step he hstep
  exact ⟨fun w hw => (htracked.writes w hw).isPrefix, htracked.sent⟩

/-- A uuid without dashes whose last digit is given. -/
def uuidText (digit : UInt8) : Buff := List.replicate 31 0x30 ++ [digit]

def readUuid (text : Buff) : UuidText :=
  if text.length = 32 ∧ text.take 31 = List.replicate 31 0x30 then
    text.getLast?.map fun digit => BitVec.ofNat 128 (digit.toNat - 0x30)
  else none

def stunBytes (digit : UInt8) : Buff :=
  [0x08, 0x01, 0x12, 0x26, 0x08, 0x01, 0x10, 0x04, 0x1a, 0x20] ++ uuidText digit

def p2pBytes (digit data : UInt8) : Buff :=
  [0x08, 0x02, 0x1a, 0x27, 0x08, 0x04, 0x22, 0x20] ++ uuidText digit ++ [0x3a, 0x01, data]

def parseBytes : Buff → Option Command
  | 0x08 :: 0x01 :: 0x12 :: _ :: 0x08 :: 0x01 :: 0x10 :: 0x04 :: 0x1a :: _ :: text =>
      some { protocol := .connect
             connect := some
               { protocol := .request, kind := .stun, clientId := readUuid text } }
  | 0x08 :: 0x02 :: 0x1a :: _ :: 0x08 :: 0x04 :: 0x22 :: _ :: rest =>
      some { protocol := .p2p
             p2p := some { protocol := .data
                           toId := readUuid (rest.take 32)
                           data := some (rest.drop 34) } }
  | _ => none

/-- The memory of a new buffer in which some bytes have been stored. -/
def memoryOf (bytes : Buff) : Nat → UInt8 := fun i => bytes.getD i 0

/-- An empty buffer is prepared from its start, with what is left of the last
frame, and the next frame is read. -/
def readRun (c : ConnId) (last next : Buff) : List Event :=
  [.prepare c (memoryOf last) 0, .commit c (next ++ delimiter)]

/-- A client registers. -/
def stunRun (c : ConnId) (digit : UInt8) : List Event :=
  .server (.accept c) :: readRun c [] (stunBytes digit) ++ [.receive c]

/-- Client 2 relays a frame to client 1. -/
def relayRun : List Event :=
  stunRun 0 0x31 ++ stunRun 1 0x32 ++
    readRun 1 (stunBytes 0x32 ++ delimiter) (p2pBytes 0x31 0xaa) ++ [.receive 1]

def view (s : RelayBuffers) : List (Buff × Buff) :=
  (s.sent ++ s.writes).map fun w => (w.frame, w.cursor.done)

/-- The next frame of client 2 is read in place, behind the first, while the
first is being written. -/
def behindRun : List Event :=
  relayRun ++ [.progress 0 20, .prepare 1 (memoryOf (p2pBytes 0x31 0xaa ++ delimiter)) 50,
    .commit 1 (p2pBytes 0x31 0xbb ++ delimiter), .receive 1, .progress 0 30, .p2pDone 0 true,
    .progress 0 1]

/-- The first frame is then written as it was received, and the second has been
begun. -/
theorem behindRun_faithful : ∃ s, (system parseBytes).execWhile Undisturbed {} behindRun = some s ∧
    s.Faithful ∧ s.view = [(p2pBytes 0x31 0xaa ++ delimiter, p2pBytes 0x31 0xaa ++ delimiter),
      (p2pBytes 0x31 0xbb ++ delimiter, [0x08])] := by
  have hrun : ((system parseBytes).execWhile Undisturbed {} behindRun).map view =
      some [(p2pBytes 0x31 0xaa ++ delimiter, p2pBytes 0x31 0xaa ++ delimiter),
        (p2pBytes 0x31 0xbb ++ delimiter, [0x08])] := by
    decide +kernel
  obtain ⟨s, hs, hview⟩ := Option.map_eq_some_iff.1 hrun
  exact ⟨s, hs, faithful_of_reachable (System.ReachableWhile.execWhile (.init rfl) hs), hview⟩

/-- The buffer is empty, so the next frame of client 2 is read to its start,
before the first has been written. -/
def overwriteRun : List Event :=
  relayRun ++ readRun 1 (p2pBytes 0x31 0xaa ++ delimiter) (p2pBytes 0x31 0xbb) ++ [.progress 0 50]

/-- What has been written to client 1 is then the second frame. -/
theorem overwriteRun_not_faithful :
    ∃ s, (system parseBytes).Reachable s ∧ ¬ s.Faithful := by
  have hrun : ((system parseBytes).exec {} overwriteRun).map view =
      some [(p2pBytes 0x31 0xaa ++ delimiter, p2pBytes 0x31 0xbb ++ delimiter)] := by
    decide +kernel
  obtain ⟨s, hs, hview⟩ := Option.map_eq_some_iff.1 hrun
  refine ⟨s, System.Reachable.exec (.init rfl) hs, fun h => ?_⟩
  have hmem : (p2pBytes 0x31 0xaa ++ delimiter, p2pBytes 0x31 0xbb ++ delimiter) ∈ s.view := by
    rw [hview]
    exact List.mem_singleton.2 rfl
  obtain ⟨w, hw, heq⟩ := List.mem_map.1 hmem
  obtain ⟨hframe, hdone⟩ := Prod.mk.inj heq
  have hprefix : w.cursor.done <+: w.frame := by
    rcases List.mem_append.1 hw with hsent | hwrites
    · rw [h.sent w hsent]
    · exact h.writes w hwrites
  rw [hframe, hdone] at hprefix
  exact absurd hprefix (by decide)

end RelayBuffers

end OpenNat
