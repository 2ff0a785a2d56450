import Mathlib.Data.List.Nodup
import BoostSamples.OpenProxy.Peers

/-!
# The handshake

Two peers log in to the two halves of a session and greet each other through the
proxy. A greeting whose opposite session is registered starts two writes, one in
each direction, and the second one reads the handshake buffer of the opposite
session. If the opposite peer is registered but its own greeting has not been
handled, that buffer is not a greeting and its length is not set.
-/

namespace OpenProxy

open Framing Registry Transition

/-- The proxy, and the bytes that the two peers still have to send. -/
structure Handshake where
  proxy : Proxy Side
  pending : Side → Buff

/-- A peer sends some of its bytes, or the proxy takes a step. -/
inductive HandshakeEvent
  | send (d : Side) (bytes : Nat)
  | proxy (e : ProxyEvent Side)
  deriving DecidableEq, Repr

namespace Handshake

section Model

variable (A : TextArchive) (P : Peers)

def start : Handshake where
  proxy := .start
  pending d := P.login A d ++ P.greet A d

def step (s : Handshake) : HandshakeEvent → Option Handshake
  | .send d bytes =>
      if 0 < bytes ∧ bytes ≤ (s.pending d).length then
        (s.proxy.step A (.arrive d ((s.pending d).take bytes))).map fun proxy =>
          { proxy := proxy
            pending := Function.update s.pending d ((s.pending d).drop bytes) }
      else none
  | .proxy e =>
      if e.isRegular then (s.proxy.step A e).map fun proxy => { s with proxy := proxy } else none

def system : System Handshake HandshakeEvent where
  init s := s = start A P
  step := step A

/-- A greeting is handled only while the opposite session is not registered, or
after the greeting of the opposite peer has been handled. -/
def GreetingInOrder (s : Handshake) : HandshakeEvent → Prop
  | .proxy (.handle d) =>
      s.proxy.AtGreeting A d → (s.proxy.half P d.other).isSome →
        (s.proxy.conns d.other).reader.isInitializing = false
  | _ => True

instance (s : Handshake) (e : HandshakeEvent) : Decidable (s.GreetingInOrder A P e) := by
  unfold GreetingInOrder
  split <;> infer_instance

/-- What the handshake is to satisfy: a peer is sent the greeting of the
opposite peer at most once and nothing else, it is ready only when it has been
sent all of it, and a greeting that has not been handled is still there. -/
structure Orderly (s : Handshake) : Prop where
  written : ∀ d, (s.proxy.conns d).outbound <+: P.greet A d.other
  ready : ∀ d, (s.proxy.conns d).session.isReady = true →
    (s.proxy.conns d).outbound = P.greet A d.other
  unread : ∀ d, (s.proxy.conns d).accepted = true →
    (s.proxy.conns d).reader.isInitializing = true →
    P.greet A d <:+
      (s.proxy.conns d).session.buffWrite ++ (s.proxy.conns d).inbound ++ s.pending d
  alive : s.proxy.fault = false ∧ ∀ d, (s.proxy.conns d).accepted = true →
    (s.proxy.conns d).session.isOpen = true

/-- The handshake is complete: both peers have been sent the greeting of the
other and are ready. -/
def Complete (s : Handshake) : Prop :=
  ∀ d, (s.proxy.conns d).outbound = P.greet A d.other ∧
    (s.proxy.conns d).session.isReady = true

end Model

variable {A : TextArchive} {P : Peers} {s t : Handshake} {d : Side}

inductive Move (A : TextArchive) (s : Handshake) : HandshakeEvent → Handshake → Prop
  | progress {e : HandshakeEvent} {d : Side} {x : Conn} {pending : Buff} :
      (s.proxy.conns d).Progress (s.pending d) x pending →
      Move A s e ⟨s.proxy.modify d fun _ => x, Function.update s.pending d pending⟩
  | accept {d : Side} {bytesRead bytesWrite : Nat} : (s.proxy.conns d).accepted = false →
      Move A s (.proxy (.accept d bytesRead bytesWrite)) { s with
        proxy := s.proxy.modify d fun _ =>
          { session := { bytesRead := bytesRead, bytesWrite := bytesWrite }
            accepted := true
            reader := .starting .initializing } }
  | handle {d : Side} {loop : Loop} {bytes : Nat} :
      (s.proxy.conns d).reader = .completed loop bytes →
      Move A s (.proxy (.handle d)) { s with
        proxy := (s.proxy.setReader d .idle).handleRead A d loop bytes }
  | write {i bytes : Nat} {before after : List (WriteOp Side)} {w : WriteOp Side} :
      s.proxy.writes = before ++ w :: after →
      Move A s (.proxy (.write i bytes)) { s with
        proxy := { s.proxy.modify w.dest fun x =>
            { x with outbound := x.outbound ++ w.rest.take bytes } with
          writes := before ++ { w with rest := w.rest.drop bytes } :: after } }
  | writeDone {i : Nat} {before after : List (WriteOp Side)} {w : WriteOp Side} :
      s.proxy.writes = before ++ w :: after → w.rest = [] →
      Move A s (.proxy (.writeDone i)) { s with
        proxy := { s.proxy with writes := before ++ after }.writeHandler w }

theorem move_of_step {e : HandshakeEvent} (h : step A s e = some t) :
    s.proxy.fault = false ∧ s.Move A e t := by
  cases e with
  | send d bytes =>
      obtain ⟨-, h⟩ := Option.ite_none_right_eq_some.1 h
      obtain ⟨p, hp, rfl⟩ := Option.map_eq_some_iff.1 h
      obtain ⟨hfault, heffect⟩ := Proxy.effect_of_step hp
      cases heffect with
      | arrive haccepted => exact ⟨hfault, .progress (.arrive haccepted)⟩
  | proxy e =>
      obtain ⟨hregular, h⟩ := Option.ite_none_right_eq_some.1 h
      obtain ⟨p, hp, rfl⟩ := Option.map_eq_some_iff.1 h
      obtain ⟨hfault, heffect⟩ := Proxy.effect_of_step hp
      refine ⟨hfault, ?_⟩
      cases heffect with
      | accept haccepted => exact .accept haccepted
      | arrive _ => cases hregular
      | @start c _ hreader =>
          have hmove : s.Move A (.proxy (.start c)) _ := .progress (.start hreader)
          rwa [Function.update_eq_self] at hmove
      | @read c bytes _ hreader _ _ _ =>
          have hmove : s.Move A (.proxy (.read c bytes)) _ :=
            .progress (.read (n := bytes) hreader)
          rwa [Function.update_eq_self] at hmove
      | handle hreader => exact .handle hreader
      | readFail _ => cases hregular
      | write hwrites _ _ _ => exact .write hwrites
      | writeDone hwrites hrest => exact .writeDone hwrites hrest
      | writeFail _ _ => cases hregular

inductive Stage
  | new
  | connected
  | loggedIn
  | greeted
  deriving DecidableEq

def AtStage (A : TextArchive) (P : Peers) (d : Side) (x : Conn) (pending : Buff) : Stage → Prop
  | .new => x.accepted = false ∧ x.reader = .idle ∧ x.inbound = [] ∧
      pending = P.login A d ++ P.greet A d
  | .connected => x.Collects .initializing pending (P.login A d ++ P.greet A d)
  | .loggedIn => x.Collects .initializing pending (P.greet A d) ∧ Named P d x.session
  | .greeted => x.Collects .receiving pending [] ∧ Named P d x.session

namespace AtStage

variable {x y : Conn} {pending pending' : Buff} {stage : Stage}

theorem progress (h : AtStage A P d x pending stage) (hprogress : x.Progress pending y pending') :
    AtStage A P d y pending' stage := by
  obtain ⟨-, -, hid, htype, -, -, -⟩ := hprogress.frame
  have hnamed : Named P d x.session → Named P d y.session := fun hx =>
    ⟨hid.trans hx.1, htype.trans hx.2⟩
  cases stage with
  | new =>
      obtain ⟨haccepted, hreader, -, -⟩ := h
      cases hprogress with
      | arrive hx => exact absurd (haccepted.symm.trans hx) (by decide)
      | start hx => cases hreader.symm.trans hx
      | read hx => cases hreader.symm.trans hx
  | connected => exact hprogress.collects h
  | loggedIn => exact ⟨hprogress.collects h.1, hnamed h.2⟩
  | greeted => exact ⟨hprogress.collects h.1, hnamed h.2⟩

theorem outbound (h : AtStage A P d x pending stage) {bytes : Buff} :
    AtStage A P d { x with outbound := bytes } pending stage := by
  cases stage with
  | new => exact h
  | connected => exact ⟨h.accepted, h.isOpen, h.reads, h.bytes, h.unused⟩
  | loggedIn => exact ⟨⟨h.1.accepted, h.1.isOpen, h.1.reads, h.1.bytes, h.1.unused⟩, h.2⟩
  | greeted => exact ⟨⟨h.1.accepted, h.1.isOpen, h.1.reads, h.1.bytes, h.1.unused⟩, h.2⟩

theorem eq_new (h : AtStage A P d x pending stage) (haccepted : x.accepted = false) :
    stage = .new := by
  cases stage with
  | new => rfl
  | connected => exact absurd (haccepted.symm.trans h.accepted) (by decide)
  | loggedIn => exact absurd (haccepted.symm.trans h.1.accepted) (by decide)
  | greeted => exact absurd (haccepted.symm.trans h.1.accepted) (by decide)

theorem completed {loop : Loop} {bytes : Nat} (h : AtStage A P d x pending stage)
    (hreader : x.reader = .completed loop bytes) :
    loop = .initializing ∧ ∃ left,
      (stage = .connected ∧ bytes = (P.login A d).length ∧
        x.session.buffWrite = P.login A d ++ left ∧
        left ++ x.inbound ++ pending = P.greet A d) ∨
      (stage = .loggedIn ∧ bytes = (P.greet A d).length ∧
        x.session.buffWrite = P.greet A d ++ left ∧ left ++ x.inbound ++ pending = []) := by
  cases stage with
  | new => cases h.2.1.symm.trans hreader
  | connected =>
      obtain ⟨rfl, hfound⟩ := h.reads.completed hreader
      have hbytes := h.bytes
      rw [List.append_assoc] at hbytes
      obtain ⟨rfl, left, hbuff, hleft⟩ := A.serialize_of_firstEnd hbytes hfound
      exact ⟨rfl, left, .inl ⟨rfl, rfl, hbuff, by rw [List.append_assoc, hleft]⟩⟩
  | loggedIn =>
      obtain ⟨rfl, hfound⟩ := h.1.reads.completed hreader
      have hbytes : x.session.buffWrite ++ (x.inbound ++ pending) = P.greet A d ++ [] := by
        rw [← List.append_assoc, List.append_nil]
        exact h.1.bytes
      obtain ⟨rfl, left, hbuff, hleft⟩ := A.serialize_of_firstEnd hbytes hfound
      exact ⟨rfl, left, .inr ⟨rfl, rfl, hbuff, by rw [List.append_assoc, hleft]⟩⟩
  | greeted =>
      obtain ⟨rfl, hfound⟩ := h.1.reads.completed hreader
      have hbuff := List.append_eq_nil_iff.1 (List.append_eq_nil_iff.1 h.1.bytes).1
      rw [hbuff.1] at hfound
      cases hfound

end AtStage

/-- Before both greetings have been handled nothing is written. A greeting that
has been handled alone is kept for the opposite peer. -/
structure Opening (A : TextArchive) (P : Peers) (s : Handshake) (stage : Side → Stage) :
    Prop where
  peer : ∀ d, AtStage A P d (s.proxy.conns d) (s.pending d) (stage d)
  half : ∀ d, s.proxy.half P d =
    if stage d = .loggedIn ∨ stage d = .greeted then some d else none
  quiet : ∀ d, (s.proxy.conns d).outbound = [] ∧ (s.proxy.conns d).session.isReady = false
  kept : ∀ d, stage d = .greeted → stage d.other ≠ .greeted ∧ s.proxy.readyBytes d = P.greet A d
  writes : s.proxy.writes = []
  fault : s.proxy.fault = false

/-- Once both have been handled, each peer is owed what is left of one write. -/
structure Exchanging (A : TextArchive) (P : Peers) (s : Handshake) : Prop where
  peer : ∀ d, AtStage A P d (s.proxy.conns d) (s.pending d) .greeted
  nodup : (s.proxy.writes.map WriteOp.dest).Nodup
  owed : ∀ w ∈ s.proxy.writes, w.kind = .ready ∧
    (s.proxy.conns w.dest).outbound ++ w.rest = P.greet A w.dest.other ∧
    (s.proxy.conns w.dest).session.isReady = false
  sent : ∀ d, d ∉ s.proxy.writes.map WriteOp.dest →
    (s.proxy.conns d).outbound = P.greet A d.other ∧
    (s.proxy.conns d).session.isReady = true
  fault : s.proxy.fault = false

theorem Opening.set {stage : Side → Stage} (h : s.Opening A P stage) (next : Stage) {x : Conn}
    {p : Buff} {m : PairMap Uuid Side}
    (hpeer : AtStage A P d x p next)
    (hhalf : (m.find P.sessionId).bind (·.get d) =
      if next = .loggedIn ∨ next = .greeted then some d else none)
    (hother : (m.find P.sessionId).bind (·.get d.other) = s.proxy.half P d.other)
    (hquiet : x.outbound = [] ∧ x.session.isReady = false)
    (hkept : next = .greeted → stage d.other ≠ .greeted ∧
      x.session.buffWrite.take x.session.bytesWrite = P.greet A d) :
    Opening A P
      ⟨{ s.proxy.modify d fun _ => x with proxyMgr := m }, Function.update s.pending d p⟩
      (Function.update stage d next) := by
  have hne := d.other_ne
  refine ⟨fun e => ?_, fun e => ?_, fun e => ?_, fun e he => ?_, h.writes, h.fault⟩
  · rcases d.eq_or_eq_other e with rfl | rfl
    · simpa [Proxy.modify] using hpeer
    · simpa [Proxy.modify, hne] using h.peer d.other
  · rcases d.eq_or_eq_other e with rfl | rfl
    · simpa [Proxy.half] using hhalf
    · simpa [Proxy.half, hne] using hother.trans (h.half d.other)
  · rcases d.eq_or_eq_other e with rfl | rfl
    · simpa [Proxy.modify] using hquiet
    · simpa [Proxy.modify, hne] using h.quiet d.other
  · rcases d.eq_or_eq_other e with rfl | rfl
    · simpa [Proxy.modify, Proxy.readyBytes, hne] using hkept (by simpa using he)
    · have hold := h.kept d.other (by simpa [hne] using he)
      have hnext : next ≠ .greeted := fun hnext => (hkept hnext).1 (by simpa [hne] using he)
      simpa [Proxy.modify, Proxy.readyBytes, hne, hnext] using hold.2

theorem Opening.login {stage : Side → Stage} (h : s.Opening A P stage) {left : Buff}
    (hstage : stage d = .connected)
    (hbuff : (s.proxy.conns d).session.buffWrite = P.login A d ++ left)
    (hleft : left ++ (s.proxy.conns d).inbound ++ s.pending d = P.greet A d) :
    ∃ stage', Opening A P { s with proxy :=
      (s.proxy.setReader d .idle).handleRead A d .initializing (P.login A d).length } stage' := by
  have hpeer := h.peer d
  have hhalf := h.half d
  rw [hstage] at hpeer
  rw [hstage, if_neg (by simp)] at hhalf
  obtain ⟨mgr, heq, hself, hother⟩ := Proxy.handle_login hbuff hhalf
  rw [heq]
  have hset := h.set (d := d) .loggedIn (m := mgr) (p := s.pending d)
    (x := { s.proxy.conns d with
      reader := .starting .initializing
      session := { (s.proxy.conns d).session with
        buffWrite := left
        clientId := P.clientId d
        id := P.sessionId
        type := streamType d } })
    ⟨⟨hpeer.accepted, hpeer.isOpen, .inl rfl, hleft, hpeer.unused⟩, rfl, rfl⟩
    (by simpa using hself) hother (h.quiet d) nofun
  rw [Function.update_eq_self] at hset
  exact ⟨_, hset⟩

theorem Opening.exchange {stage : Side → Stage} (h : s.Opening A P stage)
    (hgreeted : stage d.other = .greeted)
    (hnext : AtStage A P d
      { s.proxy.conns d with
        reader := .starting .receiving
        session := { (s.proxy.conns d).session with bytesWrite := (P.greet A d).length } }
      (s.pending d) .greeted) :
    Exchanging A P
      { s with proxy := s.proxy.greeted d (P.greet A d).length (s.proxy.exchange A P d) } := by
  have hne := d.other_ne
  have hwrites : (s.proxy.greeted d (P.greet A d).length (s.proxy.exchange A P d)).writes =
      s.proxy.exchange A P d := by
    rw [Proxy.greeted, h.writes, List.nil_append]
  refine ⟨fun e => ?_, ?_, ?_, fun e he => ?_, h.fault⟩
  · rcases d.eq_or_eq_other e with rfl | rfl
    · simpa [Proxy.greeted, Proxy.modify] using hnext
    · simpa [Proxy.greeted, Proxy.modify, hne, hgreeted] using h.peer d.other
  · rw [hwrites]
    simp [Proxy.exchange, hne]
  · rw [hwrites]
    simp only [Proxy.exchange, List.mem_cons, List.not_mem_nil, or_false, forall_eq_or_imp,
      forall_eq]
    refine ⟨⟨trivial, ?_, ?_⟩, trivial, ?_, ?_⟩
    · simp [Proxy.greeted, Proxy.modify, hne, (h.quiet d.other).1]
    · simp [Proxy.greeted, Proxy.modify, hne, (h.quiet d.other).2]
    · simp [Proxy.greeted, Proxy.modify, (h.quiet d).1, (h.kept d.other hgreeted).2]
    · simp [Proxy.greeted, Proxy.modify, (h.quiet d).2]
  · rw [hwrites] at he
    rcases d.eq_or_eq_other e with rfl | rfl <;> simp [Proxy.exchange] at he

/-- A greeting that is handled in order is kept for an opposite peer that is not
registered, or starts the exchange with one that has been greeted. -/
theorem Opening.greeting {stage : Side → Stage} (h : s.Opening A P stage) {left : Buff}
    (hstage : stage d = .loggedIn)
    (hreader : (s.proxy.conns d).reader = .completed .initializing (P.greet A d).length)
    (hbuff : (s.proxy.conns d).session.buffWrite = P.greet A d ++ left)
    (hleft : left ++ (s.proxy.conns d).inbound ++ s.pending d = [])
    (horder : s.GreetingInOrder A P (.proxy (.handle d))) :
    (∃ stage', Opening A P { s with proxy :=
      (s.proxy.setReader d .idle).handleRead A d .initializing (P.greet A d).length } stage') ∨
    Exchanging A P { s with proxy :=
      (s.proxy.setReader d .idle).handleRead A d .initializing (P.greet A d).length } := by
  have hpeer := h.peer d
  have hhalf := h.half d
  rw [hstage] at hpeer
  rw [hstage, if_pos (.inl rfl)] at hhalf
  have hother : ∀ c ∈ s.proxy.half P d.other, c = d.other := by
    rw [h.half d.other]
    split <;> simp
  obtain ⟨rfl, hinbound, hpending⟩ : left = [] ∧ (s.proxy.conns d).inbound = [] ∧
      s.pending d = [] := by simpa [and_assoc] using hleft
  rw [List.append_nil] at hbuff
  rw [Proxy.handle_greeting (show _ = P.greet A d ++ [] by simpa using hbuff) hpeer.2.1 hpeer.2.2
    hhalf hother]
  have hnext : AtStage A P d
      { s.proxy.conns d with
        reader := .starting .receiving
        session := { (s.proxy.conns d).session with bytesWrite := (P.greet A d).length } }
      (s.pending d) .greeted :=
    ⟨⟨hpeer.1.accepted, hpeer.1.isOpen, .inl rfl,
      by simp [Session.buff, hpeer.1.unused rfl, hinbound, hpending], nofun⟩, hpeer.2⟩
  by_cases hopposite : (s.proxy.half P d.other).isSome
  · have hgreeting : s.proxy.AtGreeting A d :=
      Proxy.atGreeting (show _ = P.greet A d ++ [] by simpa using hbuff) hreader
    have hlater := horder hgreeting hopposite
    have hgreeted : stage d.other = .greeted := by
      by_contra hne
      rw [h.half d.other] at hopposite
      have hloggedIn : stage d.other = .loggedIn := by
        by_contra hne'
        simp [hne, hne'] at hopposite
      have hearly := h.peer d.other
      rw [hloggedIn] at hearly
      rw [hearly.1.reads.isInitializing] at hlater
      cases hlater
    rw [if_pos hopposite]
    exact .inr (h.exchange hgreeted hnext)
  · refine .inl ?_
    have hset := h.set .greeted (m := s.proxy.proxyMgr) hnext
      (by simpa [Proxy.half] using hhalf) rfl (h.quiet d) fun _ => ⟨fun hgreeted => ?_, ?_⟩
    · rw [Function.update_eq_self] at hset
      rw [if_neg hopposite, Proxy.greeted, List.append_nil]
      exact ⟨_, hset⟩
    · rw [h.half d.other, if_pos (.inr hgreeted)] at hopposite
      exact hopposite rfl
    · simp [hbuff]

/-- One step of a handshake that is opening: a peer moves on, or the greeting of
the second one starts the exchange. -/
theorem Opening.move {stage : Side → Stage} (h : s.Opening A P stage) {e : HandshakeEvent}
    (hmove : s.Move A e t) (horder : s.GreetingInOrder A P e) :
    (∃ stage', t.Opening A P stage') ∨ t.Exchanging A P := by
  cases hmove with
  | @progress _ d x pending hprogress =>
      refine .inl ⟨_, h.set _ (m := s.proxy.proxyMgr) ((h.peer d).progress hprogress)
        (h.half d) rfl ?_ fun hstage => ?_⟩
      · obtain ⟨houtbound, hready, -⟩ := hprogress.frame
        rw [houtbound, hready]
        exact h.quiet d
      · have hpeer := h.peer d
        rw [hstage] at hpeer
        obtain ⟨-, -, -, -, hbytes, -⟩ := hprogress.frame
        rw [hbytes, hprogress.buffWrite hpeer.1.reads]
        exact h.kept d hstage
  | @accept d bytesRead bytesWrite haccepted =>
      have hnew := (h.peer d).eq_new haccepted
      have hpeer := h.peer d
      rw [hnew] at hpeer
      have hhalf := h.half d
      rw [hnew, if_neg (by simp)] at hhalf
      have hset := h.set (d := d) .connected (m := s.proxy.proxyMgr)
        (x := {
          session := { bytesRead := bytesRead, bytesWrite := bytesWrite }
          accepted := true
          reader := .starting .initializing })
        ⟨rfl, rfl, .inl rfl, hpeer.2.2.2, fun _ => rfl⟩ (by simpa [Proxy.half] using hhalf) rfl
        ⟨rfl, rfl⟩ nofun
      rw [Function.update_eq_self] at hset
      exact .inl ⟨_, hset⟩
  | @handle d loop bytes hreader =>
      obtain ⟨rfl, left, ⟨hstage, rfl, hbuff, hleft⟩ | ⟨hstage, rfl, hbuff, hleft⟩⟩ :=
        (h.peer d).completed hreader
      · exact .inl (h.login hstage hbuff hleft)
      · exact h.greeting hstage hreader hbuff hleft horder
  | write hwrites => simp [h.writes] at hwrites
  | writeDone hwrites _ => simp [h.writes] at hwrites

theorem Exchanging.fresh (h : s.Exchanging A P) {before after : List (WriteOp Side)}
    {w : WriteOp Side} (hwrites : s.proxy.writes = before ++ w :: after) :
    ∀ v ∈ before ++ after, v ∈ s.proxy.writes ∧ v.dest ≠ w.dest := by
  intro v hv
  have hnodup := h.nodup
  rw [hwrites, List.map_append, List.map_cons, List.nodup_middle, ← List.map_append,
    List.nodup_cons] at hnodup
  refine ⟨?_, fun heq => hnodup.1 (heq ▸ List.mem_map_of_mem hv)⟩
  rw [hwrites]
  exact List.mem_append.2 ((List.mem_append.1 hv).imp_right (List.mem_cons_of_mem w))

theorem Exchanging.move (h : s.Exchanging A P) {e : HandshakeEvent} (hmove : s.Move A e t) :
    t.Exchanging A P := by
  cases hmove with
  | @progress _ d x pending hprogress =>
      obtain ⟨houtbound, hready, -⟩ := hprogress.frame
      have hconns : ∀ e, ((s.proxy.modify d fun _ => x).conns e).outbound =
          (s.proxy.conns e).outbound ∧ ((s.proxy.modify d fun _ => x).conns e).session.isReady =
          (s.proxy.conns e).session.isReady := by
        intro e
        rw [Proxy.conns_modify]
        split
        · next he => exact he ▸ ⟨houtbound, hready⟩
        · exact ⟨rfl, rfl⟩
      refine ⟨fun e => ?_, h.nodup, fun w hw => ?_, fun e he => ?_, h.fault⟩
      · rcases d.eq_or_eq_other e with rfl | rfl
        · simpa [Proxy.modify] using (h.peer _).progress hprogress
        · simpa [Proxy.modify, Side.other_ne] using h.peer _
      · rw [(hconns w.dest).1, (hconns w.dest).2]
        exact h.owed w hw
      · rw [(hconns e).1, (hconns e).2]
        exact h.sent e he
  | @accept d _ _ haccepted => cases (h.peer d).eq_new haccepted
  | @handle d _ _ hreader =>
      obtain ⟨-, -, ⟨hstage, -⟩ | ⟨hstage, -⟩⟩ := (h.peer d).completed hreader
      · cases hstage
      · cases hstage
  | @write i bytes before after w hwrites =>
      have hfresh := h.fresh hwrites
      obtain ⟨hkind, howed, hready⟩ := h.owed w (by simp [hwrites])
      have hdests : (before ++ { w with rest := w.rest.drop bytes } :: after).map WriteOp.dest =
          s.proxy.writes.map WriteOp.dest := by simp [hwrites]
      refine ⟨fun e => ?_, ?_, fun v hv => ?_, fun e he => ?_, h.fault⟩
      · by_cases he : e = w.dest
        · subst he
          simpa [Proxy.modify] using (h.peer w.dest).outbound
        · simpa [Proxy.modify, he] using h.peer e
      · rw [hdests]
        exact h.nodup
      · rcases List.mem_cons.1 (List.perm_middle.mem_iff.1 hv) with rfl | hv
        · simpa [Proxy.modify, hready, hkind, List.append_assoc] using howed
        · obtain ⟨hv, hne⟩ := hfresh v hv
          simpa [Proxy.modify, hne] using h.owed v hv
      · rw [hdests] at he
        have hne : e ≠ w.dest := by
          rintro rfl
          exact he (by simp [hwrites])
        simpa [Proxy.modify, hne] using h.sent e he
  | @writeDone i before after w hwrites hrest =>
      have hfresh := h.fresh hwrites
      obtain ⟨hkind, howed, -⟩ := h.owed w (by simp [hwrites])
      have hconns := Proxy.conns_writeHandler_ready
        (s := { s.proxy with writes := before ++ after }) hkind
      refine ⟨fun e => ?_, ?_, fun v hv => ?_, fun e he => ?_, ?_⟩
      · obtain ⟨hpeer, hnamed⟩ := h.peer e
        rw [hconns]
        exact ⟨⟨hpeer.accepted, hpeer.isOpen, hpeer.reads, hpeer.bytes, fun h => by cases h⟩,
          hnamed⟩
      · have hnodup := h.nodup
        rw [hwrites, List.map_append, List.map_cons, List.nodup_middle] at hnodup
        rw [Proxy.writes_writeHandler, List.map_append]
        exact (List.nodup_cons.1 hnodup).2
      · rw [Proxy.writes_writeHandler] at hv
        obtain ⟨hv, hne⟩ := hfresh v hv
        rw [hconns]
        simpa [hne] using h.owed v hv
      · rw [Proxy.writes_writeHandler] at he
        rw [hconns]
        by_cases hdest : e = w.dest
        · subst hdest
          simpa [hrest] using howed
        · have hold := h.sent e (by simpa [hwrites, hdest] using he)
          simpa [hdest] using hold
      · rw [Proxy.fault_writeHandler]
        exact h.fault

/-- In every run whose greetings are handled in order the handshake is opening or
exchanging. -/
theorem opening_or_exchanging
    (h : (system A P).ReachableWhile (fun s e => s.GreetingInOrder A P e) s) :
    (∃ stage, s.Opening A P stage) ∨ s.Exchanging A P := by
  refine h.invariant
    (I := fun s => (∃ stage, s.Opening A P stage) ∨ s.Exchanging A P)
    (fun s hs => ?_) fun s e t hs horder hstep => ?_
  · obtain rfl : s = start A P := hs
    refine .inl ⟨fun _ => .new, fun d => ⟨rfl, rfl, rfl, rfl⟩, fun d => ?_, fun d => ⟨rfl, rfl⟩,
      nofun, rfl, rfl⟩
    rw [if_neg (by simp)]
    rfl
  · obtain ⟨-, hmove⟩ := move_of_step hstep
    rcases hs with ⟨stage, hs⟩ | hs
    · exact hs.move hmove horder
    · exact .inr (hs.move hmove)

theorem Opening.orderly {stage : Side → Stage} (h : s.Opening A P stage) : s.Orderly A P := by
  refine ⟨fun d => ?_, fun d hd => ?_, fun d haccepted hearly => ?_, h.fault,
    fun d haccepted => ?_⟩
  · rw [(h.quiet d).1]
    exact List.nil_prefix
  · rw [(h.quiet d).2] at hd
    cases hd
  · have hpeer := h.peer d
    cases hstage : stage d <;> rw [hstage] at hpeer
    · exact absurd (hpeer.1.symm.trans haccepted) (by decide)
    · have hbytes := hpeer.bytes
      exact ⟨P.login A d, hbytes.symm⟩
    · have hbytes := hpeer.1.bytes
      exact ⟨[], hbytes.symm⟩
    · rw [hpeer.1.reads.isInitializing] at hearly
      cases hearly
  · have hpeer := h.peer d
    cases hstage : stage d <;> rw [hstage] at hpeer
    · exact absurd (hpeer.1.symm.trans haccepted) (by decide)
    · exact hpeer.isOpen
    · exact hpeer.1.isOpen
    · exact hpeer.1.isOpen

theorem Exchanging.orderly (h : s.Exchanging A P) : s.Orderly A P := by
  refine ⟨fun d => ?_, fun d hd => ?_, fun d haccepted hearly => ?_, h.fault,
    fun d _ => (h.peer d).1.isOpen⟩
  · by_cases hd : d ∈ s.proxy.writes.map WriteOp.dest
    · obtain ⟨w, hw, rfl⟩ := List.mem_map.1 hd
      exact ⟨w.rest, (h.owed w hw).2.1⟩
    · rw [(h.sent d hd).1]
  · by_contra hne
    have hmem : d ∈ s.proxy.writes.map WriteOp.dest := by
      by_contra hd'
      exact hne (h.sent d hd').1
    obtain ⟨w, hw, rfl⟩ := List.mem_map.1 hmem
    exact absurd ((h.owed w hw).2.2.symm.trans hd) (by decide)
  · rw [(h.peer d).1.reads.isInitializing] at hearly
    cases hearly

/-- A handshake that cannot go on is not opening: the last peer that has not been
greeted could. -/
theorem Opening.not_stuck {stage : Side → Stage} (h : s.Opening A P stage)
    (hstuck : ∀ e, step A s e = none) : False := by
  have hproxy : ∀ e : ProxyEvent Side, e.isRegular = true → s.proxy.step A e = none := by
    intro e he
    simpa [step, he] using hstuck (.proxy e)
  have hframe : ∀ {d : Side} {event : Event} {rest : Buff},
      ¬ (s.proxy.conns d).Collects .initializing (s.pending d) (A.serialize event ++ rest) := by
    intro d event rest hcollects
    obtain ⟨hinbound, hnone⟩ := hcollects.stuck h.fault hproxy
    have hbytes := hcollects.bytes
    rw [List.append_assoc] at hbytes
    have hmore := A.more_ne_nil hbytes hnone
    rw [hinbound, List.nil_append] at hmore
    have hsend := hstuck (.send d (s.pending d).length)
    simp [step, Proxy.step, Proxy.perform, h.fault, hcollects.accepted,
      List.length_pos_iff.2 hmore] at hsend
  have hgreeted : ∀ d, stage d = .greeted := by
    intro d
    have hpeer := h.peer d
    cases hstage : stage d <;> rw [hstage] at hpeer
    · have haccept := hproxy (.accept d 0 0) rfl
      simp [Proxy.step, Proxy.perform, h.fault, hpeer.1] at haccept
    · exact absurd hpeer hframe
    · have hcollects : (s.proxy.conns d).Collects .initializing (s.pending d)
          (A.serialize (P.greetingEvent d) ++ []) := by
        rw [List.append_nil]
        exact hpeer.1
      exact absurd hcollects hframe
  exact (h.kept .up (hgreeted .up)).1 (hgreeted .down)

theorem Exchanging.complete (h : s.Exchanging A P) (hstuck : ∀ e, step A s e = none) :
    s.Complete A P := by
  have hwrites := Proxy.writes_of_stuck (A := A) h.fault
    (fun w _ => (h.peer w.dest).1.isOpen) fun e he => by
      simpa [step, he] using hstuck (.proxy e)
  intro d
  exact h.sent d (by simp [hwrites])

/-- In every run whose greetings are handled in order the handshake is orderly,
and once nothing is left to do it is complete. -/
theorem orderly_of_greetingInOrder
    (h : (system A P).ReachableWhile (fun s e => s.GreetingInOrder A P e) s) :
    s.Orderly A P ∧ ((∀ e, (system A P).step s e = none) → s.Complete A P) := by
  rcases opening_or_exchanging h with ⟨stage, hopening⟩ | hexchanging
  · exact ⟨hopening.orderly, fun hstuck => (hopening.not_stuck hstuck).elim⟩
  · exact ⟨hexchanging.orderly, hexchanging.complete⟩

def plainPeers : Peers where
  sessionId := 1
  clientId _ := nilUuid
  greeting _ := ⟨true, true⟩

/-- The next frame of a peer arrives in one piece and is handled. -/
def frameRun (d : Side) (bytes : Nat) : List HandshakeEvent :=
  [.proxy (.start d), .send d bytes, .proxy (.read d bytes), .proxy (.handle d)]

/-- A peer connects and logs in. -/
def loginRun (d : Side) : List HandshakeEvent :=
  .proxy (.accept d 0 0) :: frameRun d (plainPeers.login plainText d).length

/-- A peer greets. -/
def greetRun (d : Side) : List HandshakeEvent :=
  frameRun d (plainPeers.greet plainText d).length

/-- The first peer greets before the second logs in, and the second greeting is
written. -/
def orderedRun : List HandshakeEvent :=
  loginRun .up ++ greetRun .up ++ loginRun .down ++ greetRun .down ++
    [.proxy (.write 0 (plainPeers.greet plainText .down).length), .proxy (.writeDone 0)]

/-- Then the first peer has been sent the greeting of the second, and the handshake
is orderly. -/
theorem orderedRun_orderly :
    ∃ s, (system plainText plainPeers).execWhile
        (fun s e => s.GreetingInOrder plainText plainPeers e)
        (start plainText plainPeers) orderedRun = some s ∧
      (s.proxy.conns .up).outbound = plainPeers.greet plainText .down ∧
      s.Orderly plainText plainPeers := by
  have hrun : ((system plainText plainPeers).execWhile
      (fun s e => s.GreetingInOrder plainText plainPeers e)
      (start plainText plainPeers) orderedRun).map
      (fun s => (s.proxy.conns .up).outbound) =
      some (plainPeers.greet plainText .down) := by decide +kernel
  obtain ⟨s, hs, hfinal⟩ := Option.map_eq_some_iff.1 hrun
  have hreach := System.ReachableWhile.execWhile (.init rfl) hs
  exact ⟨s, hs, hfinal, (orderly_of_greetingInOrder hreach).1⟩

/-- Both peers log in before the first greeting is handled. -/
def earlyRun : List HandshakeEvent :=
  loginRun .up ++ loginRun .down ++ greetRun .up ++ [.proxy (.writeDone 1)]

/-- The first peer is ready although it has been sent nothing. -/
theorem earlyRun_not_orderly :
    ∃ s, (system plainText plainPeers).Reachable s ∧ ¬ s.Orderly plainText plainPeers := by
  have hrun : ((system plainText plainPeers).exec (start plainText plainPeers) earlyRun).map
      (fun s => ((s.proxy.conns .up).session.isReady, (s.proxy.conns .up).outbound)) =
      some (true, []) := by decide +kernel
  obtain ⟨s, hs, hfinal⟩ := Option.map_eq_some_iff.1 hrun
  obtain ⟨hready, houtbound⟩ := Prod.mk.inj hfinal
  refine ⟨s, System.Reachable.exec (.init rfl) hs, fun h => ?_⟩
  have hwritten := h.ready .up hready
  rw [houtbound] at hwritten
  exact Peers.greet_ne_nil plainText plainPeers .down hwritten.symm

end Handshake

end OpenProxy
