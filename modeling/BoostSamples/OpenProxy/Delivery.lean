import BoostSamples.OpenProxy.Flow

/-!
# End-to-end delivery

In every run whose steps are admitted, both directions of a session keep their
pipelines, so that the payloads handed on to a client are those that the opposite
client has accepted, in order. A network that cannot go on has handed on all of
them.
-/

namespace OpenProxy

open Framing Registry Transition

namespace Net

def Stage.isRegistered : Stage → Bool
  | .loggedIn => true
  | .held => true
  | .flowing => true
  | _ => false

def Stage.fits : Stage → Stage → Bool
  | .held, .held => false
  | .held, .flowing => false
  | .flowing, .held => false
  | .flowing, .new => false
  | .flowing, .connected => false
  | .new, .flowing => false
  | .connected, .flowing => false
  | _, _ => true

theorem Stage.fits_comm (stage stage' : Stage) : stage.fits stage' = stage'.fits stage := by
  cases stage <;> cases stage' <;> rfl

/-- The registry and the writes of the proxy at the stages of its connections. -/
structure Registered (P : Peers) (s : Proxy Side) (stage : Side → Stage) : Prop where
  half : ∀ d, s.half P d = if (stage d).isRegistered then some d else none
  fits : ∀ d, (stage d).fits (stage d.other) = true
  dest : ∀ w ∈ s.writes, w.dest = w.source.other
  exclusive : ∀ d, Exclusive (s.writesTo d)
  writes : s.writes ≠ [] → ∀ d, (stage d).isRegistered = true
  fault : s.fault = false

structure Inv (A : TextArchive) (P : Peers) (s : Net) (stage : Side → Stage)
    (phase : Side → Client.Phase) (bs : Side → List Buff) : Prop where
  flow : ∀ d, Flow A P d (s.proxy.conns d) (s.proxy.writesTo d.other)
    ((s.clients d).pending A) (s.clients d.other).conn (phase d.other) (bs d) (stage d)
  client : ∀ d, (s.clients d).AtPhase (phase d)
  isOpen : ∀ d, (s.clients d).conn.session.isOpen = true
  ledger : ∀ d, (s.clients d).accepted = (s.clients d.other).received ++ bs d
  free : ∀ d, ∀ b ∈ bs d, ¬ delimiter <:+: b
  proxy : Registered P s.proxy stage

variable {A : TextArchive} {P : Peers} {s t : Net} {stage : Side → Stage}
  {phase : Side → Client.Phase} {bs : Side → List Buff} {d : Side}

theorem Inv.flowing_of_ready (h : s.Inv A P stage phase bs) (hready : phase d = .ready) :
    stage d.other = .flowing := by
  have hflow := h.flow d.other
  rw [Side.other_other] at hflow
  exact hflow.eq_flowing hready

theorem Inv.awaits (h : s.Inv A P stage phase bs) (d : Side) :
    ∃ more total, Client.Awaits (s.clients d).conn more total (phase d) ∧
      (total = [] ∧ phase d ≠ .ready ∨
        stage d.other = .flowing ∧ total = due (P.greet A d.other) (bs d.other) (phase d)) := by
  have hflow := h.flow d.other
  rw [Side.other_other] at hflow
  generalize hnext : stage d.other = next at hflow
  cases next with
  | new => exact ⟨[], [], hflow.1.awaits, .inl ⟨rfl, hflow.1.unready⟩⟩
  | connected => exact ⟨[], [], hflow.1.awaits, .inl ⟨rfl, hflow.1.unready⟩⟩
  | loggedIn => exact ⟨[], [], hflow.1.awaits, .inl ⟨rfl, hflow.1.unready⟩⟩
  | held => exact ⟨[], [], hflow.1.awaits, .inl ⟨rfl, hflow.1.unready⟩⟩
  | flowing =>
      obtain ⟨-, -, rest, -, hawaits⟩ := hflow
      exact ⟨_, _, hawaits, .inr ⟨rfl, rfl⟩⟩

theorem Inv.quiet (h : s.Inv A P stage phase bs) {k : Client} {next : Client.Phase}
    (hquiet : Client.Quiet A (s.clients d) k (phase d) next) :
    Inv A P { s with clients := Function.update s.clients d k } stage
      (Function.update phase d next) bs := by
  have hne := d.other_ne
  refine ⟨fun e => ?_, fun e => ?_, fun e => ?_, fun e => ?_, h.free, h.proxy⟩
  · rcases d.eq_or_eq_other e with rfl | rfl
    · simpa [hne, hquiet.pending] using h.flow e
    · have hflow := h.flow d.other
      rw [Side.other_other] at hflow
      simpa [hne] using hflow.awaits hquiet.ready hquiet.awaits
  · rcases d.eq_or_eq_other e with rfl | rfl
    · simpa using hquiet.atPhase
    · simpa [hne] using h.client d.other
  · rcases d.eq_or_eq_other e with rfl | rfl
    · simpa using hquiet.isOpen.trans (h.isOpen e)
    · simpa [hne] using h.isOpen d.other
  · rcases d.eq_or_eq_other e with rfl | rfl
    · simpa [hne, hquiet.accepted] using h.ledger e
    · simpa [hne, hquiet.received] using h.ledger d.other

theorem Inv.send (h : s.Inv A P stage phase bs) {payload : Buff} {k : Client}
    (hk : (s.clients d).perform A (.send payload) = some k) (hfree : ¬ delimiter <:+: payload) :
    Inv A P { s with clients := Function.update s.clients d k } stage phase
      (Function.update bs d (bs d ++ [payload])) := by
  have hne := d.other_ne
  obtain ⟨hready, hphase, hpending, hconn, haccepted, hreceived⟩ :=
    Client.send_spec hk (h.client d)
  have hstage : stage d ≠ .held := by
    intro hheld
    have hfits := h.proxy.fits d
    rw [hheld, h.flowing_of_ready hready] at hfits
    cases hfits
  refine ⟨fun e => ?_, fun e => ?_, fun e => ?_, fun e => ?_, fun e => ?_, h.proxy⟩
  · rcases d.eq_or_eq_other e with rfl | rfl
    · simpa [hne, hpending] using (h.flow e).send hstage hfree
    · simpa [hne, hconn] using h.flow d.other
  · rcases d.eq_or_eq_other e with rfl | rfl
    · simpa [hready] using hphase
    · simpa [hne] using h.client d.other
  · rcases d.eq_or_eq_other e with rfl | rfl
    · simpa [hconn] using h.isOpen e
    · simpa [hne] using h.isOpen d.other
  · rcases d.eq_or_eq_other e with rfl | rfl
    · simp [hne, haccepted, h.ledger e]
    · simpa [hne, hreceived] using h.ledger d.other
  · rcases d.eq_or_eq_other e with rfl | rfl
    · have hall := h.free e
      simpa [or_imp, forall_and, hfree] using hall
    · simpa [hne] using h.free d.other

theorem Inv.handled (h : s.Inv A P stage phase bs) {k : Client} {given rest : List Buff}
    (hk : Client.Handled A (s.clients d) k) (hgiven : bs d.other = given ++ rest)
    (hreceived : k.received = (s.clients d).received ++ given)
    (hflow : Flow A P d.other (s.proxy.conns d.other) (s.proxy.writesTo d)
      ((s.clients d.other).pending A) k.conn .ready rest (stage d.other)) :
    Inv A P { s with clients := Function.update s.clients d k } stage
      (Function.update phase d .ready) (Function.update bs d.other rest) := by
  have hne := d.other_ne
  refine ⟨fun e => ?_, fun e => ?_, fun e => ?_, fun e => ?_, fun e => ?_, h.proxy⟩
  · rcases d.eq_or_eq_other e with rfl | rfl
    · simpa [hne, hne.symm, hk.pending] using h.flow e
    · simpa [hne] using hflow
  · rcases d.eq_or_eq_other e with rfl | rfl
    · simpa using hk.atPhase
    · simpa [hne] using h.client d.other
  · rcases d.eq_or_eq_other e with rfl | rfl
    · simpa using hk.isOpen.trans (h.isOpen e)
    · simpa [hne] using h.isOpen d.other
  · rcases d.eq_or_eq_other e with rfl | rfl
    · simpa [hne, hne.symm, hk.accepted] using h.ledger e
    · have hledger := h.ledger d.other
      rw [hgiven, Side.other_other] at hledger
      simp [hne, hledger, hreceived]
  · rcases d.eq_or_eq_other e with rfl | rfl
    · simpa [hne.symm] using h.free e
    · have hall := h.free d.other
      rw [hgiven] at hall
      simpa using fun b hb => hall b (List.mem_append_right _ hb)

theorem Inv.handle {sessionId : Uuid} {clientId : Side → Uuid}
    (h : s.Inv A (clientPeers sessionId clientId) stage phase bs) {k : Client}
    (hk : (s.clients d).perform A .handle = some k)
    (hadmits : s.Admits A (clientPeers sessionId clientId) (.client d .handle)) :
    ∃ phase' bs', Inv A (clientPeers sessionId clientId)
      { s with clients := Function.update s.clients d k } stage phase' bs' := by
  simp only [Client.perform] at hk
  split at hk
  · next loop n hreader =>
      obtain rfl := Option.some.inj hk
      obtain ⟨more, total, hawaits, hcase⟩ := h.awaits d
      have hphase := h.client d
      have hflow := h.flow d.other
      rw [Side.other_other] at hflow
      rcases Client.Awaits.completed hphase hawaits hreader with ⟨hwaiting, rfl⟩ | ⟨hready, rfl⟩
      · rw [hwaiting] at hphase hawaits hflow
        rcases hcase with ⟨rfl, -⟩ | ⟨hstage, -⟩
        · obtain ⟨-, hfound⟩ := hawaits.reads.completed hreader
          have hbuff := List.append_eq_nil_iff.1 (List.append_eq_nil_iff.1 hawaits.bytes).1
          rw [hbuff.1] at hfound
          cases hfound
        · rw [hstage] at hflow
          obtain ⟨hx, hbuff, rest, hrelays, hdue⟩ := hflow
          have halone : (s.clients d).conn.session.buffWrite.length = n := by
            have heq := hreader.symm.trans (hadmits (by rw [hreader]; rfl))
            cases heq
            rfl
          obtain ⟨k, hk, hhandled, hreceived, hnext⟩ :=
            Client.handle_ready hphase (show Client.Awaits _ _
              (A.serialize .ofReady ++ stream delimiter (bs d.other)) .waiting from hdue)
              hreader halone
          rw [hk]
          refine ⟨_, _, h.handled hhandled (List.nil_append _).symm (by simpa using hreceived) ?_⟩
          rw [hstage]
          exact ⟨hx, hbuff, rest, hrelays, hnext⟩
      · have hstage := h.flowing_of_ready hready
        rw [hready] at hphase hflow
        rw [hstage] at hflow
        obtain ⟨hx, hbuff, rest, hrelays, hdue⟩ := hflow
        obtain ⟨k, b, bs', hk, hhandled, hbs, hreceived, hnext⟩ :=
          Client.handle_receive hphase hdue (h.free d.other) hreader
        rw [hk]
        refine ⟨_, _, h.handled hhandled (show _ = [b] ++ bs' from hbs) hreceived ?_⟩
        rw [hstage]
        exact ⟨hx, hbuff, rest, hrelays, hnext⟩
  · cases hk

theorem Inv.modify (h : s.Inv A P stage phase bs) {x : Conn} {next : Stage}
    {m : PairMap Uuid Side}
    (hflow : Flow A P d x (s.proxy.writesTo d.other) ((s.clients d).pending A)
      (s.clients d.other).conn (phase d.other) (bs d) next)
    (hhalf : (m.find P.sessionId).bind (·.get d) = if next.isRegistered then some d else none)
    (hother : (m.find P.sessionId).bind (·.get d.other) = s.proxy.half P d.other)
    (hfits : next.fits (stage d.other) = true)
    (hregistered : (stage d).isRegistered = true → next.isRegistered = true) :
    Inv A P ⟨{ s.proxy.modify d fun _ => x with proxyMgr := m }, s.clients⟩
      (Function.update stage d next) phase bs := by
  have hne := d.other_ne
  refine ⟨fun e => ?_, h.client, h.isOpen, h.ledger, h.free, fun e => ?_, fun e => ?_,
    h.proxy.dest, h.proxy.exclusive, fun hwrites e => ?_, h.proxy.fault⟩
  · rcases d.eq_or_eq_other e with rfl | rfl
    · simpa [Proxy.modify, Proxy.writesTo] using hflow
    · simpa [Proxy.modify, Proxy.writesTo, hne] using h.flow d.other
  · rcases d.eq_or_eq_other e with rfl | rfl
    · simpa [Proxy.half] using hhalf
    · simpa [Proxy.half, hne] using hother.trans (h.proxy.half d.other)
  · rcases d.eq_or_eq_other e with rfl | rfl
    · simpa [hne] using hfits
    · rw [Stage.fits_comm] at hfits
      simpa [hne] using hfits
  · have hold := h.proxy.writes hwrites
    rcases d.eq_or_eq_other e with rfl | rfl
    · simpa using hregistered (hold e)
    · simpa [hne] using hold d.other

theorem Inv.arrive (h : s.Inv A P stage phase bs) {n : Nat}
    (hn : n ≤ (s.clients d).conn.outbound.length)
    (haccepted : (s.proxy.conns d).accepted = true) :
    Inv A P
      ⟨s.proxy.modify d fun x =>
          { x with inbound := x.inbound ++ (s.clients d).conn.outbound.take n },
        Function.update s.clients d { s.clients d with
          conn := { (s.clients d).conn with outbound := (s.clients d).conn.outbound.drop n } }⟩
      stage phase bs := by
  have hne := d.other_ne
  have hpending : (s.clients d).pending A = (s.clients d).conn.outbound ++
      ((s.clients d).ahead A ++ (s.clients d).backlog) := List.append_assoc _ _ _
  have htake : (s.clients d).conn.outbound.take n = ((s.clients d).pending A).take n := by
    rw [hpending, List.take_append_of_le_length hn]
  have hdrop : Client.pending A { s.clients d with
      conn := { (s.clients d).conn with outbound := (s.clients d).conn.outbound.drop n } } =
      ((s.clients d).pending A).drop n := by
    rw [hpending, List.drop_append_of_le_length hn, ← List.append_assoc]
    rfl
  refine ⟨fun e => ?_, fun e => ?_, fun e => ?_, fun e => ?_, h.free,
    ⟨h.proxy.half, h.proxy.fits, h.proxy.dest, h.proxy.exclusive, h.proxy.writes, h.proxy.fault⟩⟩
  · rcases d.eq_or_eq_other e with rfl | rfl
    · rw [htake]
      simpa [Proxy.modify, Proxy.writesTo, hne, hdrop] using
        (h.flow e).progress (.arrive (n := n) haccepted)
    · have hflow := h.flow d.other
      rw [Side.other_other] at hflow
      simpa [Proxy.modify, Proxy.writesTo, hne] using
        hflow.awaits Iff.rfl fun _ _ hawaits => hawaits.outbound
  · rcases d.eq_or_eq_other e with rfl | rfl
    · simp only [Function.update_self]
      exact (h.client e).conn rfl rfl rfl
    · simpa [hne] using h.client d.other
  · rcases d.eq_or_eq_other e with rfl | rfl
    · simpa using h.isOpen e
    · simpa [hne] using h.isOpen d.other
  · rcases d.eq_or_eq_other e with rfl | rfl
    · simpa [hne] using h.ledger e
    · simpa [hne] using h.ledger d.other

theorem deliver_eq {p : Proxy Side}
    (h : ∀ d, (p.conns d).outbound.length ≤ (s.proxy.conns d).outbound.length) :
    s.deliver p = ⟨p, s.clients⟩ := by
  unfold deliver
  congr 1
  funext d
  rw [List.drop_eq_nil_of_le (h d), Client.deliver, List.append_nil]

theorem Inv.accept (h : s.Inv A P stage phase bs) {bytesRead bytesWrite : Nat}
    (hnew : (s.proxy.conns d).accepted = false) :
    ∃ stage', Inv A P (s.deliver (s.proxy.modify d fun _ =>
      { session := { bytesRead := bytesRead, bytesWrite := bytesWrite }
        accepted := true
        reader := .starting .initializing })) stage' phase bs := by
  have hflow := h.flow d
  have hstage := hflow.eq_new hnew
  rw [hstage] at hflow
  have hhalf := h.proxy.half d
  have hfits := h.proxy.fits d
  rw [hstage] at hhalf hfits
  rw [deliver_eq fun e => by
    rw [Proxy.conns_modify]
    split <;> simp]
  refine ⟨_, h.modify hflow.accept hhalf rfl ?_ fun hregistered => ?_⟩
  · revert hfits
    cases stage d.other <;> exact id
  · rw [hstage] at hregistered
    cases hregistered

theorem Inv.progress (h : s.Inv A P stage phase bs) {x : Conn}
    (hprogress : ∀ pending, (s.proxy.conns d).Progress pending x pending) :
    ∃ stage', Inv A P (s.deliver (s.proxy.modify d fun _ => x)) stage' phase bs := by
  rw [deliver_eq fun e => by
    rw [Proxy.conns_modify]
    split
    · next he => rw [he, (hprogress []).frame.1]
    · exact le_rfl]
  exact ⟨_, h.modify (m := s.proxy.proxyMgr) ((h.flow d).progress (hprogress _))
    (h.proxy.half d) rfl (h.proxy.fits d) id⟩

theorem Inv.login (h : s.Inv A P stage phase bs) {left : Buff} (hstage : stage d = .connected)
    (hbuff : (s.proxy.conns d).session.buffWrite = P.login A d ++ left)
    (hleft : left ++ (s.proxy.conns d).inbound ++ (s.clients d).pending A =
      P.greet A d ++ stream delimiter (bs d)) :
    ∃ stage', Inv A P (s.deliver ((s.proxy.setReader d .idle).handleRead A d .initializing
      (P.login A d).length)) stage' phase bs := by
  have hflow := h.flow d
  have hhalf := h.proxy.half d
  have hfits := h.proxy.fits d
  rw [hstage] at hflow hhalf hfits
  obtain ⟨mgr, heq, hself, hother⟩ := Proxy.handle_login hbuff hhalf
  have hne := d.other_ne
  rw [heq, deliver_eq fun e => by
    rcases d.eq_or_eq_other e with rfl | rfl <;> simp [Proxy.modify, hne]]
  refine ⟨_, h.modify (hflow.login hleft) hself hother ?_ fun _ => rfl⟩
  revert hfits
  cases stage d.other <;> simp [Stage.fits]

theorem Inv.unsent (h : s.Inv A P stage phase bs) (hready : phase d ≠ .ready) : bs d = [] := by
  have haccepted : (s.clients d).accepted = [] := by
    have hphase := h.client d
    generalize phase d = next at hphase hready
    cases next with
    | early => exact hphase.2.2.2.2.accepted
    | waiting => exact hphase.2.2.2.accepted
    | ready => exact absurd rfl hready
  have hledger := h.ledger d
  rw [haccepted] at hledger
  exact (List.append_eq_nil_iff.1 hledger.symm).2

/-- What the proxy takes from the opposite session on a greeting is a greeting that
it has held, or nothing. -/
theorem Inv.opposite (h : s.Inv A P stage phase bs) (hopposite : (s.proxy.half P d.other).isSome)
    (htaken : s.proxy.readyBytes d.other = [] ∨
      ((s.proxy.conns d.other).reader.isInitializing = false ∧
        ∀ w ∈ s.proxy.writes, w.kind = .ready → w.dest ≠ d)) {w : WriteOp Side}
    (hkind : w.kind = .ready) (hrest : w.rest = s.proxy.readyBytes d.other) :
    ∃ next : Stage, Flow A P d.other (s.proxy.conns d.other) (s.proxy.writesTo d ++ [w])
        ((s.clients d.other).pending A) (s.clients d).conn (phase d) (bs d.other) next ∧
      Exclusive (s.proxy.writesTo d ++ [w]) ∧ Stage.fits .flowing next = true ∧
      next.isRegistered = true := by
  have hflow := h.flow d.other
  have hhalf := h.proxy.half d.other
  have hexclusive := h.proxy.exclusive d
  rw [Side.other_other] at hflow
  have hempty : ∀ next : Stage, s.proxy.readyBytes d.other = [] → stage d.other = next →
      next ≠ .held → Stage.fits .flowing next = true → next.isRegistered = true →
      ∃ next : Stage, Flow A P d.other (s.proxy.conns d.other) (s.proxy.writesTo d ++ [w])
          ((s.clients d.other).pending A) (s.clients d).conn (phase d) (bs d.other) next ∧
        Exclusive (s.proxy.writesTo d ++ [w]) ∧ Stage.fits .flowing next = true ∧
        next.isRegistered = true := by
    rintro next hnil rfl hheld hfits hregistered
    exact ⟨_, hflow.empty hheld hkind (hrest.trans hnil),
      exclusive_append hexclusive fun v _ hv => ⟨hv.trans hkind, .inr (hrest.trans hnil)⟩,
      hfits, hregistered⟩
  cases hstage : stage d.other with
  | new =>
      rw [hhalf, hstage] at hopposite
      cases hopposite
  | connected =>
      rw [hhalf, hstage] at hopposite
      cases hopposite
  | loggedIn =>
      rw [hstage] at hflow
      refine hempty _ (htaken.resolve_right fun htaken => ?_) hstage nofun rfl rfl
      rw [hflow.2.2.reads.isInitializing] at htaken
      cases htaken.1
  | held =>
      rw [hstage] at hflow
      have hnone := hflow.2.2.1
      refine ⟨.flowing, hflow.release hkind (hrest.trans hflow.2.2.2.2.1), ?_, rfl, rfl⟩
      rw [hnone]
      exact List.pairwise_singleton _ w
  | flowing =>
      rw [hstage] at hflow
      refine hempty _ ?_ hstage nofun rfl rfl
      refine htaken.elim id fun htaken => ?_
      rcases hflow.2.1 with hbuff | ⟨v, hv, hready⟩
      · rw [Proxy.readyBytes, hbuff, List.take_nil]
      · obtain ⟨hmem, hdest⟩ := List.mem_filter.1 hv
        exact absurd (by simpa using hdest) (htaken.2 v hmem hready)

/-- The greeting of a client is exchanged for that of the opposite client, unless
that is being written or has been written already. -/
theorem Inv.exchange (h : s.Inv A P stage phase bs) (hstage : stage d = .loggedIn)
    (hleft : (s.proxy.conns d).inbound ++ (s.clients d).pending A = stream delimiter (bs d))
    (hopposite : (s.proxy.half P d.other).isSome)
    (htaken : s.proxy.readyBytes d.other = [] ∨
      ((s.proxy.conns d.other).reader.isInitializing = false ∧
        ∀ w ∈ s.proxy.writes, w.kind = .ready → w.dest ≠ d)) :
    ∃ stage', Inv A P
      ⟨s.proxy.greeted d (P.greet A d).length (s.proxy.exchange A P d), s.clients⟩ stage' phase
        bs := by
  have hne := d.other_ne
  have hflow := h.flow d
  rw [hstage] at hflow
  obtain ⟨next, hnext, hexclusive, hfits, hregistered⟩ := h.opposite hopposite htaken
    (w := ⟨.ready, d, d.other, (s.proxy.readyBytes d.other).length, s.proxy.readyBytes d.other⟩)
    rfl rfl
  have hgreeting := hflow.greeting hleft (h.free d)
    (w := ⟨.ready, d.other, d, (P.greet A d).length, P.greet A d⟩) rfl rfl
  have hstages : ∀ e,
      (Function.update (Function.update stage d .flowing) d.other next e).isRegistered = true := by
    intro e
    rcases d.eq_or_eq_other e with rfl | rfl
    · simp [hne.symm, Stage.isRegistered]
    · simpa using hregistered
  have hself : ∀ e, s.proxy.half P e = some e := by
    intro e
    rcases d.eq_or_eq_other e with rfl | rfl
    · rw [h.proxy.half, hstage]
      rfl
    · rw [h.proxy.half] at hopposite ⊢
      split at hopposite
      · next hregistered => rw [if_pos hregistered]
      · cases hopposite
  refine ⟨Function.update (Function.update stage d .flowing) d.other next, fun e => ?_, h.client,
    h.isOpen, h.ledger, h.free, fun e => ?_, fun e => ?_, fun w hw => ?_, fun e => ?_,
    fun _ => hstages, h.proxy.fault⟩
  · rcases d.eq_or_eq_other e with rfl | rfl
    · simpa [Proxy.greeted, Proxy.modify, Proxy.writesTo, Proxy.exchange, hne, hne.symm]
        using hgreeting
    · simpa [Proxy.greeted, Proxy.modify, Proxy.writesTo, Proxy.exchange, hne, hne.symm]
        using hnext
  · rw [if_pos (hstages e)]
    exact hself e
  · rcases d.eq_or_eq_other e with rfl | rfl
    · simpa [hne, hne.symm] using hfits
    · rw [Stage.fits_comm] at hfits
      simpa [hne, hne.symm] using hfits
  · rcases List.mem_append.1 hw with hw | hw
    · exact h.proxy.dest w hw
    · rcases List.mem_pair.1 hw with rfl | rfl <;> simp
  · rcases d.eq_or_eq_other e with rfl | rfl
    · simpa [Proxy.greeted, Proxy.writesTo, Proxy.exchange, hne, hne.symm] using hexclusive
    · have hold := exclusive_append (h.proxy.exclusive d.other)
        (w := ⟨.ready, d.other, d, (P.greet A d).length, P.greet A d⟩) fun v hv hkind =>
          ⟨hkind, .inl (rest_of_restOf_eq_nil hflow.1.rest hv hkind)⟩
      simpa [Proxy.greeted, Proxy.writesTo, Proxy.exchange, hne, hne.symm] using hold

theorem Inv.greeting (h : s.Inv A P stage phase bs) {left : Buff} (hstage : stage d = .loggedIn)
    (hreader : (s.proxy.conns d).reader = .completed .initializing (P.greet A d).length)
    (hbuff : (s.proxy.conns d).session.buffWrite = P.greet A d ++ left)
    (hleft : left ++ (s.proxy.conns d).inbound ++ (s.clients d).pending A =
      stream delimiter (bs d))
    (hadmits : s.Admits A P (.proxy (.handle d))) :
    ∃ stage', Inv A P (s.deliver ((s.proxy.setReader d .idle).handleRead A d .initializing
      (P.greet A d).length)) stage' phase bs := by
  have hflow := h.flow d
  have hhalf := h.proxy.half d
  have hfits := h.proxy.fits d
  rw [hstage] at hflow hhalf hfits
  have hne := d.other_ne
  have hother : ∀ c ∈ s.proxy.half P d.other, c = d.other := by
    rw [h.proxy.half d.other]
    split <;> simp
  obtain ⟨halone, htaken⟩ := hadmits (Proxy.atGreeting hbuff hreader)
  obtain rfl : left = [] := by
    have heq := hreader.symm.trans halone
    rw [hbuff] at heq
    simpa using heq
  rw [Proxy.handle_greeting hbuff hflow.2.1.1 hflow.2.1.2 hhalf hother, deliver_eq fun e => by
    rcases d.eq_or_eq_other e with rfl | rfl <;> simp [Proxy.greeted, Proxy.modify, hne]]
  rw [List.append_nil] at hbuff
  rw [List.nil_append] at hleft
  by_cases hopposite : (s.proxy.half P d.other).isSome
  · rw [if_pos hopposite]
    exact h.exchange hstage hleft hopposite (htaken hopposite)
  · have hunregistered : (stage d.other).isRegistered = false := by
      rw [h.proxy.half d.other] at hopposite
      by_contra hne
      exact hopposite (by simp [hne])
    have hwrites : s.proxy.writes = [] := by
      by_contra hne
      exact absurd (h.proxy.writes hne d.other) (by simp [hunregistered])
    have hbs : bs d = [] := by
      refine h.unsent fun hready => ?_
      have hflowing := h.flowing_of_ready hready
      rw [hflowing] at hunregistered
      cases hunregistered
    rw [hbs] at hflow hleft
    have hhold := hflow.hold (by simp [Proxy.writesTo, hwrites]) hbuff (by simpa using hleft)
    rw [if_neg hopposite, Proxy.greeted, List.append_nil]
    refine ⟨_, h.modify (m := s.proxy.proxyMgr)
      (show Flow A P d _ _ _ _ _ (bs d) .held by rw [hbs]; exact hhold) hhalf rfl ?_
      fun _ => rfl⟩
    revert hunregistered
    cases stage d.other <;> simp [Stage.isRegistered, Stage.fits]

theorem Inv.data (h : s.Inv A P stage phase bs) {n : Nat} (hstage : stage d = .flowing)
    (hreader : (s.proxy.conns d).reader = .completed .receiving n)
    (hfound : firstEnd delimiter (s.proxy.conns d).session.buffRead = some n) :
    Inv A P (s.deliver ((s.proxy.setReader d .idle).handleRead A d .receiving n)) stage phase
      bs := by
  have hne := d.other_ne
  have hflow := h.flow d
  have hhalf := h.proxy.half d
  have hfits := h.proxy.fits d
  rw [hstage] at hflow hhalf hfits
  have hopposite : s.proxy.half P d.other = some d.other := by
    rw [h.proxy.half d.other]
    revert hfits
    cases stage d.other <;> simp [Stage.fits, Stage.isRegistered]
  obtain ⟨pair, hpair, hself⟩ := Option.bind_eq_some_iff.1 hhalf
  have hget : pair.get d.other = some d.other := by
    rw [← hopposite, Proxy.half, hpair, Option.bind_some]
  have hstate : (s.proxy.setReader d .idle).handleRead A d .receiving n =
      { s.proxy.modify d fun x =>
          { x with reader := .idle, session := { x.session with bytesRead := n } } with
        writes := s.proxy.writes ++ [⟨.data, d.other, d,
          ((s.proxy.conns d).session.buffRead.take n).length,
          (s.proxy.conns d).session.buffRead.take n⟩] } := by
    rw [Proxy.handleRead, Proxy.handleReceive_data (d := d) (p := pair)
      (by simp [hflow.1.1, hpair]) (by simp [hflow.1.2]), hget]
    simp [Proxy.send, Proxy.asyncWrite, Proxy.modifySession, Proxy.setReader, Proxy.modify]
  rw [hstate, deliver_eq fun e => by
    rcases d.eq_or_eq_other e with rfl | rfl <;> simp [Proxy.modify, hne]]
  refine ⟨fun e => ?_, h.client, h.isOpen, h.ledger, h.free, h.proxy.half, h.proxy.fits,
    fun w hw => ?_, fun e => ?_, fun _ e => ?_, h.proxy.fault⟩
  · rcases d.eq_or_eq_other e with rfl | rfl
    · rw [hstage]
      simpa [Proxy.modify, Proxy.writesTo, hne] using hflow.data hreader hfound
        (w := ⟨.data, e.other, e, ((s.proxy.conns e).session.buffRead.take n).length,
          (s.proxy.conns e).session.buffRead.take n⟩) rfl rfl rfl
    · simpa [Proxy.modify, Proxy.writesTo, hne] using h.flow d.other
  · rcases List.mem_append.1 hw with hw | hw
    · exact h.proxy.dest w hw
    · obtain rfl := List.mem_singleton.1 hw
      rfl
  · rcases d.eq_or_eq_other e with rfl | rfl
    · simpa [Proxy.writesTo, hne] using h.proxy.exclusive e
    · have hready : ∀ v ∈ s.proxy.writesTo d.other, v.kind = .ready := by
        obtain ⟨-, -, rest, hrelays, -⟩ := hflow
        cases hrelays with
        | reading hready _ _ => exact hready
        | writing _ _ hidle _ _ _ _ _ => cases hidle.symm.trans hreader
      have hold := exclusive_append (h.proxy.exclusive d.other)
        (w := ⟨.data, d.other, d, ((s.proxy.conns d).session.buffRead.take n).length,
          (s.proxy.conns d).session.buffRead.take n⟩) fun v hv hkind => by
            cases (hready v hv).symm.trans hkind
      simpa [Proxy.writesTo] using hold
  · rcases d.eq_or_eq_other e with rfl | rfl
    · rw [hstage]
      rfl
    · rw [h.proxy.half d.other] at hopposite
      by_contra hnot
      simp [hnot] at hopposite

@[simp] theorem pending_deliver (k : Client) (bytes : Buff) :
    (k.deliver bytes).pending A = k.pending A := rfl

@[simp] theorem conn_deliver (k : Client) (bytes : Buff) :
    (k.deliver bytes).conn = { k.conn with inbound := k.conn.inbound ++ bytes } := rfl

@[simp] theorem deliver_nil (k : Client) : k.deliver [] = k := by
  rw [Client.deliver, List.append_nil]

theorem Inv.write (h : s.Inv A P stage phase bs) {before after : List (WriteOp Side)}
    {w : WriteOp Side} {n : Nat} (hwrites : s.proxy.writes = before ++ w :: after) (hn : 0 < n)
    (hle : n ≤ w.rest.length)
    (hadmits : s.Admits A P (.proxy (.write before.length n))) :
    Inv A P (s.deliver { s.proxy.modify w.dest fun x =>
        { x with outbound := x.outbound ++ w.rest.take n } with
      writes := before ++ { w with rest := w.rest.drop n } :: after }) stage phase bs := by
  have hmem : w ∈ s.proxy.writes := by simp [hwrites]
  obtain ⟨d, hdest⟩ : ∃ d : Side, w.dest = d.other := ⟨w.source, h.proxy.dest w hmem⟩
  have hne := d.other_ne
  have hrest : w.rest ≠ [] := List.ne_nil_of_length_pos (hn.trans_le hle)
  have hto : s.proxy.writesTo d.other =
      before.filter (fun w => w.dest = d.other) ++ w :: after.filter fun w => w.dest = d.other := by
    simp [Proxy.writesTo, hwrites, hdest]
  have hflow := h.flow d
  have hexclusive := h.proxy.exclusive d.other
  rw [hto] at hflow hexclusive
  have hbehind : w.kind = .data → restOf .ready (before.filter (fun w => w.dest = d.other) ++
      w :: after.filter fun w => w.dest = d.other) = [] := by
    intro hkind
    refine restOf_eq_nil fun v hv hready => ?_
    rw [← hto] at hv
    obtain ⟨hv, hv'⟩ := List.mem_filter.1 hv
    refine hadmits w (by simp [hwrites]) hkind v hv hready ?_
    rw [hdest]
    simpa using hv'
  refine ⟨fun e => ?_, fun e => (h.client e).conn rfl rfl rfl, h.isOpen, h.ledger, h.free,
    h.proxy.half, h.proxy.fits, fun v hv => ?_, fun e => ?_, fun _ => ?_, h.proxy.fault⟩
  · rcases d.eq_or_eq_other e with rfl | rfl
    · have hnext := hflow.write (n := n) hexclusive hrest hbehind
      simpa [deliver, Proxy.modify, Proxy.writesTo, hdest, hne, hne.symm] using hnext
    · have hother := h.flow d.other
      rw [Side.other_other] at hother
      have hsame := hother.congr
        (y := { s.proxy.conns d.other with
          outbound := (s.proxy.conns d.other).outbound ++ w.rest.take n })
        rfl rfl rfl rfl rfl rfl rfl rfl rfl
      simpa [deliver, Proxy.modify, Proxy.writesTo, hwrites, hdest, hne, hne.symm] using hsame
  · rcases List.mem_cons.1 (List.perm_middle.mem_iff.1 hv) with rfl | hv
    · exact h.proxy.dest w hmem
    · exact h.proxy.dest v (hwrites ▸ mem_remove hv)
  · rcases d.eq_or_eq_other e with rfl | rfl
    · have hold := h.proxy.exclusive e
      simpa [deliver, Proxy.writesTo, hwrites, hdest, hne] using hold
    · have hnext := exclusive_write (n := n) hexclusive
      simpa [deliver, Proxy.writesTo, hdest] using hnext
  · exact h.proxy.writes (by simp [hwrites])

theorem Inv.writeDone (h : s.Inv A P stage phase bs) {before after : List (WriteOp Side)}
    {w : WriteOp Side} (hwrites : s.proxy.writes = before ++ w :: after) (hrest : w.rest = [])
    (hadmits : s.Admits A P (.proxy (.writeDone before.length))) :
    Inv A P (s.deliver ({ s.proxy with writes := before ++ after }.writeHandler w)) stage phase
      bs := by
  have hmem : w ∈ s.proxy.writes := by simp [hwrites]
  obtain ⟨d, hsource⟩ : ∃ d : Side, w.source = d := ⟨_, rfl⟩
  have hdest : w.dest = d.other := by rw [h.proxy.dest w hmem, hsource]
  have hne := d.other_ne
  have hto : s.proxy.writesTo d.other =
      before.filter (fun w => w.dest = d.other) ++ w :: after.filter fun w => w.dest = d.other := by
    simp [Proxy.writesTo, hwrites, hdest]
  have hflow := h.flow d
  have hexclusive := h.proxy.exclusive d.other
  rw [hto] at hflow hexclusive
  have hregistered : Registered P ({ s.proxy with writes := before ++ after }.writeHandler w)
      stage := by
    refine ⟨fun e => ?_, h.proxy.fits, fun v hv => ?_, fun e => ?_, fun _ => ?_, ?_⟩
    · rw [Proxy.half, Proxy.proxyMgr_writeHandler]
      exact h.proxy.half e
    · rw [Proxy.writes_writeHandler] at hv
      exact h.proxy.dest v (hwrites ▸ mem_remove hv)
    · rw [Proxy.writesTo, Proxy.writes_writeHandler]
      rcases d.eq_or_eq_other e with rfl | rfl
      · have hold := h.proxy.exclusive e
        simpa [Proxy.writesTo, hwrites, hdest, hne] using hold
      · simpa using (exclusive_middle.1 hexclusive).2
    · exact h.proxy.writes (by simp [hwrites])
    · rw [Proxy.fault_writeHandler]
      exact h.proxy.fault
  cases hkind : w.kind with
  | ready =>
      have hconns := Proxy.conns_writeHandler_ready
        (s := { s.proxy with writes := before ++ after }) hkind
      rw [deliver_eq fun e => by rw [hconns]]
      refine ⟨fun e => ?_, h.client, h.isOpen, h.ledger, h.free, hregistered⟩
      rw [hconns, Proxy.writesTo, Proxy.writes_writeHandler]
      rcases d.eq_or_eq_other e with rfl | rfl
      · have hunread := hadmits w (by simp [hwrites]) hkind
        rw [hsource] at hunread
        have hnext := hflow.readyDone hrest hkind hunread
        simpa [hsource, hdest, hne.symm] using hnext
      · have hother := h.flow d.other
        rw [Side.other_other] at hother
        have hsame := hother.congr
          (y := { s.proxy.conns d.other with
            session := { (s.proxy.conns d.other).session with isReady := true } })
          rfl rfl rfl rfl rfl rfl rfl rfl rfl
        simpa [Proxy.writesTo, hwrites, hsource, hdest, hne, hne.symm] using hsame
  | data =>
      rw [Proxy.conns_writeHandler_data hkind] at hregistered ⊢
      rw [deliver_eq fun e => by
        rw [hsource]
        rcases d.eq_or_eq_other e with rfl | rfl <;> simp [Proxy.modify, hne]]
      refine ⟨fun e => ?_, h.client, h.isOpen, h.ledger, h.free, hregistered⟩
      rw [hsource]
      rcases d.eq_or_eq_other e with rfl | rfl
      · have hnext := hflow.dataDone hexclusive hrest hkind
        simpa [Proxy.modify, Proxy.writesTo] using hnext
      · have hother := h.flow d.other
        simpa [Proxy.modify, Proxy.writesTo, hwrites, hdest, hne, hne.symm] using hother

section Runs

variable {sessionId : Uuid} {clientId : Side → Uuid}

theorem Inv.start : Inv A (clientPeers sessionId clientId) (start sessionId clientId)
    (fun _ => .new) (fun _ => .early) fun _ => [] := by
  refine ⟨fun d => ?_, fun d => ?_, fun _ => rfl, fun _ => rfl, fun _ => nofun, fun d => rfl,
    fun _ => rfl, nofun, fun _ => List.Pairwise.nil, fun h => absurd rfl h, rfl⟩
  · refine ⟨⟨nofun, rfl, nofun, rfl⟩, rfl, rfl, rfl, ?_⟩
    rw [stream_nil, List.append_nil, Client.pending]
    exact List.append_nil _
  · exact ⟨rfl, rfl, by simp [Net.start], fun _ => rfl, rfl, rfl, rfl, rfl, rfl⟩

theorem Inv.proxyStep (h : s.Inv A P stage phase bs) {e : ProxyEvent Side} {p : Proxy Side}
    (hregular : e.isRegular = true) (hstep : s.proxy.step A e = some p)
    (hadmits : s.Admits A P (.proxy e)) :
    ∃ stage', Inv A P (s.deliver p) stage' phase bs := by
  obtain ⟨-, heffect⟩ := Proxy.effect_of_step hstep
  cases heffect with
  | accept hnew => exact h.accept hnew
  | arrive _ => cases hregular
  | start hreader => exact h.progress fun _ => .start hreader
  | @read _ n _ hreader _ _ _ => exact h.progress fun _ => .read (n := n) hreader
  | @handle d loop n hreader =>
      rcases (h.flow d).completed hreader with ⟨left, hstage, rfl, rfl, hbuff, hleft⟩ |
        ⟨left, hstage, rfl, rfl, hbuff, hleft⟩ | ⟨hstage, rfl, hfound⟩
      · exact h.login hstage hbuff hleft
      · exact h.greeting hstage hreader hbuff hleft hadmits
      · exact ⟨stage, h.data hstage hreader hfound⟩
  | readFail _ => cases hregular
  | write hwrites _ hn hle => exact ⟨stage, h.write hwrites hn hle hadmits⟩
  | writeDone hwrites hrest => exact ⟨stage, h.writeDone hwrites hrest hadmits⟩
  | writeFail _ _ => cases hregular

theorem Inv.clientStep (h : s.Inv A (clientPeers sessionId clientId) stage phase bs)
    {e : ClientEvent} {k : Client} (hstep : (s.clients d).perform A e = some k)
    (hadmits : s.Admits A (clientPeers sessionId clientId) (.client d e)) :
    ∃ phase' bs', Inv A (clientPeers sessionId clientId)
      { s with clients := Function.update s.clients d k } stage phase' bs' := by
  have hphase := h.client d
  obtain ⟨more, total, hawaits, -⟩ := h.awaits d
  cases e with
  | connect => exact ⟨_, bs, h.quiet (Client.quiet_connect hstep hphase)⟩
  | control => exact ⟨_, bs, h.quiet (Client.quiet_control hstep hphase)⟩
  | controlWrite n => exact ⟨_, bs, h.quiet (Client.quiet_controlWrite hstep hphase)⟩
  | controlDone =>
      obtain ⟨next, hquiet⟩ := Client.quiet_controlDone hstep hphase (h.isOpen d)
      exact ⟨_, bs, h.quiet hquiet⟩
  | start => exact ⟨_, bs, h.quiet (Client.quiet_start hstep hphase hawaits)⟩
  | read n => exact ⟨_, bs, h.quiet (Client.quiet_read hstep hphase hawaits)⟩
  | handle => exact h.handle hstep hadmits
  | send payload => exact ⟨phase, _, h.send hstep hadmits⟩
  | doSend => exact ⟨_, bs, h.quiet (Client.quiet_doSend hstep hphase)⟩
  | write n => exact ⟨_, bs, h.quiet (Client.quiet_write hstep hphase)⟩
  | writeDone => exact ⟨_, bs, h.quiet (Client.quiet_writeDone hstep hphase)⟩

theorem inv_of_reachable (h : (system A sessionId clientId).ReachableWhile
    (fun s e => s.Admits A (clientPeers sessionId clientId) e) s) :
    ∃ stage phase bs, s.Inv A (clientPeers sessionId clientId) stage phase bs := by
  refine h.invariant
    (I := fun s => ∃ stage phase bs, s.Inv A (clientPeers sessionId clientId) stage phase bs)
    (fun s hs => ?_) fun s e t hs hadmits hstep => ?_
  · obtain rfl : s = Net.start sessionId clientId := hs
    exact ⟨_, _, _, .start⟩
  · obtain ⟨stage, phase, bs, hs⟩ := hs
    cases e with
    | proxy e =>
        obtain ⟨hregular, hstep⟩ := Option.ite_none_right_eq_some.1 hstep
        obtain ⟨p, hp, rfl⟩ := Option.map_eq_some_iff.1 hstep
        obtain ⟨stage', hs'⟩ := hs.proxyStep hregular hp hadmits
        exact ⟨stage', phase, bs, hs'⟩
    | arrive d n =>
        obtain ⟨⟨-, hle⟩, hstep⟩ := Option.ite_none_right_eq_some.1 hstep
        obtain ⟨p, hp, rfl⟩ := Option.map_eq_some_iff.1 hstep
        obtain ⟨-, heffect⟩ := Proxy.effect_of_step hp
        cases heffect with
        | arrive haccepted => exact ⟨stage, phase, bs, hs.arrive hle haccepted⟩
    | client d e =>
        obtain ⟨k, hk, rfl⟩ := Option.map_eq_some_iff.1 hstep
        obtain ⟨phase', bs', hs'⟩ := hs.clientStep hk hadmits
        exact ⟨stage, phase', bs', hs'⟩

end Runs

/-- A network that cannot go on but for the applications has handed on every
payload. -/
theorem Inv.drained (h : s.Inv A P stage phase bs)
    (hstuck : ∀ e, (∀ d payload, e ≠ .client d (.send payload)) → step A s e = none) :
    ∀ d, bs d = [] := by
  have hproxy : ∀ e : ProxyEvent Side, e.isRegular = true → s.proxy.step A e = none := by
    intro e he
    simpa [step, he] using hstuck (.proxy e) fun _ _ heq => by cases heq
  have hclient : ∀ d e, (∀ payload, e ≠ .send payload) → (s.clients d).perform A e = none := by
    intro d e he
    have hnone := hstuck (.client d e) fun d' payload heq => by
      cases heq
      exact he payload rfl
    simpa [step] using hnone
  have hnew : ∀ d, stage d ≠ .new := by
    intro d hstage
    have hflow := h.flow d
    rw [hstage] at hflow
    have haccept := hproxy (.accept d 0 0) rfl
    simp [Proxy.step, Proxy.perform, h.proxy.fault, hflow.2.1] at haccept
  have hwrites : s.proxy.writes = [] := Proxy.writes_of_stuck h.proxy.fault
    (fun w _ => ((h.flow w.dest).open_of_ne_new (hnew w.dest)).2) hproxy
  have hphases : ∀ d, phase d ≠ .early := fun d =>
    (Client.written_of_stuck (h.client d) (h.isOpen d) (hclient d)).1
  have hpending : ∀ d, (s.clients d).pending A = [] := by
    intro d
    obtain ⟨-, heq⟩ := Client.written_of_stuck (h.client d) (h.isOpen d) (hclient d)
    rw [heq]
    by_contra hne
    have harrive := hstuck (.arrive d (s.clients d).conn.outbound.length)
      fun _ _ heq => by cases heq
    simp [step, Proxy.step, Proxy.perform, h.proxy.fault,
      ((h.flow d).open_of_ne_new (hnew d)).1, List.length_pos_iff.2 hne] at harrive
  have hframe : ∀ {d : Side} {event : Event} {rest : Buff},
      ¬ (s.proxy.conns d).Collects .initializing ((s.clients d).pending A)
        (A.serialize event ++ rest) := by
    intro d event rest hcollects
    obtain ⟨hinbound, hnone⟩ := hcollects.stuck h.proxy.fault hproxy
    have hbytes := hcollects.bytes
    rw [List.append_assoc] at hbytes
    exact A.more_ne_nil hbytes hnone (by rw [hinbound, hpending d, List.append_nil])
  have hlate : ∀ d, stage d = .held ∨ stage d = .flowing := by
    intro d
    have hflow := h.flow d
    cases hstage : stage d with
    | new => exact absurd hstage (hnew d)
    | connected =>
        rw [hstage] at hflow
        exact absurd hflow.2 hframe
    | loggedIn =>
        rw [hstage] at hflow
        exact absurd hflow.2.2 hframe
    | held => exact .inl rfl
    | flowing => exact .inr rfl
  intro d
  have hflow := h.flow d
  have hfits := h.proxy.fits d
  obtain hstage : stage d = .flowing := by
    rcases hlate d with hheld | hflowing
    · rcases hlate d.other with hother | hother <;>
        simp [hheld, hother, Stage.fits] at hfits
    · exact hflowing
  have hops : s.proxy.writesTo d.other = [] := by simp [Proxy.writesTo, hwrites]
  rw [hstage, hops, hpending d] at hflow
  obtain ⟨-, -, rest, hrelays, hawaits⟩ := hflow
  have hrest : rest = [] := by
    cases hrelays with
    | reading _ hcollects hframed =>
        obtain ⟨hinbound, hnone⟩ := hcollects.stuck h.proxy.fault hproxy
        obtain ⟨cs, rfl, -⟩ := hframed
        have hbytes := hcollects.bytes
        rw [hinbound, List.append_nil, List.append_nil] at hbytes
        rw [stream_eq_of_firstEnd_none hbytes hnone, stream_nil]
    | writing hw _ _ _ _ _ _ _ => cases hw
  rw [hrest, restOf_nil, List.append_nil] at hawaits
  generalize hphase : phase d.other = next at hawaits
  cases next with
  | early => exact absurd hphase (hphases d.other)
  | waiting =>
      obtain ⟨hinbound, hnone⟩ := Client.read_of_stuck hawaits (hclient d.other)
      have hbytes := hawaits.bytes
      rw [List.append_assoc] at hbytes
      have hmore := A.more_ne_nil
        (show _ = A.serialize (P.greetingEvent d) ++ stream delimiter (bs d) from hbytes) hnone
      rw [hinbound] at hmore
      exact absurd rfl hmore
  | ready =>
      obtain ⟨hinbound, hnone⟩ := Client.read_of_stuck hawaits (hclient d.other)
      have hbytes := hawaits.bytes
      rw [hinbound, List.append_nil, List.append_nil] at hbytes
      exact stream_eq_of_firstEnd_none hbytes hnone

/-- In every run whose steps are admitted the payloads handed on to a client are
the first ones that the opposite client has accepted, and all of them once nothing
is left to do but for the applications. -/
theorem received_prefix_accepted {sessionId : Uuid} {clientId : Side → Uuid}
    (h : (system A sessionId clientId).ReachableWhile
      (fun s e => s.Admits A (clientPeers sessionId clientId) e) s) (d : Side) :
    (s.clients d.other).received <+: (s.clients d).accepted ∧
      ((∀ e, (∀ d payload, e ≠ .client d (.send payload)) →
        (system A sessionId clientId).step s e = none) →
        (s.clients d.other).received = (s.clients d).accepted) := by
  obtain ⟨stage, phase, bs, hinv⟩ := inv_of_reachable h
  refine ⟨⟨bs d, (hinv.ledger d).symm⟩, fun hstuck => ?_⟩
  rw [hinv.ledger d, hinv.drained hstuck d, List.append_nil]

def plainClients : Peers := clientPeers 1 fun _ => nilUuid

/-- A client connects and logs in. -/
def loginRun (d : Side) : List NetEvent :=
  let n := (plainClients.login plainText d).length
  [.client d .connect, .client d .control, .client d (.controlWrite n), .client d .controlDone,
    .proxy (.accept d 0 0), .arrive d n, .proxy (.start d), .proxy (.read d n), .proxy (.handle d)]

/-- A client greets, and the writes that its greeting starts complete. -/
def greetRun (d : Side) : List NetEvent :=
  let n := (plainClients.greet plainText d).length
  [.client d .control, .client d (.controlWrite n), .client d .controlDone, .arrive d n,
    .proxy (.start d), .proxy (.read d n), .proxy (.handle d), .proxy (.start d),
    .proxy (.write 0 n), .proxy (.writeDone 0), .proxy (.writeDone 0)]

/-- A client reads some bytes. -/
def readRun (d : Side) (bytes : Nat) : List NetEvent :=
  [.client d .start, .client d (.read bytes), .client d .handle]

/-- A client sends a payload, and the proxy writes it to the opposite client. -/
def sendRun (d : Side) (payload : Buff) : List NetEvent :=
  let n := (frame delimiter payload).length
  [.client d (.send payload), .client d .doSend, .client d (.write n), .client d .writeDone,
    .arrive d n, .proxy (.read d n), .proxy (.handle d), .proxy (.write 0 n),
    .proxy (.writeDone 0)]

/-- Both clients log in and greet. -/
def openRun : List NetEvent := loginRun .up ++ loginRun .down ++ greetRun .up ++ greetRun .down

/-- Both clients read the greeting of the other, and the first one sends a payload. -/
def deliveredRun : List NetEvent :=
  let n := (plainClients.greet plainText .up).length
  openRun ++ readRun .down n ++ readRun .up n ++ sendRun .up [1, 2, 3] ++
    readRun .down (frame delimiter [1, 2, 3]).length

/-- The payload of that run is handed on. -/
theorem deliveredRun_received :
    ∃ s, (system plainText 1 fun _ => nilUuid).execWhile
        (fun s e => s.Admits plainText (clientPeers 1 fun _ => nilUuid) e)
        (start 1 fun _ => nilUuid) deliveredRun = some s ∧
      (s.clients .down).received = [[1, 2, 3]] ∧
      (s.clients .down).received <+: (s.clients .up).accepted := by
  have hrun : ((system plainText 1 fun _ => nilUuid).execWhile
      (fun s e => s.Admits plainText (clientPeers 1 fun _ => nilUuid) e)
      (start 1 fun _ => nilUuid) deliveredRun).map (fun s => (s.clients .down).received) =
      some [[1, 2, 3]] := by decide +kernel
  obtain ⟨s, hs, hfinal⟩ := Option.map_eq_some_iff.1 hrun
  have hreach := System.ReachableWhile.execWhile (.init rfl) hs
  exact ⟨s, hs, hfinal, (received_prefix_accepted hreach .up).1⟩

/-- The second client reads the greeting of the first and its first payload at once. -/
def lostRun : List NetEvent :=
  let n := (plainClients.greet plainText .up).length
  openRun ++ readRun .up n ++ sendRun .up [1] ++
    readRun .down (n + (frame delimiter [1]).length) ++ sendRun .up [2] ++
    readRun .down (frame delimiter [2]).length

/-- Only the second payload is handed on. -/
theorem lostRun_not_prefix :
    ∃ s, (system plainText 1 fun _ => nilUuid).Reachable s ∧
      (∀ payload ∈ (s.clients .up).accepted, ¬ delimiter <:+: payload) ∧
      ¬ (s.clients .down).received <+: (s.clients .up).accepted := by
  have hrun : ((system plainText 1 fun _ => nilUuid).exec (start 1 fun _ => nilUuid) lostRun).map
      (fun s => ((s.clients .up).accepted, (s.clients .down).received)) =
      some ([[1], [2]], [[2]]) := by decide +kernel
  obtain ⟨s, hs, hfinal⟩ := Option.map_eq_some_iff.1 hrun
  obtain ⟨haccepted, hreceived⟩ := Prod.mk.inj hfinal
  refine ⟨s, System.Reachable.exec (.init rfl) hs, ?_, ?_⟩
  · rw [haccepted]
    decide
  · rw [haccepted, hreceived]
    decide

end Net

end OpenProxy
