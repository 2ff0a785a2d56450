import Mathlib.Logic.Relation
import BoostSamples.OpenNat.Exchange

/-!
# How the negotiation of a direct session ends

The exchange between two clients one of which starts the session is, through the
parts of the clients, the negotiation of `Negotiation`: each event of it is one or
two moves. So the number of its events, requests and refusals is bounded, an event
is enabled until it is over, and it ends with a direct session or with a proxy
session made by the client that started it.
-/

namespace OpenNat

namespace Stage

@[simp] def directs : Stage → Party → Nat
  | .asking q, p => if p = q then 1 else 0
  | _, _ => 0

/-- The endpoints left of the posted calls of `DoDirect`. -/
@[simp] def doDirects : Stage → Party → List Nat
  | .trying q true left, p => if p = q then [left] else []
  | _, _ => []

@[simp] def connects : Stage → Party → List Nat
  | .trying q false left, p => if p = q then [left] else []
  | _, _ => []

@[simp] def inbox : Stage → Party → List Bool
  | .asked q, p => if p = q then [false] else []
  | .refused q, p => if p = q then [true] else []
  | _, _ => []

/-- The remote clients of the PROXYUP sessions that have been made. -/
@[simp] def proxies (ids : Party → Uuid) : Stage → Party → List Uuid
  | .proxied q, p => if p = q then [ids p.other] else []
  | _, _ => []

variable {stage : Stage} {p : Party}

theorem eq_asking {n : Nat} (h : stage.directs p = n + 1) : stage = .asking p ∧ n = 0 := by
  cases stage with
  | asking q =>
      by_cases hq : p = q
      · simp only [directs, hq, if_true] at h ⊢
        exact ⟨trivial, (Nat.succ.inj h).symm⟩
      · simp [directs, hq] at h
  | _ => exact nomatch h

theorem eq_of_ite_eq_append {α : Type*} {c : Prop} [Decidable c] {a b : α} {before after : List α}
    (h : (if c then [a] else []) = before ++ b :: after) :
    c ∧ a = b ∧ before = [] ∧ after = [] := by
  by_cases hc : c
  · rw [if_pos hc] at h
    cases before with
    | nil => simpa [hc, eq_comm] using h
    | cons d before => simp at h
  · simp [hc] at h

theorem eq_posted {before after : List Nat} {left : Nat}
    (h : stage.doDirects p = before ++ left :: after) :
    stage = .trying p true left ∧ before = [] ∧ after = [] := by
  cases stage with
  | trying q posted n =>
      cases posted with
      | true =>
          obtain ⟨rfl, rfl, hlists⟩ := eq_of_ite_eq_append h
          exact ⟨rfl, hlists⟩
      | false => simp [doDirects] at h
  | _ => simp [doDirects] at h

theorem eq_attempting {before after : List Nat} {left : Nat}
    (h : stage.connects p = before ++ left :: after) :
    stage = .trying p false left ∧ before = [] ∧ after = [] := by
  cases stage with
  | trying q posted n =>
      cases posted with
      | false =>
          obtain ⟨rfl, rfl, hlists⟩ := eq_of_ite_eq_append h
          exact ⟨rfl, hlists⟩
      | true => simp [connects] at h
  | _ => simp [connects] at h

theorem eq_messaged {refusal : Bool} {rest : List Bool}
    (h : stage.inbox p = refusal :: rest) :
    stage = (if refusal then .refused p else .asked p) ∧ rest = [] := by
  rw [← List.nil_append (refusal :: rest)] at h
  cases stage with
  | asked q =>
      obtain ⟨rfl, rfl, -, hrest⟩ := eq_of_ite_eq_append h
      exact ⟨rfl, hrest⟩
  | refused q =>
      obtain ⟨rfl, rfl, -, hrest⟩ := eq_of_ite_eq_append h
      exact ⟨rfl, hrest⟩
  | _ => simp [inbox] at h

end Stage

namespace Negotiation

variable {n m : Negotiation}

theorem sound_rank_of_moves (h : Relation.TransGen Move n m) (hn : n.Sound) :
    m.Sound ∧ m.rank < n.rank := by
  induction h with
  | single hmove => exact ⟨hmove.sound hn, hmove.rank_lt hn⟩
  | tail _ hmove ih => exact ⟨hmove.sound ih.1, (hmove.rank_lt ih.1).trans ih.2⟩

theorem kept_of_moves (h : Relation.ReflTransGen Move n m) (hsound : n.Sound)
    (hcounted : n.Counted) (hstarted : n.StartedByA) :
    m.Sound ∧ m.Counted ∧ m.StartedByA ∧
      m.requests + m.requestsLeft ≤ n.requests + n.requestsLeft := by
  induction h with
  | refl => exact ⟨hsound, hcounted, hstarted, le_rfl⟩
  | tail _ hmove ih =>
      obtain ⟨hsound', hcounted', hstarted', hle⟩ := ih
      exact ⟨hmove.sound hsound', hmove.counted hcounted', hmove.startedByA hsound' hstarted',
        (hmove.requests_le hsound').trans hle⟩

end Negotiation

namespace Exchange

variable {x : Uuid} {ids : Party → Uuid} {base : Party → List Uuid} {s t : Exchange}
variable {n m : Negotiation} {p : Party}

structure Fits (ids : Party → Uuid) (base : Party → List Uuid) (n : Negotiation) (p : Party)
    (a : Place) : Prop where
  banned : a.banned = n.banned p
  directs : a.directs = n.stage.directs p
  doDirects : a.doDirects = n.stage.doDirects p
  connects : a.connects = n.stage.connects p
  inbox : a.inbox = n.stage.inbox p
  proxies : a.proxies = base p ++ n.stage.proxies ids p

/-- An exchange shows a negotiation; `base` lists the PROXYUP sessions that each
client had made before. -/
structure Shows (x : Uuid) (ids : Party → Uuid) (base : Party → List Uuid) (s : Exchange)
    (n : Negotiation) : Prop where
  fits : ∀ p, Fits ids base n p (s.place x p)
  started : s.started = false ↔ n.stage = .idle
  requests : (s.place x .a).requests + (s.place x .b).requests = n.requests
  refusals : (s.place x .a).refusals + (s.place x .b).refusals = n.refusals
  successes : (s.place x .a).successes + (s.place x .b).successes = n.successes

theorem sum_parties (v : Party → Nat) (p : Party) : v .a + v .b = v p + v p.other := by
  cases p with
  | a => rfl
  | b => exact Nat.add_comm _ _

/-- A client has taken its turn, and the negotiation has gone on with it. -/
theorem Shows.of_turn (h : Shows x ids base s n) {a : Place} {said : List Bool}
    (hplace : t.place x = turn (s.place x) p a said)
    (hstarted : t.started = false ↔ m.stage = .idle) (hself : Fits ids base m p a)
    (hother : Fits ids base m p.other
      { s.place x p.other with inbox := (s.place x p.other).inbox ++ said })
    (hrequests : a.requests + n.requests = m.requests + (s.place x p).requests)
    (hrefusals : a.refusals + n.refusals = m.refusals + (s.place x p).refusals)
    (hsuccesses : a.successes + n.successes = m.successes + (s.place x p).successes) :
    Shows x ids base t m where
  fits q := by
    rw [hplace]
    rcases p.eq_or_eq_other q with rfl | rfl
    · rwa [turn_self]
    · rwa [turn_other]
  started := hstarted
  requests := by
    have hn := h.requests
    rw [sum_parties (fun q => (s.place x q).requests) p] at hn
    rw [hplace, sum_parties (fun q => (turn (s.place x) p a said q).requests) p, turn_self,
      turn_other]
    dsimp only
    omega
  refusals := by
    have hn := h.refusals
    rw [sum_parties (fun q => (s.place x q).refusals) p] at hn
    rw [hplace, sum_parties (fun q => (turn (s.place x) p a said q).refusals) p, turn_self,
      turn_other]
    dsimp only
    omega
  successes := by
    have hn := h.successes
    rw [sum_parties (fun q => (s.place x q).successes) p] at hn
    rw [hplace, sum_parties (fun q => (turn (s.place x) p a said q).successes) p, turn_self,
      turn_other]
    dsimp only
    omega

/-- The session is started once, by the first client. -/
def Alone (s : Exchange) : ExchangeEvent → Prop
  | .start p _ => p = .a ∧ s.started = false
  | _ => True

instance (s : Exchange) : (e : ExchangeEvent) → Decidable (Alone s e)
  | .start p _ => inferInstanceAs (Decidable (p = .a ∧ s.started = false))
  | .deliver _ | .runDirect .. | .runDoDirect .. | .directDone .. | .other .. => isTrue trivial

def own : ExchangeEvent → Bool
  | .other _ _ => false
  | _ => true

theorem Fits.elsewhere {a : Place} (h : Fits ids base n p a) {said : List Bool}
    (hbanned : m.banned p = n.banned p) (hdirects : m.stage.directs p = n.stage.directs p)
    (hdoDirects : m.stage.doDirects p = n.stage.doDirects p)
    (hconnects : m.stage.connects p = n.stage.connects p)
    (hinbox : m.stage.inbox p = n.stage.inbox p ++ said)
    (hproxies : m.stage.proxies ids p = n.stage.proxies ids p) :
    Fits ids base m p { a with inbox := a.inbox ++ said } where
  banned := h.banned.trans hbanned.symm
  directs := h.directs.trans hdirects.symm
  doDirects := h.doDirects.trans hdoDirects.symm
  connects := h.connects.trans hconnects.symm
  inbox := by rw [hinbox, h.inbox]
  proxies := by rw [hproxies, h.proxies]

theorem Shows.start (h : Shows x ids base s n) (halone : s.started = false)
    (hplace : t.place x = turn (s.place x) .a
      { s.place x .a with requests := (s.place x .a).requests + 1 } [false])
    (hstarted : t.started = true) : ∃ m, Negotiation.Move n m ∧ Shows x ids base t m := by
  have hstage := h.started.1 halone
  have hself := h.fits .a
  refine ⟨_, .start hstage, h.of_turn hplace ?_ ?_ ?_ ?_ ?_ ?_⟩
  · simp [hstarted]
  · constructor <;> simp [hself.banned, hself.directs, hself.doDirects, hself.connects,
      hself.inbox, hself.proxies, hstage]
  · apply (h.fits (Party.other .a)).elsewhere <;> simp [hstage, Party.other]
  all_goals
    dsimp only
    omega

theorem Shows.ask (h : Shows x ids base s n) {k : Nat} (hk : (s.place x p).directs = k + 1)
    (hplace : t.place x = turn (s.place x) p
      { s.place x p with directs := k, requests := (s.place x p).requests + 1 } [false])
    (hstarted : t.started = s.started) :
    ∃ m, Negotiation.Move n m ∧ Shows x ids base t m := by
  obtain ⟨hstage, rfl⟩ := Stage.eq_asking ((h.fits p).directs.symm.trans hk)
  have hself := h.fits p
  refine ⟨_, .ask hstage, h.of_turn hplace ?_ ?_ ?_ ?_ ?_ ?_⟩
  · simp [hstarted, h.started, hstage]
  · constructor <;> simp [hself.banned, hself.doDirects, hself.connects, hself.inbox,
      hself.proxies, hstage, Ne.symm p.other_ne]
  · apply (h.fits p.other).elsewhere <;> simp [hstage, p.other_ne]
  all_goals
    dsimp only
    omega

theorem Shows.refuse (h : Shows x ids base s n) {rest : List Bool}
    (hinbox : (s.place x p).inbox = false :: rest) (hbanned : (s.place x p).banned = true)
    (hplace : t.place x = turn (s.place x) p
      { s.place x p with
        banned := false, inbox := rest, refusals := (s.place x p).refusals + 1 } [true])
    (hstarted : t.started = s.started) :
    ∃ m, Negotiation.Move n m ∧ Shows x ids base t m := by
  have hself := h.fits p
  obtain ⟨hstage, rfl⟩ := Stage.eq_messaged (hself.inbox.symm.trans hinbox)
  rw [if_neg Bool.false_ne_true] at hstage
  refine ⟨_, .refuse hstage (hself.banned.symm.trans hbanned),
    h.of_turn hplace ?_ ?_ ?_ ?_ ?_ ?_⟩
  · simp [hstarted, h.started, hstage]
  · constructor <;> simp [hself.directs, hself.doDirects, hself.connects, hself.proxies, hstage,
      Ne.symm p.other_ne]
  · apply (h.fits p.other).elsewhere <;> simp [hstage, p.other_ne]
  all_goals
    dsimp only
    omega

theorem Shows.accept (h : Shows x ids base s n) {rest : List Bool} {left : Nat}
    (hinbox : (s.place x p).inbox = false :: rest) (hbanned : (s.place x p).banned = false)
    (hle : left ≤ 2) (hleft : left ≠ 0)
    (hplace : t.place x = turn (s.place x) p
      { s.place x p with
        inbox := rest, connects := (s.place x p).connects ++ [left] } [])
    (hstarted : t.started = s.started) :
    ∃ u m, Negotiation.Move n u ∧ Negotiation.Move u m ∧ Shows x ids base t m := by
  have hself := h.fits p
  obtain ⟨hstage, rfl⟩ := Stage.eq_messaged (hself.inbox.symm.trans hinbox)
  rw [if_neg Bool.false_ne_true] at hstage
  obtain ⟨left, rfl⟩ := Nat.exists_eq_succ_of_ne_zero hleft
  refine ⟨_, _, .accept hstage (hself.banned.symm.trans hbanned) hle, .attempt rfl,
    h.of_turn hplace ?_ ?_ ?_ ?_ ?_ ?_⟩
  · simp [hstarted, h.started, hstage]
  · constructor <;> simp [hself.banned, hself.directs, hself.doDirects, hself.connects,
      hself.proxies, hstage]
  · apply (h.fits p.other).elsewhere <;> simp [hstage, p.other_ne]
  all_goals
    dsimp only
    omega

theorem Shows.acceptNone (h : Shows x ids base s n) {rest : List Bool}
    (hinbox : (s.place x p).inbox = false :: rest) (hbanned : (s.place x p).banned = false)
    (hplace : t.place x = turn (s.place x) p
      { s.place x p with
        inbox := rest, directs := (s.place x p).directs + 1, banned := true } [])
    (hstarted : t.started = s.started) :
    ∃ u m, Negotiation.Move n u ∧ Negotiation.Move u m ∧ Shows x ids base t m := by
  have hself := h.fits p
  obtain ⟨hstage, rfl⟩ := Stage.eq_messaged (hself.inbox.symm.trans hinbox)
  rw [if_neg Bool.false_ne_true] at hstage
  refine ⟨_, _, .accept hstage (hself.banned.symm.trans hbanned) (Nat.zero_le 2), .exhaust rfl,
    h.of_turn hplace ?_ ?_ ?_ ?_ ?_ ?_⟩
  · simp [hstarted, h.started, hstage]
  · constructor <;> simp [hself.directs, hself.doDirects, hself.connects, hself.proxies, hstage]
  · apply (h.fits p.other).elsewhere <;> simp [hstage, p.other_ne, Negotiation.setBan]
  all_goals
    dsimp only
    omega

theorem Shows.fallBack (h : Shows x ids base s n) {rest : List Bool}
    (hinbox : (s.place x p).inbox = true :: rest)
    (hplace : t.place x = turn (s.place x) p
      { s.place x p with
        inbox := rest, banned := false
        proxies := (s.place x p).proxies ++ [ids p.other] } [])
    (hstarted : t.started = s.started) :
    ∃ m, Negotiation.Move n m ∧ Shows x ids base t m := by
  have hself := h.fits p
  obtain ⟨hstage, rfl⟩ := Stage.eq_messaged (hself.inbox.symm.trans hinbox)
  rw [if_pos rfl] at hstage
  refine ⟨_, .fallBack hstage, h.of_turn hplace ?_ ?_ ?_ ?_ ?_ ?_⟩
  · simp [hstarted, h.started, hstage]
  · constructor <;> simp [hself.directs, hself.doDirects, hself.connects, hself.proxies, hstage]
  · apply (h.fits p.other).elsewhere <;> simp [hstage, p.other_ne]
  all_goals
    dsimp only
    omega

theorem Shows.attempt (h : Shows x ids base s n) {before after : List Nat} {left : Nat}
    (hposted : (s.place x p).doDirects = before ++ left :: after) (hleft : left ≠ 0)
    (hplace : t.place x = turn (s.place x) p
      { s.place x p with
        doDirects := before ++ after, connects := (s.place x p).connects ++ [left] } [])
    (hstarted : t.started = s.started) :
    ∃ m, Negotiation.Move n m ∧ Shows x ids base t m := by
  have hself := h.fits p
  obtain ⟨hstage, rfl, rfl⟩ := Stage.eq_posted (hself.doDirects.symm.trans hposted)
  obtain ⟨left, rfl⟩ := Nat.exists_eq_succ_of_ne_zero hleft
  refine ⟨_, .attempt hstage, h.of_turn hplace ?_ ?_ ?_ ?_ ?_ ?_⟩
  · simp [hstarted, h.started, hstage]
  · constructor <;> simp [hself.banned, hself.directs, hself.connects, hself.inbox,
      hself.proxies, hstage]
  · apply (h.fits p.other).elsewhere <;> simp [hstage, p.other_ne]
  all_goals
    dsimp only
    omega

theorem Shows.exhaust (h : Shows x ids base s n) {before after : List Nat}
    (hposted : (s.place x p).doDirects = before ++ 0 :: after)
    (hplace : t.place x = turn (s.place x) p
      { s.place x p with
        doDirects := before ++ after, directs := (s.place x p).directs + 1, banned := true } [])
    (hstarted : t.started = s.started) :
    ∃ m, Negotiation.Move n m ∧ Shows x ids base t m := by
  have hself := h.fits p
  obtain ⟨hstage, rfl, rfl⟩ := Stage.eq_posted (hself.doDirects.symm.trans hposted)
  refine ⟨_, .exhaust hstage, h.of_turn hplace ?_ ?_ ?_ ?_ ?_ ?_⟩
  · simp [hstarted, h.started, hstage]
  · constructor <;> simp [hself.directs, hself.connects, hself.inbox, hself.proxies, hstage]
  · apply (h.fits p.other).elsewhere <;> simp [hstage, p.other_ne]
  all_goals
    dsimp only
    omega

theorem Shows.fail (h : Shows x ids base s n) (hsound : n.Sound) {before after : List Nat}
    {left : Nat} (hconnects : (s.place x p).connects = before ++ left :: after)
    (hplace : t.place x = turn (s.place x) p
      { s.place x p with
        connects := before ++ after, doDirects := (s.place x p).doDirects ++ [left - 1] } [])
    (hstarted : t.started = s.started) :
    ∃ m, Negotiation.Move n m ∧ Shows x ids base t m := by
  have hself := h.fits p
  obtain ⟨hstage, rfl, rfl⟩ := Stage.eq_attempting (hself.connects.symm.trans hconnects)
  rw [Negotiation.Sound, hstage] at hsound
  obtain ⟨left, rfl⟩ := Nat.exists_eq_succ_of_ne_zero (hsound.2.2 rfl).ne'
  refine ⟨_, .fail hstage, h.of_turn hplace ?_ ?_ ?_ ?_ ?_ ?_⟩
  · simp [hstarted, h.started, hstage]
  · constructor <;> simp [hself.banned, hself.directs, hself.doDirects, hself.inbox,
      hself.proxies, hstage]
  · apply (h.fits p.other).elsewhere <;> simp [hstage, p.other_ne]
  all_goals
    dsimp only
    omega

theorem Shows.succeed (h : Shows x ids base s n) (hsound : n.Sound) {before after : List Nat}
    {left : Nat} (hconnects : (s.place x p).connects = before ++ left :: after)
    (hplace : t.place x = turn (s.place x) p
      { s.place x p with
        connects := before ++ after, successes := (s.place x p).successes + 1 } [])
    (hstarted : t.started = s.started) :
    ∃ m, Negotiation.Move n m ∧ m.stage = .direct p ∧ m.banned = n.banned ∧
      Shows x ids base t m := by
  have hself := h.fits p
  obtain ⟨hstage, rfl, rfl⟩ := Stage.eq_attempting (hself.connects.symm.trans hconnects)
  rw [Negotiation.Sound, hstage] at hsound
  obtain ⟨left, rfl⟩ := Nat.exists_eq_succ_of_ne_zero (hsound.2.2 rfl).ne'
  refine ⟨_, .succeed hstage, rfl, rfl, h.of_turn hplace ?_ ?_ ?_ ?_ ?_ ?_⟩
  · simp [hstarted, h.started, hstage]
  · constructor <;> simp [hself.banned, hself.directs, hself.doDirects, hself.inbox,
      hself.proxies, hstage]
  · apply (h.fits p.other).elsewhere <;> simp [hstage, p.other_ne]
  all_goals
    dsimp only
    omega

/-- An event of the exchange is a number of moves, and at least one if it is about the
session. -/
theorem Shows.step (horderly : Orderly x ids s) (h : Shows x ids base s n) (hsound : n.Sound)
    {e : ExchangeEvent} (halone : Alone s e) (hstep : s.step x e = some t) :
    ∃ m, Shows x ids base t m ∧
      if own e then Relation.TransGen Negotiation.Move n m else m = n := by
  obtain ⟨-, hdeed⟩ := deed_of_step horderly hstep
  have hstarted : starts e = false → t.started = s.started := by
    intro hnot
    rcases started_of_step hstep with ⟨p, offer, rfl, -⟩ | ⟨-, hsame⟩
    · cases hnot
    · exact hsame
  have hsingle : own e = true → (∃ m, Negotiation.Move n m ∧ Shows x ids base t m) →
      ∃ m, Shows x ids base t m ∧
        if own e then Relation.TransGen Negotiation.Move n m else m = n :=
    fun hown ⟨m, hm, hshows⟩ => ⟨m, hshows, by rw [if_pos hown]; exact .single hm⟩
  have hdouble : own e = true →
      (∃ u m, Negotiation.Move n u ∧ Negotiation.Move u m ∧ Shows x ids base t m) →
      ∃ m, Shows x ids base t m ∧
        if own e then Relation.TransGen Negotiation.Move n m else m = n :=
    fun hown ⟨u, m, hu, hm, hshows⟩ =>
      ⟨m, hshows, by rw [if_pos hown]; exact .tail (.single hu) hm⟩
  generalize hg : t.place x = g at hdeed
  cases hdeed with
  | start p offer =>
      obtain ⟨rfl, hnot⟩ := halone
      obtain ⟨p, offer, -, ht⟩ | ⟨hnot', -⟩ := started_of_step hstep
      · exact hsingle rfl (h.start hnot hg ht)
      · cases hnot'
  | ask hk => exact hsingle rfl (h.ask hk hg (hstarted rfl))
  | refuse hinbox hbanned => exact hsingle rfl (h.refuse hinbox hbanned hg (hstarted rfl))
  | accept hinbox hbanned hle hleft =>
      exact hdouble rfl (h.accept hinbox hbanned hle hleft hg (hstarted rfl))
  | acceptNone hinbox hbanned =>
      exact hdouble rfl (h.acceptNone hinbox hbanned hg (hstarted rfl))
  | fallBack hinbox => exact hsingle rfl (h.fallBack hinbox hg (hstarted rfl))
  | attempt hposted hleft => exact hsingle rfl (h.attempt hposted hleft hg (hstarted rfl))
  | exhaust hposted => exact hsingle rfl (h.exhaust hposted hg (hstarted rfl))
  | fail hconnects hnot => exact hsingle rfl (h.fail hsound hconnects hg (hstarted rfl))
  | succeed hconnects hok =>
      obtain ⟨m, hm, -, -, hshows⟩ := h.succeed hsound hconnects hg (hstarted rfl)
      exact hsingle rfl ⟨m, hm, hshows⟩
  | other p k =>
      refine ⟨n, ⟨fun q => ?_, ?_, ?_, ?_, ?_⟩, rfl⟩
      · rw [hg]
        exact h.fits q
      · rw [hstarted rfl]
        exact h.started
      · rw [hg]
        exact h.requests
      · rw [hg]
        exact h.refusals
      · rw [hg]
        exact h.successes

/-- A run of the exchange is a run of moves, with at least as many of them as it has
events about the session. -/
theorem Shows.run (horderly : Orderly x ids s) (h : Shows x ids base s n) (hsound : n.Sound)
    {es : List ExchangeEvent} (hes : (exchange x).execWhile Alone s es = some t) :
    Orderly x ids t ∧ ∃ m, Shows x ids base t m ∧
      Relation.ReflTransGen Negotiation.Move n m ∧ es.countP own + m.rank ≤ n.rank := by
  induction es generalizing s n with
  | nil =>
      cases hes
      exact ⟨horderly, n, h, .refl, by simp⟩
  | cons e es ih =>
      obtain ⟨halone, hes⟩ := Option.ite_none_right_eq_some.1 hes
      obtain ⟨u, hstep, hrest⟩ := Option.bind_eq_some_iff.1 hes
      obtain ⟨v, hshows, hmoves⟩ := h.step horderly hsound halone hstep
      have horderly' := (deed_of_step horderly hstep).1
      cases hown : own e with
      | true =>
          rw [if_pos hown] at hmoves
          obtain ⟨hv, hrank⟩ := Negotiation.sound_rank_of_moves hmoves hsound
          obtain ⟨ht, m, hm, hmoves', hle⟩ := ih horderly' hshows hv hrest
          refine ⟨ht, m, hm, hmoves.to_reflTransGen.trans hmoves', ?_⟩
          rw [List.countP_cons_of_pos hown]
          omega
      | false =>
          rw [hown, if_neg Bool.false_ne_true] at hmoves
          subst hmoves
          obtain ⟨ht, m, hm, hmoves', hle⟩ := ih horderly' hshows hsound hrest
          refine ⟨ht, m, hm, hmoves', ?_⟩
          rwa [List.countP_cons_of_neg (by simp [hown])]

structure Fresh (x : Uuid) (s : Exchange) : Prop extends Idle x s where
  banned : ∀ p, (s.client p).bannedList x = false
  spoken : ∀ p, (s.seat x p).spoken = []
  proxies : ∀ p, (s.seat x p).proxies = []
  successes : ∀ p, (s.seat x p).successes = 0

def idleNegotiation (x : Uuid) (s : Exchange) : Negotiation where
  banned p := (s.client p).bannedList x
  requests := (s.place x .a).requests + (s.place x .b).requests
  refusals := (s.place x .a).refusals + (s.place x .b).refusals
  successes := (s.place x .a).successes + (s.place x .b).successes

theorem Idle.shows (h : Idle x s) (ids : Party → Uuid) :
    Shows x ids (fun p => (s.place x p).proxies) s (idleNegotiation x s) where
  fits p :=
    { banned := rfl
      directs := h.quiet.directs p
      doDirects := h.quiet.doDirects p
      connects := h.quiet.connects p
      inbox := h.quiet.inbox p
      proxies := (List.append_nil _).symm }
  started := iff_of_true h.started rfl
  requests := rfl
  refusals := rfl
  successes := rfl

theorem exists_getElem?_of_filterMap {α β : Type*} {f : α → Option β} {l : List α} {b : β}
    {bs : List β} (h : l.filterMap f = b :: bs) :
    ∃ (i : Nat) (a : α), l[i]? = some a ∧ f a = some b := by
  have hmem : b ∈ l.filterMap f := h ▸ List.mem_cons_self ..
  obtain ⟨a, ha, hf⟩ := List.mem_filterMap.1 hmem
  obtain ⟨i, hi⟩ := List.mem_iff_getElem?.1 ha
  exact ⟨i, a, hi, hf⟩

def CanGoOn (x : Uuid) (s : Exchange) : Prop :=
  ∃ e, own e = true ∧ Alone s e ∧ (s.step x e).isSome = true

theorem canGoOn_of_inbox (hs : Orderly x ids s) {refusal : Bool} {rest : List Bool}
    (h : (s.place x p).inbox = refusal :: rest) : CanGoOn x s := by
  obtain ⟨m, ms, hinbox, -, -⟩ := List.map_eq_cons_iff.1 h
  obtain ⟨q, hq⟩ := hs.attached p
  obtain ⟨direct, -, rfl⟩ := hs.proper p m (hinbox ▸ List.mem_cons_self ..)
  have hid : (Client.directP2P (ids p.other) (ids p) direct).toId = some (s.client p).clientId :=
    congrArg some (hs.civil p).clientId.symm
  refine ⟨.deliver p, rfl, trivial, ?_⟩
  simp only [Exchange.step, hinbox, hq.find, hid, if_true, Option.isSome_some]

theorem canGoOn_of_directs {k : Nat} (h : (s.place x p).directs = k + 1) : CanGoOn x s := by
  obtain ⟨id, rest, hdirects⟩ := List.exists_cons_of_length_eq_add_one h
  obtain ⟨i, ⟨toId, sessionId⟩, hi, hsession⟩ := exists_getElem?_of_filterMap hdirects
  obtain ⟨hid, -⟩ := Option.ite_none_right_eq_some.1 hsession
  refine ⟨.runDirect p i {}, rfl, trivial, ?_⟩
  have hoffer : Client.offerable {} = true := rfl
  simp [Exchange.step, hi, show sessionId = x from hid, hoffer]

theorem canGoOn_of_doDirects {left : Nat} {rest : List Nat}
    (h : (s.place x p).doDirects = left :: rest) : CanGoOn x s := by
  obtain ⟨c, cs, hposted, -, -⟩ := List.map_eq_cons_iff.1 h
  obtain ⟨i, config, hi, hconfig⟩ := exists_getElem?_of_filterMap hposted
  obtain ⟨hid, -⟩ := Option.ite_none_right_eq_some.1 hconfig
  exact ⟨.runDoDirect p i, rfl, trivial, by simp [Exchange.step, hi, hid]⟩

theorem canGoOn_of_connects {left : Nat} {rest : List Nat}
    (h : (s.place x p).connects = left :: rest) : CanGoOn x s := by
  obtain ⟨c, cs, hconnects, -, -⟩ := List.map_eq_cons_iff.1 h
  obtain ⟨i, attempt, hi, hconfig⟩ := exists_getElem?_of_filterMap hconnects
  obtain ⟨hid, -⟩ := Option.ite_none_right_eq_some.1 hconfig
  exact ⟨.directDone p i false, rfl, trivial, by simp [Exchange.step, hi, hid]⟩

theorem quiet_of_stage (h : Shows x ids base s n)
    (hstage : (∃ p, n.stage = .direct p) ∨ ∃ p, n.stage = .proxied p) : Quiet (s.place x) := by
  constructor <;> intro q
  · rw [(h.fits q).directs]
    rcases hstage with ⟨p, hp⟩ | ⟨p, hp⟩ <;> simp [hp]
  · rw [(h.fits q).doDirects]
    rcases hstage with ⟨p, hp⟩ | ⟨p, hp⟩ <;> simp [hp]
  · rw [(h.fits q).connects]
    rcases hstage with ⟨p, hp⟩ | ⟨p, hp⟩ <;> simp [hp]
  · rw [(h.fits q).inbox]
    rcases hstage with ⟨p, hp⟩ | ⟨p, hp⟩ <;> simp [hp]

/-- Until the negotiation is over it can go on. -/
theorem Shows.canGoOn (hs : Orderly x ids s) (h : Shows x ids base s n) (hover : ¬ s.Over x) :
    CanGoOn x s := by
  cases hstage : n.stage with
  | idle =>
      have hoffer : Client.offerable {} = true := rfl
      exact ⟨.start .a {}, rfl, ⟨rfl, h.started.2 hstage⟩, by simp [Exchange.step, hoffer]⟩
  | asked p =>
      have hinbox : n.stage.inbox p = [false] := by simp [hstage]
      exact canGoOn_of_inbox hs ((h.fits p).inbox.trans hinbox)
  | refused p =>
      have hinbox : n.stage.inbox p = [true] := by simp [hstage]
      exact canGoOn_of_inbox hs ((h.fits p).inbox.trans hinbox)
  | trying p posted left =>
      cases posted with
      | true =>
          have hposted : n.stage.doDirects p = [left] := by simp [hstage]
          exact canGoOn_of_doDirects ((h.fits p).doDirects.trans hposted)
      | false =>
          have hconnects : n.stage.connects p = [left] := by simp [hstage]
          exact canGoOn_of_connects ((h.fits p).connects.trans hconnects)
  | asking p =>
      have hdirects : n.stage.directs p = 0 + 1 := by simp [hstage]
      exact canGoOn_of_directs ((h.fits p).directs.trans hdirects)
  | direct p =>
      refine absurd ⟨?_, quiet_of_stage h (.inl ⟨p, hstage⟩)⟩ hover
      simpa [hstage] using h.started
  | proxied p =>
      refine absurd ⟨?_, quiet_of_stage h (.inr ⟨p, hstage⟩)⟩ hover
      simpa [hstage] using h.started

theorem Shows.stage_of_over (h : Shows x ids base s n) (hover : s.Over x) :
    (∃ p, n.stage = .direct p) ∨ ∃ p, n.stage = .proxied p := by
  obtain ⟨hstarted, hquiet⟩ := hover
  cases hstage : n.stage with
  | idle => exact nomatch hstarted.symm.trans (h.started.2 hstage)
  | asked p =>
      have hinbox := (h.fits p).inbox.symm.trans (hquiet.inbox p)
      simp [hstage] at hinbox
  | refused p =>
      have hinbox := (h.fits p).inbox.symm.trans (hquiet.inbox p)
      simp [hstage] at hinbox
  | trying p posted left =>
      cases posted with
      | true =>
          have hposted := (h.fits p).doDirects.symm.trans (hquiet.doDirects p)
          simp [hstage] at hposted
      | false =>
          have hconnects := (h.fits p).connects.symm.trans (hquiet.connects p)
          simp [hstage] at hconnects
  | asking p =>
      have hdirects := (h.fits p).directs.symm.trans (hquiet.directs p)
      simp [hstage] at hdirects
  | direct p => exact .inl ⟨p, rfl⟩
  | proxied p => exact .inr ⟨p, rfl⟩

def total (x : Uuid) (s : Exchange) (v : Place → Nat) : Nat := v (s.place x .a) + v (s.place x .b)

theorem Fresh.counted (h : Fresh x s) :
    (idleNegotiation x s).requests = 0 ∧ (idleNegotiation x s).Counted := by
  have hrequests : ∀ p, (s.place x p).requests = 0 := fun p => by
    simp [Exchange.place, placeOf, h.spoken p]
  have hrefusals : ∀ p, (s.place x p).refusals = 0 := fun p => by
    simp [Exchange.place, placeOf, h.spoken p]
  have hsuccesses : ∀ p, (s.place x p).successes = 0 := h.successes
  refine ⟨by simp [idleNegotiation, hrequests], ?_, ?_⟩
  · simp [idleNegotiation, hrefusals]
  · simp [idleNegotiation, hsuccesses, Negotiation.established]

theorem proxies_of_startedByA (hstarted : n.StartedByA) :
    n.stage.proxies ids .b = [] ∧
      ((∃ p, n.stage = .proxied p) → n.stage.proxies ids .a = [ids .b]) := by
  cases hstage : n.stage with
  | proxied p =>
      rw [Negotiation.StartedByA, hstage] at hstarted
      obtain rfl : p = .a := hstarted
      exact ⟨by simp, fun _ => by simp [Party.other]⟩
  | _ => exact ⟨by simp, fun ⟨p, hp⟩ => nomatch hp⟩

/-- The negotiation of a fresh session that one client starts ends, and it ends with
a direct session or with the PROXYUP session of that client to the other. -/
theorem direct_outcome {es : List ExchangeEvent} (hfresh : Fresh x s)
    (hes : (exchange x).execWhile Alone s es = some t) :
    es.countP own ≤ 17 ∧ (¬ t.Over x → CanGoOn x t) ∧
      t.total x Place.requests ≤ 3 ∧ t.total x Place.refusals ≤ 1 ∧
      t.total x Place.successes ≤ 1 ∧ (t.place x .b).proxies = [] ∧
      (t.Over x → t.total x Place.successes = 0 →
        (t.place x .a).proxies = [(s.client .b).clientId]) := by
  obtain ⟨hrequests, hcounted⟩ := hfresh.counted
  have hnone : ∀ p, (s.place x p).proxies = [] := hfresh.proxies
  have hbanned : (idleNegotiation x s).StartedByA := ⟨hfresh.banned .a, hfresh.banned .b⟩
  obtain ⟨horderly, m, hshows, hmoves, hrank⟩ :=
    (hfresh.shows fun p => (s.client p).clientId).run hfresh.orderly trivial hes
  obtain ⟨hsound, hm, hstarted, hle⟩ :=
    Negotiation.kept_of_moves hmoves trivial hcounted hbanned
  have hproxies : m.stage.proxies (fun p => (s.client p).clientId) .b = [] ∧ _ :=
    proxies_of_startedByA hstarted
  refine ⟨(Nat.le_add_right _ _).trans hrank, hshows.canGoOn horderly, ?_, ?_, ?_, ?_,
    fun hover hzero => ?_⟩
  · rw [total, hshows.requests]
    rw [hrequests] at hle
    exact (Nat.le_add_right _ _).trans hle
  · rw [total, hshows.refusals]
    exact hm.refusals.trans (by split <;> omega)
  · rw [total, hshows.successes, hm.successes]
    split <;> omega
  · rw [(hshows.fits .b).proxies, hnone, hproxies.1, List.append_nil]
  · rw [(hshows.fits .a).proxies, hnone, List.nil_append]
    rcases hshows.stage_of_over hover with ⟨p, hp⟩ | hproxied
    · rw [total, hshows.successes, hm.successes, Negotiation.established, hp] at hzero
      exact nomatch hzero
    · exact hproxies.2 hproxied

theorem fresh_attachedClients (x : Uuid) : Fresh x attachedClients where
  toIdle := idle_attachedClients x
  banned _ := rfl
  spoken _ := rfl
  proxies p := by
    simp [seat, Client.seat, attachedClients, attachedClient, Client.proxyOf]
  successes _ := rfl

/-- The first client starts session 9, and each client tries its endpoint in vain. -/
def fallBackRun : List ExchangeEvent :=
  [.start .a offer, .deliver .b, .directDone .b 0 false, .runDoDirect .b 0,
    .runDirect .b 0 offer, .deliver .a, .directDone .a 0 false, .runDoDirect .a 0,
    .runDirect .a 0 offer, .deliver .b, .deliver .a]

/-- The negotiation is over, and the first client has made a PROXYUP session. -/
theorem fallBackRun_outcome :
    ∃ t, (exchange 9).execWhile Alone attachedClients fallBackRun = some t ∧ t.Over 9 ∧
      t.total 9 Place.successes = 0 ∧ t.total 9 Place.requests ≤ 3 ∧
      (t.place 9 .a).proxies = [2] := by
  have hview : ((exchange 9).execWhile Alone attachedClients fallBackRun).map (view 9) =
      some (true, ⟨false, 0, [], [], [], [2], 2, 0, 0⟩, ⟨false, 0, [], [], [], [], 1, 1, 0⟩) := by
    decide +kernel
  obtain ⟨t, ht, hview⟩ := Option.map_eq_some_iff.1 hview
  have hover : t.Over 9 := over_of_view hview
  obtain ⟨-, hplaces⟩ := Prod.mk.inj hview
  obtain ⟨ha, hb⟩ := Prod.mk.inj hplaces
  have hsuccesses : t.total 9 Place.successes = 0 := by simp only [total, ha, hb]
  obtain ⟨-, -, hrequests, -, -, -, hproxies⟩ := direct_outcome (fresh_attachedClients 9) ht
  exact ⟨t, ht, hover, hsuccesses, hrequests, hproxies hover hsuccesses⟩

end Exchange

end OpenNat
