import BoostSamples.OpenNat.DirectSession

/-!
# What is left in the banned lists

A client bans a session when it asks for it in turn, and the ban goes when the
client is asked again or refused. So a ban is owed something as long as the turn
comes back: a request of the client, the other client's attempts at it, or its
answer. An attempt that succeeds ends this, and leaves the other client's ban.
-/

namespace OpenNat

namespace Exchange

variable {x : Uuid} {ids : Party → Uuid} {base : Party → List Uuid} {s t : Exchange}
variable {n m : Negotiation} {p : Party} {f : Party → Place}

/-- Something will come back to a client that has banned the session: a request it
has posted or said, the other client's turn at it, or what is on its way to it. -/
def Owed (f : Party → Place) (p : Party) : Prop :=
  0 < (f p).directs ∨ (f p).inbox ≠ [] ∨ 0 < (f p.other).directs ∨
    (f p.other).doDirects ≠ [] ∨ (f p.other).connects ≠ [] ∨ false ∈ (f p.other).inbox

def Accounted (f : Party → Place) : Prop := ∀ p, (f p).banned = true → Owed f p

/-- No attempt succeeds at a client while the other one has banned the session. -/
def Unbanned (x : Uuid) (s : Exchange) : ExchangeEvent → Prop
  | .directDone p _ ok =>
      (s.client p).Succeeds x ok → (s.client p.other).bannedList x = false
  | _ => True

instance (x : Uuid) (s : Exchange) : (e : ExchangeEvent) → Decidable (Unbanned x s e)
  | .directDone p _ ok => inferInstanceAs (Decidable
      ((s.client p).Succeeds x ok → (s.client p.other).bannedList x = false))
  | .start .. | .deliver _ | .runDirect .. | .runDoDirect .. | .other .. => isTrue trivial

theorem accounted_turn {a : Place} {said : List Bool}
    (hself : a.banned = true → 0 < a.directs ∨ a.inbox ≠ [] ∨ 0 < (f p.other).directs ∨
      (f p.other).doDirects ≠ [] ∨ (f p.other).connects ≠ [] ∨
        false ∈ (f p.other).inbox ++ said)
    (hother : (f p.other).banned = true → 0 < (f p.other).directs ∨
      (f p.other).inbox ++ said ≠ [] ∨ 0 < a.directs ∨ a.doDirects ≠ [] ∨ a.connects ≠ [] ∨
        false ∈ a.inbox) : Accounted (turn f p a said) := by
  intro q hq
  rcases p.eq_or_eq_other q with rfl | rfl
  · rw [turn_self] at hq
    simpa only [Owed, turn_self, turn_other] using hself hq
  · rw [turn_other] at hq
    simpa only [Owed, turn_self, turn_other, Party.other_other] using hother hq

theorem accounted_request (a : Place) : Accounted (turn f p a [false]) :=
  accounted_turn (fun _ => by simp) fun _ => by simp

/-- What is owed to each client stays owed, or goes with its ban. -/
theorem accounted_of_deed {e : ExchangeEvent} {g : Party → Place} (h : Deed x ids s e g)
    (hs : (∃ p offer, e = .start p offer) ∨ Accounted (s.place x)) (hun : Unbanned x s e) :
    Accounted g := by
  rcases hs with ⟨p, offer, rfl⟩ | hs
  · cases h
    exact accounted_request _
  have hother : ∀ p : Party, (s.place x p.other).banned = true → Owed (s.place x) p.other :=
    fun p => hs p.other
  simp only [Owed, Party.other_other] at hother
  cases h with
  | start p offer => exact accounted_request _
  | ask _ => exact accounted_request _
  | @refuse p rest hinbox hbanned =>
      exact accounted_turn (fun h => nomatch h) fun _ => .inr (.inl (by simp))
  | @accept p rest left hinbox hbanned _ _ =>
      exact accounted_turn (fun h => nomatch hbanned.symm.trans h) fun _ => by simp
  | acceptNone _ _ => exact accounted_turn (fun _ => by simp) fun _ => by simp
  | @fallBack p rest hinbox =>
      refine accounted_turn (fun h => nomatch h) fun hq => ?_
      have h := hother p hq
      rw [hinbox] at h
      simpa using h
  | @attempt p i before after left hposted _ =>
      refine accounted_turn (fun hq => ?_) fun _ => by simp
      simpa [Owed] using hs p hq
  | exhaust _ => exact accounted_turn (fun _ => by simp) fun _ => by simp
  | @fail p i ok before after left hconnects _ =>
      refine accounted_turn (fun hq => ?_) fun _ => by simp
      simpa [Owed] using hs p hq
  | @succeed p i ok before after left hconnects hok =>
      refine accounted_turn (fun hq => ?_) fun hq => ?_
      · simpa [Owed] using hs p hq
      · exact nomatch (hun hok).symm.trans hq
  | other p k => exact hs

/-- Once the negotiation is over neither client has banned the session, if no attempt
has succeeded at a client while the other one had. -/
theorem accounted_of_reachable (h : (exchange x).ReachableWhile (Unbanned x) s) :
    ∃ ids, Orderly x ids s ∧ (s.started = true → Accounted (s.place x)) := by
  refine h.invariant (I := fun s => ∃ ids, Orderly x ids s ∧
    (s.started = true → Accounted (s.place x))) ?_ ?_
  · intro s hs
    exact ⟨_, hs.orderly, fun h => nomatch hs.started.symm.trans h⟩
  · rintro s e t ⟨ids, horderly, hs⟩ hun hstep
    obtain ⟨horderly', hdeed⟩ := deed_of_step horderly hstep
    refine ⟨ids, horderly', fun hstarted => accounted_of_deed hdeed ?_ hun⟩
    rcases started_of_step hstep with ⟨p, offer, he, -⟩ | ⟨-, hsame⟩
    · exact .inl ⟨p, offer, he⟩
    · exact .inr (hs (hsame.symm.trans hstarted))

def Cleared (x : Uuid) (s : Exchange) : Prop := ∀ p, (s.client p).bannedList x = false

theorem cleared_of_accounted (hquiet : Quiet (s.place x)) (h : Accounted (s.place x)) :
    Cleared x s := by
  intro p
  cases hbanned : (s.client p).bannedList x with
  | false => rfl
  | true =>
      have howed := h p hbanned
      simp [Owed, hquiet.directs, hquiet.inbox, hquiet.doDirects, hquiet.connects] at howed

theorem eq_of_moves_of_direct (hstage : n.stage = .direct p)
    (h : Relation.ReflTransGen Negotiation.Move n m) : m = n := by
  rcases h.cases_head with rfl | ⟨u, hmove, -⟩
  · rfl
  · cases hmove <;> simp_all

/-- The ban of a client outlasts the other one's success. -/
theorem banned_of_success (horderly : Orderly x ids s) (h : Shows x ids base s n)
    (hsound : n.Sound) {i : Nat} {ok : Bool} {u : Exchange}
    (hok : (s.client p).Succeeds x ok) (hbanned : (s.client p.other).bannedList x = true)
    (hstep : s.step x (.directDone p i ok) = some u) {es : List ExchangeEvent}
    (hes : (exchange x).execWhile Alone u es = some t) :
    (t.client p.other).bannedList x = true := by
  obtain ⟨horderly', hdeed⟩ := deed_of_step horderly hstep
  obtain ⟨q, o, he, -⟩ | ⟨-, hstarted⟩ := started_of_step hstep
  · exact nomatch he
  generalize hg : u.place x = g at hdeed
  cases hdeed with
  | fail _ hnot => exact absurd hok hnot
  | succeed hconnects _ =>
      obtain ⟨m, hmove, hstage, hban, hshows⟩ := h.succeed hsound hconnects hg hstarted
      obtain ⟨-, m', hshows', hmoves, -⟩ := hshows.run horderly' (hmove.sound hsound) hes
      obtain rfl := eq_of_moves_of_direct hstage hmoves
      have hm : m'.banned p.other = true := by
        rw [hban, ← (h.fits p.other).banned]
        exact hbanned
      exact (hshows'.fits p.other).banned.trans hm

theorem unbanned_of_cleared (horderly : Orderly x ids s) (h : Shows x ids base s n)
    (hsound : n.Sound) {es : List ExchangeEvent}
    (hes : (exchange x).execWhile Alone s es = some t) (hcleared : Cleared x t) :
    (exchange x).execWhile (Unbanned x) s es = some t := by
  induction es generalizing s n with
  | nil => exact hes
  | cons e es ih =>
      obtain ⟨halone, hes⟩ := Option.ite_none_right_eq_some.1 hes
      obtain ⟨u, hstep, hrest⟩ := Option.bind_eq_some_iff.1 hes
      have hun : Unbanned x s e := by
        cases e with
        | directDone p i ok =>
            intro hok
            cases hbanned : (s.client p.other).bannedList x with
            | false => rfl
            | true =>
                have hleft := banned_of_success horderly h hsound hok hbanned hstep hrest
                exact nomatch (hcleared p.other).symm.trans hleft
        | _ => trivial
      obtain ⟨v, hshows, hmoves⟩ := h.step horderly hsound halone hstep
      have hv : v.Sound := by
        cases hown : own e with
        | true => exact (Negotiation.sound_rank_of_moves (by simpa [hown] using hmoves) hsound).1
        | false =>
            obtain rfl : v = n := by simpa [hown] using hmoves
            exact hsound
      have hnext := ih (deed_of_step horderly hstep).1 hshows hv hrest
      rw [Transition.System.execWhile, if_pos hun]
      exact Option.bind_eq_some_iff.2 ⟨u, hstep, hnext⟩

/-- Once a negotiation is over neither client has banned the session, if no attempt
has succeeded at a client while the other one had; and if one client has started the
session, only then. -/
theorem cleared_of_unbanned (x : Uuid) :
    (∀ s, (exchange x).ReachableWhile (Unbanned x) s → s.Over x → Cleared x s) ∧
      ∀ s t es, Idle x s → (exchange x).execWhile Alone s es = some t → t.Over x →
        Cleared x t → (exchange x).execWhile (Unbanned x) s es = some t := by
  refine ⟨fun s hs hover => ?_, fun s t es hidle hes _ hcleared => ?_⟩
  · obtain ⟨ids, -, haccounted⟩ := accounted_of_reachable hs
    exact cleared_of_accounted hover.2 (haccounted hover.1)
  · exact unbanned_of_cleared hidle.orderly (hidle.shows fun p => (s.client p).clientId) trivial
      hes hcleared

/-- The first client starts session 9, the other one tries its endpoint in vain and
asks in turn, and the first one's attempt succeeds. -/
def turnedRun : List ExchangeEvent :=
  [.start .a offer, .deliver .b, .directDone .b 0 false, .runDoDirect .b 0,
    .runDirect .b 0 offer, .deliver .a, .directDone .a 0 true]

/-- The negotiation is over with a direct session, and the other client has still
banned it. -/
theorem turnedRun_not_cleared :
    ∃ t, (exchange 9).exec attachedClients turnedRun = some t ∧ t.Over 9 ∧
      (t.place 9 .a).successes = 1 ∧ (t.client .b).bannedList 9 = true ∧ ¬ Cleared 9 t := by
  have hview : ((exchange 9).exec attachedClients turnedRun).map (view 9) =
      some (true, ⟨false, 0, [], [], [], [], 1, 0, 1⟩, ⟨true, 0, [], [], [], [], 1, 0, 0⟩) := by
    decide +kernel
  obtain ⟨t, ht, hview⟩ := Option.map_eq_some_iff.1 hview
  have hover : t.Over 9 := over_of_view hview
  obtain ⟨-, hplaces⟩ := Prod.mk.inj hview
  obtain ⟨ha, hb⟩ := Prod.mk.inj hplaces
  have hbanned : (t.client .b).bannedList 9 = true := congrArg Place.banned hb
  exact ⟨t, ht, hover, congrArg Place.successes ha, hbanned,
    fun h => nomatch (h .b).symm.trans hbanned⟩

/-- Where the attempts of both fail, the other client bans the session when it asks in
turn, and the ban goes when it is asked again. -/
theorem fallBackRun_cleared :
    (∃ s, (exchange 9).execWhile (Unbanned 9) attachedClients (fallBackRun.take 5) = some s ∧
      (s.client .b).bannedList 9 = true) ∧
    ∃ t, (exchange 9).execWhile (Unbanned 9) attachedClients fallBackRun = some t ∧ t.Over 9 ∧
      Cleared 9 t := by
  have hbanned : ((exchange 9).execWhile (Unbanned 9) attachedClients (fallBackRun.take 5)).map
      (fun s => (s.client .b).bannedList 9) = some true := by decide +kernel
  have hview : ((exchange 9).execWhile (Unbanned 9) attachedClients fallBackRun).map (view 9) =
      some (true, ⟨false, 0, [], [], [], [2], 2, 0, 0⟩, ⟨false, 0, [], [], [], [], 1, 1, 0⟩) := by
    decide +kernel
  obtain ⟨t, ht, hview⟩ := Option.map_eq_some_iff.1 hview
  have hover : t.Over 9 := over_of_view hview
  exact ⟨Option.map_eq_some_iff.1 hbanned, t, ht, hover, (cleared_of_unbanned 9).1 t
    ((Transition.System.ReachableWhile.init (idle_attachedClients 9)).execWhile ht) hover⟩

end Exchange

end OpenNat
