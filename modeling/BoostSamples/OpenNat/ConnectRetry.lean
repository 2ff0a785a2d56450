import BoostSamples.OpenNat.ClientTimers

/-!
# The retries of failed connections

Every attempt of `Connect` that fails starts a wait on the one connection timer of
the client. Moving the expiry cancels the waits of the failures before it, and the
handler of a cancelled wait finds the timer not expired and does nothing. So a
target is tried again only if no other one fails before its retry.
-/

namespace OpenNat

open Registry Transition

namespace ClientTimers

abbrev Target := (Address × BitVec 16) × Uuid

inductive Attempt
  | called (x : Target)
  | failed (x : Target)
  deriving DecidableEq, Repr

def Attempt.after (owed : List Target) : Attempt → List Target
  | .called x => owed.filter (· ≠ x)
  | .failed x => owed ++ [x]

/-- The targets whose TCP connect has failed and that have not been tried since. -/
def owed (l : List Attempt) : List Target := l.foldl Attempt.after []

def target (s : ClientTimers) (i : Nat) : Option Target :=
  s.connecting[i]?.map fun x => (x.2, (s.client.session x.1).id)

/-- What an event records: a call of `Connect`, or a TCP connect that fails. -/
def attempt (s : ClientTimers) : Event → Option Attempt
  | .connect ep id => some (.called (ep, id))
  | .connectDone i false => (s.target i).map .failed
  | .connectionTimeout i =>
      s.connectionWaits[i]?.bind fun w =>
        if s.connectionExpiresAt ≤ s.now then some (.called (w.ep, w.id)) else none
  | _ => none

/-- The handler of the wait will call `Connect`: the wait completes when the timer
expires, or it has completed and the timer has expired. -/
def Retries (s : ClientTimers) (x : Target) (w : ConnectionWait) : Prop :=
  (w.ep, w.id) = x ∧ (w.completed = true → s.connectionExpiresAt ≤ s.now)

/-- A running client has an outstanding wait for each target that it owes a retry. -/
def Promised (s : ClientTimers × List Attempt) : Prop :=
  s.1.isRunning = true → ∀ x ∈ owed s.2, ∃ w ∈ s.1.connectionWaits, s.1.Retries x w

/-- A TCP connect fails only while no other target waits for its retry. -/
def Careful (s : ClientTimers × List Attempt) : Event → Prop
  | .connectDone i false => ∀ x ∈ s.1.target i, ∀ y ∈ owed s.2, y = x
  | _ => True

variable {s t : ClientTimers} {e : Event} {l : List Attempt} {x : Target}

theorem owed_append (l : List Attempt) (a : Attempt) :
    owed (l ++ [a]) = a.after (owed l) := by
  rw [owed, List.foldl_append]
  rfl

/-- The connection timer is as it was. -/
structure Undisturbed (s t : ClientTimers) : Prop where
  waits : t.connectionWaits = s.connectionWaits
  expiresAt : t.connectionExpiresAt = s.connectionExpiresAt
  now : t.now = s.now

theorem Undisturbed.promised (h : s.Undisturbed t) (hrunning : s.isRunning = true)
    (hs : Promised (s, l)) {l' : List Attempt} (howed : ∀ x ∈ owed l', x ∈ owed l) :
    Promised (t, l') := by
  intro _ x hx
  obtain ⟨w, hw, htarget, hlate⟩ := hs hrunning x (howed x hx)
  refine ⟨w, h.waits ▸ hw, htarget, fun hcompleted => ?_⟩
  rw [h.expiresAt, h.now]
  exact hlate hcompleted

theorem undisturbed_connect (s : ClientTimers) (ep : Address × BitVec 16) (id : Uuid) :
    s.Undisturbed (s.connect ep id) := by
  unfold connect
  split <;> exact ⟨rfl, rfl, rfl⟩

theorem undisturbed_handleStunTimeout (s : ClientTimers) (id : Uuid) :
    s.Undisturbed (s.handleStunTimeout id) := by
  unfold handleStunTimeout
  split
  · exact ⟨rfl, rfl, rfl⟩
  · dsimp only
    split
    · split <;> exact ⟨rfl, rfl, rfl⟩
    · exact ⟨rfl, rfl, rfl⟩

theorem connectDone_failed {i : Nat} (hx : s.target i = some x) :
    (s.connectDone i false).now = s.now ∧
      (s.connectDone i false).connectionExpiresAt = s.now + 5 ∧
      (s.connectDone i false).isRunning = s.isRunning ∧
      (s.connectDone i false).connectionWaits =
        (s.connectionWaits.map fun w => { w with completed := true }) ++ [⟨x.1, x.2, false⟩] := by
  obtain ⟨⟨p, ep⟩, hi, rfl⟩ := Option.map_eq_some_iff.1 hx
  simp only [connectDone, hi]
  exact ⟨rfl, rfl, rfl, rfl⟩

theorem promised_failed {i : Nat} (hrunning : s.isRunning = true) (hx : s.target i = some x) :
    Promised (s.connectDone i false, l ++ [.failed x]) ↔ Careful (s, l) (.connectDone i false) := by
  obtain ⟨hnow, hexpires, hrun, hwaits⟩ := connectDone_failed hx
  have hcareful : Careful (s, l) (.connectDone i false) ↔ ∀ y ∈ owed l, y = x := by
    simp only [Careful, hx, Option.mem_def, Option.some.injEq, forall_eq']
  have hretries : ∀ y, (∃ w ∈ (s.connectDone i false).connectionWaits,
      (s.connectDone i false).Retries y w) ↔ y = x := by
    intro y
    constructor
    · rintro ⟨w, hw, htarget, hlate⟩
      rw [hwaits] at hw
      rcases List.mem_append.1 hw with hold | hnew
      · obtain ⟨w', -, rfl⟩ := List.mem_map.1 hold
        have hle := hlate rfl
        omega
      · obtain rfl := List.mem_singleton.1 hnew
        exact htarget.symm
    · rintro rfl
      exact ⟨⟨y.1, y.2, false⟩, by rw [hwaits]; exact List.mem_append_right _ (.head _), rfl, nofun⟩
  rw [hcareful]
  simp only [Promised, hrun, hrunning, forall_const, owed_append, Attempt.after, hretries]
  simp only [List.mem_append, List.mem_singleton]
  constructor
  · exact fun h y hy => h y (.inl hy)
  · rintro h y (hy | hy)
    · exact h y hy
    · exact hy

theorem promised_timeout {i : Nat} {w : ConnectionWait} (hrunning : s.isRunning = true)
    (hs : Promised (s, l)) (hw : s.connectionWaits[i]? = some w) (hcompleted : w.completed = true) :
    Promised (s.handleConnectionTimeout i w, l ++ (s.attempt (.connectionTimeout i)).toList) := by
  have hattempt : s.attempt (.connectionTimeout i) =
      if s.connectionExpiresAt ≤ s.now then some (.called (w.ep, w.id)) else none := by
    simp only [attempt, hw, Option.bind_some]
  obtain ⟨before, after, hlist, -, -, herase⟩ := exists_append_of_getElem? hw
  -- the wait of another target is another one
  have hother : ∀ y, y ∈ owed l → (s.connectionExpiresAt ≤ s.now → y ≠ (w.ep, w.id)) →
      ∃ w' ∈ s.connectionWaits.eraseIdx i, s.Retries y w' := by
    intro y hy hne
    obtain ⟨w', hw', htarget, hlate⟩ := hs hrunning y hy
    have hdiffer : w' ≠ w := by
      rintro rfl
      exact hne (hlate hcompleted) htarget.symm
    refine ⟨w', ?_, htarget, hlate⟩
    rw [herase]
    rw [hlist] at hw'
    simpa [hdiffer] using hw'
  rw [hattempt]
  unfold handleConnectionTimeout
  dsimp only
  split
  · next hexpired =>
      intro _ y hy
      rw [Option.toList_some, owed_append] at hy
      obtain ⟨hy, hne⟩ := List.mem_filter.1 hy
      obtain ⟨w', hw', htarget, hlate⟩ := hother y hy fun _ => by simpa using hne
      obtain ⟨hwaits, hexpires, hnow⟩ := undisturbed_connect
        { s with connectionWaits := s.connectionWaits.eraseIdx i } w.ep w.id
      refine ⟨w', hwaits ▸ hw', htarget, fun hcompleted => ?_⟩
      rw [hexpires, hnow]
      exact hlate hcompleted
  · next hearly =>
      intro _ y hy
      rw [Option.toList_none, List.append_nil] at hy
      exact hother y hy fun hexpired => absurd hexpired hearly

theorem attempt_of_runs {k : Client} (h : e.runs s.client = some k) : s.attempt e = none := by
  cases e <;> first | rfl | cases h

/-- A step that is no failure keeps the promises. -/
theorem promised_other (h : s.step e = some t) (hs : Promised (s, l))
    (hfailed : ∀ i, e ≠ .connectDone i false) :
    Promised (t, l ++ (s.attempt e).toList) := by
  have hrunning : s.isRunning = true := (Option.ite_none_right_eq_some.1 h).1
  have hquiet {t : ClientTimers} (hattempt : s.attempt e = none) (h : s.Undisturbed t) :
      Promised (t, l ++ (s.attempt e).toList) := by
    rw [hattempt, Option.toList_none, List.append_nil]
    exact h.promised hrunning hs fun _ hx => hx
  cases move_of_step h with
  | connect ep id =>
      refine (undisturbed_connect s ep id).promised hrunning hs fun x hx => ?_
      rw [attempt, Option.toList_some, owed_append] at hx
      exact (List.mem_filter.1 hx).1
  | @connectDone i ok _ hi =>
      cases ok with
      | false => exact absurd rfl (hfailed i)
      | true =>
          refine hquiet rfl ?_
          simp only [ClientTimers.connectDone, hi]
          exact ⟨rfl, rfl, rfl⟩
  | resolveFail hi =>
      refine hquiet rfl ?_
      simp only [ClientTimers.resolveFail, hi]
      exact ⟨rfl, rfl, rfl⟩
  | connectionTimeout hw hcompleted => exact promised_timeout hrunning hs hw hcompleted
  | connectionExpire i hexpired =>
      intro _ x hx
      have hx : x ∈ owed l := by simpa [attempt] using hx
      obtain ⟨w, hw, htarget, hlate⟩ := hs hrunning x hx
      obtain ⟨j, hj⟩ := List.mem_iff_getElem?.1 hw
      have hcompleted : ∃ w' ∈ (s.completeConnection i).connectionWaits, (w'.ep, w'.id) = x := by
        refine ⟨if i = j then { w with completed := true } else w, ?_, ?_⟩
        · refine List.mem_of_getElem? (i := j) ?_
          rw [completeConnection, List.getElem?_modify, hj]
          split <;> rfl
        · split <;> exact htarget
      obtain ⟨w', hw', htarget'⟩ := hcompleted
      exact ⟨w', hw', htarget', fun _ => hexpired⟩
  | tick seconds =>
      intro _ x hx
      have hx : x ∈ owed l := by simpa [attempt] using hx
      obtain ⟨w, hw, htarget, hlate⟩ := hs hrunning x hx
      exact ⟨w, hw, htarget, fun hcompleted => Nat.le_add_right_of_le (hlate hcompleted)⟩
  | stop hstopped _ _ _ _ => exact fun hrun => nomatch hstopped.symm.trans hrun
  | expire p i => exact hquiet rfl ⟨rfl, rfl, rfl⟩
  | @stunTimeout p i w _ =>
      obtain ⟨hwaits, hexpires, hnow⟩ :=
        undisturbed_handleStunTimeout (s.takeWait p i) w.sessionId
      exact hquiet rfl ⟨hwaits, hexpires, hnow⟩
  | receive p frame =>
      refine hquiet rfl ?_
      unfold ClientTimers.receive
      cases frame.command <;> exact ⟨rfl, rfl, rfl⟩
  | accept => exact hquiet rfl ⟨rfl, rfl, rfl⟩
  | follow hruns => exact hquiet (attempt_of_runs hruns) ⟨rfl, rfl, rfl⟩

/-- In every run in which a TCP connect fails only while no other target waits for its
retry, a running client has an outstanding wait for each target it owes a retry; and
the first failure that is not so breaks a promise. -/
theorem promised_iff_careful {s : ClientTimers × List Attempt}
    (h : (system.recording attempt).ReachableWhile Careful s) :
    Promised s ∧ ∀ e t, (system.recording attempt).step s e = some t →
      (Promised t ↔ Careful s e) := by
  have hstep {s t : ClientTimers × List Attempt} {e : Event} (hs : Promised s)
      (h : (system.recording attempt).step s e = some t) : Promised t ↔ Careful s e := by
    obtain ⟨u, hu, rfl⟩ := Option.map_eq_some_iff.1 h
    by_cases hfailed : ∀ i, e ≠ .connectDone i false
    · refine ⟨fun _ => ?_, fun _ => promised_other hu hs hfailed⟩
      cases e with
      | connectDone i ok =>
          cases ok with
          | false => exact absurd rfl (hfailed i)
          | true => trivial
      | _ => trivial
    · push Not at hfailed
      obtain ⟨i, rfl⟩ := hfailed
      obtain ⟨hrunning, hhandle⟩ := Option.ite_none_right_eq_some.1 hu
      obtain ⟨hi, hhandle⟩ := Option.ite_none_right_eq_some.1 hhandle
      cases hhandle
      have hx : s.1.target i = some (s.1.connecting[i].2,
          (s.1.client.session s.1.connecting[i].1).id) := by
        simp [target, List.getElem?_eq_getElem hi]
      have hrecord := promised_failed (l := s.2) hrunning hx
      simpa only [attempt, hx, Option.map_some, Option.toList_some] using hrecord
  have hs : Promised s := by
    refine h.invariant ?_ fun s e t hs hcareful h => (hstep hs h).2 hcareful
    rintro s ⟨-, hempty⟩ - x hx
    rw [hempty] at hx
    cases hx
  exact ⟨hs, fun e t => hstep hs⟩

instance (s : ClientTimers × List Attempt) (e : Event) : Decidable (Careful s e) := by
  unfold Careful
  split <;> infer_instance

/-- What a client owes, its connection timer, and the endpoints it is connecting to. -/
structure RetryView where
  isRunning : Bool
  owed : List Target
  waits : List ConnectionWait
  expired : Bool
  connecting : List (Address × BitVec 16)
  deriving DecidableEq

def retryView (s : ClientTimers × List Attempt) : RetryView where
  isRunning := s.1.isRunning
  owed := ClientTimers.owed s.2
  waits := s.1.connectionWaits
  expired := s.1.connectionExpiresAt ≤ s.1.now
  connecting := s.1.connecting.map Prod.snd

/-- A client that connects to two endpoints, which both refuse. -/
def refusedRun : List Event :=
  [.connect (.v4 1, 80) 7, .connect (.v4 2, 80) 8, .connectDone 0 false, .connectDone 0 false]

/-- The second failure has cancelled the wait of the first one, whose handler then
drops it: nobody will connect to the first endpoint. -/
theorem refusedRun_not_promised :
    (∃ s, (system.recording attempt).exec ({ client := { clientId := 7 } }, []) refusedRun =
        some s ∧ s.1.isRunning = true ∧ ¬ Promised s) ∧
    ((system.recording attempt).exec ({ client := { clientId := 7 } }, [])
      (refusedRun ++ [.connectionTimeout 0])).map retryView =
        some ⟨true, [((.v4 1, 80), 7), ((.v4 2, 80), 8)], [⟨(.v4 2, 80), 8, false⟩], false,
          []⟩ := by
  have hview : ((system.recording attempt).exec ({ client := { clientId := 7 } }, [])
      refusedRun).map retryView = some ⟨true, [((.v4 1, 80), 7), ((.v4 2, 80), 8)],
        [⟨(.v4 1, 80), 7, true⟩, ⟨(.v4 2, 80), 8, false⟩], false, []⟩ := by
    decide +kernel
  refine ⟨?_, by decide +kernel⟩
  obtain ⟨s, hs, hv⟩ := Option.map_eq_some_iff.1 hview
  have hrunning : s.1.isRunning = true := congrArg RetryView.isRunning hv
  have howed : owed s.2 = [((.v4 1, 80), 7), ((.v4 2, 80), 8)] := congrArg RetryView.owed hv
  have hwaits : s.1.connectionWaits = [⟨(.v4 1, 80), 7, true⟩, ⟨(.v4 2, 80), 8, false⟩] :=
    congrArg RetryView.waits hv
  have hexpired : decide (s.1.connectionExpiresAt ≤ s.1.now) = false :=
    congrArg RetryView.expired hv
  refine ⟨s, hs, hrunning, fun hpromised => ?_⟩
  obtain ⟨w, hw, htarget, hlate⟩ :=
    hpromised hrunning ((.v4 1, 80), 7) (by rw [howed]; exact .head _)
  rw [hwaits] at hw
  rcases List.mem_cons.1 hw with rfl | hw
  · exact absurd (hlate rfl) (of_decide_eq_false hexpired)
  · obtain rfl := List.mem_singleton.1 hw
    exact absurd htarget (by decide)

/-- A client that connects to one endpoint, which refuses, until its retry is due. -/
def retriedRun : List Event :=
  [.connect (.v4 1, 80) 7, .connectDone 0 false, .tick 5, .connectionExpire 0]

/-- The wait has completed, and its handler tries again. -/
theorem retriedRun_promised :
    (∃ s, (system.recording attempt).execWhile Careful ({ client := { clientId := 7 } }, [])
      retriedRun = some s ∧ retryView s =
        ⟨true, [((.v4 1, 80), 7)], [⟨(.v4 1, 80), 7, true⟩], true, []⟩ ∧ Promised s) ∧
    ((system.recording attempt).exec ({ client := { clientId := 7 } }, [])
      (retriedRun ++ [.connectionTimeout 0])).map retryView =
        some ⟨true, [], [], true, [(.v4 1, 80)]⟩ := by
  have hview : ((system.recording attempt).execWhile Careful ({ client := { clientId := 7 } }, [])
      retriedRun).map retryView =
        some ⟨true, [((.v4 1, 80), 7)], [⟨(.v4 1, 80), 7, true⟩], true, []⟩ := by
    decide +kernel
  refine ⟨?_, by decide +kernel⟩
  obtain ⟨s, hs, hv⟩ := Option.map_eq_some_iff.1 hview
  have hinit : (system.recording attempt).init ({ client := { clientId := 7 } }, []) :=
    ⟨⟨7, 0, rfl⟩, rfl⟩
  exact ⟨s, hs, hv, (promised_iff_careful ((System.ReachableWhile.init hinit).execWhile hs)).1⟩

end ClientTimers

end OpenNat
