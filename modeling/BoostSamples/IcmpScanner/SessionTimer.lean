import BoostSamples.IcmpScanner.Scan

/-!
# The timers of the ICMP scanner

Each session has a timer, which is set to 40 seconds when the session is registered, when a
request is sent for it and when a reply with its id is found. Setting it cancels the wait
on it, and the handler of a wait waits again or erases the session. `Timed` adds the
outstanding waits to the state of the scanner, and the record of a run holds when the timer
of which session was set.

A session has one wait as long as it is registered, and it is erased by the end of that
wait and only when nothing was sent or found for it for 40 seconds: `erased_iff`.
-/

namespace IcmpScanner

open Transition

/-- How a wait ends: by the timer, because the timer was set again, or with another
error. -/
inductive WaitEnd
  | expired
  | aborted
  | failed
  deriving DecidableEq

structure Timed (k : ℕ) where
  scanner : Scanner k := {}
  waits : List Uuid := []

/-- What can happen: an event of the scanner, or the end of a wait. -/
inductive TimedEvent
  | scanner (e : Scanner.Event)
  | waitDone (i : ℕ) (r : WaitEnd)

namespace Timed

variable {k : ℕ}

/-- `ICMPScanner::HandleSessionTimeout`, with the wait that it starts. -/
def handleSessionTimeout (s : Timed k) (id : Uuid) : WaitEnd → Timed k
  | .failed => s
  | .expired | .aborted =>
      match s.scanner.sessions id with
      | none => s
      | some expiresAt =>
          if expiresAt ≤ s.scanner.now then
            { s with scanner := s.scanner.handleSessionTimeout id }
          else { s with waits := s.waits ++ [id] }

/-- The timer that is set, and when: `Scan` registers a session, a request is sent, or the
id of a reply is found. -/
def sets (s : Scanner k) : Scanner.Event → Option (ℕ × Uuid)
  | .scan _ _ id => if s.sessions id = none then some (s.now, id) else none
  | .sendDone i ok =>
      s.sends[i]?.bind fun x =>
        if ok ∧ x.lastEndpoint ≠ 0 ∧ x.endpoint < x.lastEndpoint ∧
            (s.sessions x.sessionId).isSome then
          some (s.now, x.sessionId)
        else none
  | .receive id => if (s.sessions id).isSome then some (s.now, id) else none
  | .sessionTimeout _ | .tick _ => none

def scanWaits (s : Scanner k) : Scanner.Event → List Uuid
  | .scan _ _ id => if s.sessions id = none then [id] else []
  | _ => []

/-- One event; the handler of a timer runs only at the end of a wait. -/
def step (s : Timed k) : TimedEvent → Option (Timed k)
  | .scanner (.sessionTimeout _) => none
  | .scanner e => (s.scanner.step e).map fun t => ⟨t, s.waits ++ scanWaits s.scanner e⟩
  | .waitDone i r =>
      s.waits[i]?.map fun id => { s with waits := s.waits.eraseIdx i }.handleSessionTimeout id r

def setsOf (s : Timed k) : TimedEvent → Option (ℕ × Uuid)
  | .scanner e => sets s.scanner e
  | .waitDone _ _ => none

end Timed

def timing (k : ℕ) : System (Timed k) TimedEvent where
  init s := s = {}
  step := Timed.step

/-- No wait ends with an error of its own. -/
def Sound {k : ℕ} (_ : Timed k) (a : TimedEvent) : Prop := ∀ i, a ≠ .waitDone i .failed

namespace Timed

variable {k : ℕ}

def restarted (x : Option (ℕ × Uuid)) (sessions : Uuid → Option ℕ) : Uuid → Option ℕ :=
  match x with
  | none => sessions
  | some (time, id) => Function.update sessions id (some (time + 40))

section Sessions

variable {s t : Scanner k}

theorem sessions_restart (s : Scanner k) (id : Uuid) :
    (s.restart id).sessions = restarted (some (s.now, id)) s.sessions := rfl

theorem sessions_echoRequest (s : Scanner k) (endpoint lastEndpoint : ULong k) (id : Uuid) :
    (s.echoRequest endpoint lastEndpoint id).1.sessions =
      restarted (if (s.sessions id).isSome then some (s.now, id) else none) s.sessions ∧
    (s.echoRequest endpoint lastEndpoint id).1.now = s.now := by
  rw [Scanner.echoRequest]
  split
  · next hnone =>
      rw [hnone]
      exact ⟨rfl, rfl⟩
  · next hsome =>
      rw [hsome]
      split
      · exact ⟨rfl, rfl⟩
      · exact ⟨rfl, rfl⟩

theorem sessions_scan (s : Scanner k) (network netmask : Address) (id : Uuid) :
    (s.scan network netmask id).1.sessions =
      restarted (if s.sessions id = none then some (s.now, id) else none) s.sessions ∧
    (s.scan network netmask id).1.now = s.now := by
  have hle := Scanner.le_lastAddress network netmask
  rw [Scanner.scan]
  simp only [Scanner.lastAddress_eq, Scanner.ofUlong_toUlong, Scanner.toUlong_lt_iff,
    Nat.not_lt.2 hle, reduceCtorEq, or_self, if_false]
  split
  · next hsome =>
      rw [hsome, if_neg (Option.some_ne_none _)]
      exact ⟨rfl, rfl⟩
  · next hnone =>
      obtain ⟨hsessions, hnow⟩ := sessions_echoRequest (s.restart id)
        (toUlong k network) (if toUlong k network ≠ toUlong k (Scanner.lastAddress network netmask)
          then toUlong k (Scanner.lastAddress network netmask) else 0) id
      rw [if_pos (Scanner.restart_sessions_self s id), sessions_restart] at hsessions
      rw [hnone, if_pos rfl]
      refine ⟨hsessions.trans ?_, hnow⟩
      exact Function.update_idem _ _ _

theorem sessions_step {e : Scanner.Event} (h : s.step e = some t)
    (he : ∀ id, e ≠ .sessionTimeout id) :
    t.sessions = restarted (sets s e) s.sessions ∧ s.now ≤ t.now := by
  cases e with
  | scan network netmask id =>
      cases h
      obtain ⟨hsessions, hnow⟩ := sessions_scan s network netmask id
      exact ⟨hsessions, Nat.le_of_eq hnow.symm⟩
  | sendDone i ok =>
      obtain ⟨x, hx, rfl⟩ := Option.map_eq_some_iff.1 h
      simp only [sets, hx, Option.bind_some]
      rw [Scanner.handleSend]
      split
      · next hgo =>
          obtain ⟨hsessions, hnow⟩ := sessions_echoRequest
            { s with sends := s.sends.eraseIdx i } (x.endpoint + 1) x.lastEndpoint x.sessionId
          refine ⟨hsessions.trans ?_, Nat.le_of_eq hnow.symm⟩
          simp only [hgo.1, hgo.2.1, hgo.2.2, ne_eq, not_false_eq_true, true_and]
      · next hstop =>
          rw [if_neg fun hall => hstop ⟨hall.1, hall.2.1, hall.2.2.1⟩]
          exact ⟨rfl, Nat.le_refl _⟩
  | receive id =>
      cases h
      rw [Scanner.handleReceive, sets]
      split
      · exact ⟨rfl, Nat.le_refl _⟩
      · exact ⟨rfl, Nat.le_refl _⟩
  | sessionTimeout id => exact absurd rfl (he id)
  | tick seconds =>
      cases h
      exact ⟨rfl, Nat.le_add_right _ _⟩

end Sessions

section Invariant

variable {s t : Timed k} {log : List (ℕ × Uuid)} {a : TimedEvent}

structure Timely (s : Timed k) (log : List (ℕ × Uuid)) : Prop where
  past : ∀ x ∈ log, x.1 ≤ s.scanner.now
  expires : ∀ id expiresAt, s.scanner.sessions id = some expiresAt →
    ∃ time, expiresAt = time + 40 ∧ (time, id) ∈ log ∧ ∀ x ∈ log, x.2 = id → x.1 ≤ time

/-- Each registered session has one wait, and there are no others. -/
def Awaited (s : Timed k) : Prop :=
  ∀ id, s.waits.count id = if (s.scanner.sessions id).isSome then 1 else 0

theorem handleSessionTimeout_cases (s : Timed k) (id : Uuid) (r : WaitEnd) :
    s.handleSessionTimeout id r = s ∧ (r ≠ .failed → s.scanner.sessions id = none) ∨
    (∃ expiresAt, s.scanner.sessions id = some expiresAt ∧ s.scanner.now < expiresAt ∧
      s.handleSessionTimeout id r = { s with waits := s.waits ++ [id] }) ∨
    ∃ expiresAt, s.scanner.sessions id = some expiresAt ∧ expiresAt ≤ s.scanner.now ∧
      r ≠ .failed ∧ s.handleSessionTimeout id r =
        { s with scanner := { s.scanner with
            sessions := Function.update s.scanner.sessions id none } } := by
  by_cases hr : r = .failed
  · rw [hr]
    exact .inl ⟨rfl, fun h => absurd rfl h⟩
  · have hhandle : s.handleSessionTimeout id r = match s.scanner.sessions id with
        | none => s
        | some expiresAt =>
            if expiresAt ≤ s.scanner.now then
              { s with scanner := s.scanner.handleSessionTimeout id }
            else { s with waits := s.waits ++ [id] } := by
      cases r with
      | expired => rfl
      | aborted => rfl
      | failed => exact absurd rfl hr
    rw [hhandle]
    cases hsession : s.scanner.sessions id with
    | none => exact .inl ⟨rfl, fun _ => rfl⟩
    | some expiresAt =>
        by_cases hle : expiresAt ≤ s.scanner.now
        · refine .inr (.inr ⟨expiresAt, rfl, hle, hr, ?_⟩)
          simp only [if_pos hle, Scanner.handleSessionTimeout, hsession]
        · refine .inr (.inl ⟨expiresAt, rfl, Nat.not_le.1 hle, ?_⟩)
          simp only [if_neg hle]

theorem timely_start : Timely ({} : Timed k) [] :=
  ⟨fun x hx => absurd hx List.not_mem_nil, fun id e h => by cases h⟩

theorem Timely.sets {x : Option (ℕ × Uuid)} (h : Timely s log)
    (hx : ∀ y ∈ x, y.1 = s.scanner.now)
    (hsessions : t.scanner.sessions = restarted x s.scanner.sessions)
    (hnow : s.scanner.now ≤ t.scanner.now) : Timely t (log ++ x.toList) := by
  cases x with
  | none =>
      refine ⟨fun y hy => ?_, fun id e he => ?_⟩
      · rw [Option.toList_none, List.append_nil] at hy
        exact (h.past y hy).trans hnow
      · rw [hsessions] at he
        rw [Option.toList_none, List.append_nil]
        exact h.expires id e he
  | some y =>
      obtain ⟨time, id⟩ := y
      obtain rfl : time = s.scanner.now := hx _ rfl
      refine ⟨fun y hy => ?_, fun id' e he => ?_⟩
      · rcases List.mem_append.1 hy with hy | hy
        · exact (h.past y hy).trans hnow
        · rw [List.mem_singleton.1 hy]
          exact hnow
      · rw [hsessions] at he
        by_cases hid : id' = id
        · rw [hid, restarted, Function.update_self, Option.some.injEq] at he
          refine ⟨s.scanner.now, he.symm, by simp [hid], fun y hy _ => ?_⟩
          rcases List.mem_append.1 hy with hy | hy
          · exact h.past y hy
          · rw [List.mem_singleton.1 hy]
        · rw [restarted, Function.update_of_ne hid] at he
          obtain ⟨time, rfl, hmem, hlast⟩ := h.expires id' e he
          refine ⟨time, rfl, List.mem_append_left _ hmem, fun y hy hy' => ?_⟩
          rcases List.mem_append.1 hy with hy | hy
          · exact hlast y hy hy'
          · rw [List.mem_singleton.1 hy] at hy'
            exact absurd hy'.symm hid

theorem Timely.erase {id : Uuid} (h : Timely s log) (hnow : t.scanner.now = s.scanner.now)
    (hsessions : t.scanner.sessions = Function.update s.scanner.sessions id none) :
    Timely t log := by
  refine ⟨fun y hy => hnow ▸ h.past y hy, fun id' e he => ?_⟩
  rw [hsessions] at he
  by_cases hid : id' = id
  · rw [hid, Function.update_self] at he
    cases he
  · rw [Function.update_of_ne hid] at he
    exact h.expires id' e he

theorem now_of_mem_sets {s : Scanner k} {e : Scanner.Event} {y : ℕ × Uuid} (h : y ∈ sets s e) :
    y.1 = s.now := by
  cases e with
  | scan network netmask id =>
      obtain ⟨-, heq⟩ := Option.ite_none_right_eq_some.1 h
      cases heq
      rfl
  | sendDone i ok =>
      obtain ⟨x, -, hx⟩ := Option.bind_eq_some_iff.1 h
      obtain ⟨-, heq⟩ := Option.ite_none_right_eq_some.1 hx
      cases heq
      rfl
  | receive id =>
      obtain ⟨-, heq⟩ := Option.ite_none_right_eq_some.1 h
      cases heq
      rfl
  | sessionTimeout id => cases h
  | tick seconds => cases h

/-- A session is registered afterwards if it was or if `Scan` starts a wait for it, but not
both. -/
theorem isSome_restarted (s : Scanner k) (e : Scanner.Event) (id : Uuid) :
    (if (restarted (sets s e) s.sessions id).isSome then 1 else 0) =
      (if (s.sessions id).isSome then 1 else 0) + (scanWaits s e).count id := by
  have hkept {x : Option (ℕ × Uuid)} (hx : ∀ y ∈ x, (s.sessions y.2).isSome) :
      (restarted x s.sessions id).isSome = (s.sessions id).isSome := by
    cases x with
    | none => rfl
    | some y =>
        rw [restarted]
        by_cases hid : id = y.2
        · rw [hid, Function.update_self, hx y rfl]
          rfl
        · rw [Function.update_of_ne hid]
  cases e with
  | scan network netmask id' =>
      rw [sets, scanWaits]
      by_cases hnone : s.sessions id' = none
      · rw [if_pos hnone, if_pos hnone, restarted]
        by_cases hid : id = id'
        · rw [hid, Function.update_self, hnone]
          simp
        · rw [Function.update_of_ne hid]
          simp [Ne.symm hid]
      · rw [if_neg hnone, if_neg hnone]
        rfl
  | sendDone i ok =>
      rw [hkept]
      · rfl
      · intro y hy
        obtain ⟨x, -, hx⟩ := Option.bind_eq_some_iff.1 hy
        obtain ⟨hall, heq⟩ := Option.ite_none_right_eq_some.1 hx
        cases heq
        exact hall.2.2.2
  | receive id' =>
      rw [hkept]
      · rfl
      · intro y hy
        obtain ⟨hsome, heq⟩ := Option.ite_none_right_eq_some.1 hy
        cases heq
        exact hsome
  | sessionTimeout id' => rfl
  | tick seconds => rfl

/-- What an event is: one of the scanner, or the end of a wait. -/
theorem step_cases (h : s.step a = some t) :
    (∃ e u, a = .scanner e ∧ s.scanner.step e = some u ∧ (∀ id, e ≠ .sessionTimeout id) ∧
      t = ⟨u, s.waits ++ scanWaits s.scanner e⟩) ∨
    ∃ i r id, a = .waitDone i r ∧ s.waits[i]? = some id ∧
      t = { s with waits := s.waits.eraseIdx i }.handleSessionTimeout id r := by
  cases a with
  | scanner e =>
      have hscanner (he : ∀ id, e ≠ .sessionTimeout id) :
          s.step (.scanner e) =
            (s.scanner.step e).map fun t => ⟨t, s.waits ++ scanWaits s.scanner e⟩ := by
        cases e with
        | sessionTimeout id => exact absurd rfl (he id)
        | _ => rfl
      have he : ∀ id, e ≠ .sessionTimeout id := by
        rintro id rfl
        cases h
      rw [hscanner he] at h
      obtain ⟨u, hu, rfl⟩ := Option.map_eq_some_iff.1 h
      exact .inl ⟨e, u, rfl, hu, he, rfl⟩
  | waitDone i r =>
      obtain ⟨id, hid, rfl⟩ := Option.map_eq_some_iff.1 h
      exact .inr ⟨i, r, id, rfl, hid, rfl⟩

theorem Timely.step (h : Timely s log) (hstep : s.step a = some t) :
    Timely t (log ++ (setsOf s a).toList) := by
  rcases step_cases hstep with ⟨e, u, rfl, hu, he, rfl⟩ | ⟨i, r, id, rfl, hid, rfl⟩
  · obtain ⟨hsessions, hnow⟩ := sessions_step hu he
    exact h.sets (fun y hy => now_of_mem_sets hy) hsessions hnow
  · rw [setsOf, Option.toList_none, List.append_nil]
    have hwaits : Timely { s with waits := s.waits.eraseIdx i } log := ⟨h.past, h.expires⟩
    rcases handleSessionTimeout_cases { s with waits := s.waits.eraseIdx i } id r with
      ⟨heq, -⟩ | ⟨-, -, -, heq⟩ | ⟨-, -, -, -, heq⟩
    · rw [heq]
      exact hwaits
    · rw [heq]
      exact ⟨h.past, h.expires⟩
    · rw [heq]
      exact hwaits.erase rfl rfl

theorem Awaited.step (h : Awaited s) (hP : Sound s a) (hstep : s.step a = some t) :
    Awaited t := by
  intro id
  rcases step_cases hstep with ⟨e, u, rfl, hu, he, rfl⟩ | ⟨i, r, id', rfl, hid, rfl⟩
  · obtain ⟨hsessions, -⟩ := sessions_step hu he
    rw [hsessions, isSome_restarted, List.count_append, h id]
  · obtain ⟨before, after, hwaits, -, -, herase⟩ := exists_append_of_getElem? hid
    have hcount := h id
    rw [hwaits, List.count_append, List.count_cons] at hcount
    have hother := h id'
    rw [hwaits, List.count_append, List.count_cons_self] at hother
    have hr : r ≠ .failed := fun hr => hP i (by rw [hr])
    rcases handleSessionTimeout_cases { s with waits := s.waits.eraseIdx i } id' r with
      ⟨-, hnone⟩ | ⟨-, -, -, heq⟩ | ⟨e, hsome, -, -, heq⟩
    · rw [show s.scanner.sessions id' = none from hnone hr] at hother
      simp at hother
    · rw [heq, herase]
      change (before ++ after ++ [id']).count id = if (s.scanner.sessions id).isSome then 1 else 0
      rw [List.count_append, List.count_append, List.count_singleton]
      omega
    · rw [heq, herase]
      change (before ++ after).count id =
        if (Function.update s.scanner.sessions id' none id).isSome then 1 else 0
      rw [List.count_append]
      by_cases hsame : id = id'
      · rw [show s.scanner.sessions id' = some e from hsome] at hother
        rw [hsame, Function.update_self]
        simp at hother ⊢
        omega
      · rw [Function.update_of_ne hsame, ← hcount, if_neg (by simpa using Ne.symm hsame)]
        rfl

theorem timely_of_reachable (h : ((timing k).recording setsOf).Reachable (s, log)) :
    Timely s log := by
  refine h.recorded (I := Timely) ?_ ?_
  · rintro s rfl
    exact timely_start
  · exact fun s log a t ih hstep => ih.step hstep

theorem awaited_of_reachable
    (h : ((timing k).recording setsOf).ReachableWhile (fun s a => Sound s.1 a) (s, log)) :
    Awaited s := by
  refine h.recorded (I := fun s _ => Awaited s) ?_ ?_
  · rintro s rfl id
    rfl
  · exact fun s log a t ih hP hstep => ih.step hP hstep

/-- As long as no wait ends with an error of its own, a registered session has one wait, and
what erases it is the end of that wait, not before and then always when nothing has been
sent or found for it for 40 seconds. -/
theorem erased_iff {id : Uuid}
    (h : ((timing k).recording setsOf).ReachableWhile (fun s a => Sound s.1 a) (s, log))
    (hregistered : (s.scanner.sessions id).isSome) :
    s.waits.count id = 1 ∧ ∀ a t, s.step a = some t →
      (t.scanner.sessions id = none ↔
        (∃ i r, a = .waitDone i r ∧ r ≠ .failed ∧ s.waits[i]? = some id) ∧
          ∀ x ∈ log, x.2 = id → x.1 + 40 ≤ s.scanner.now) := by
  have hawaited := awaited_of_reachable h id
  rw [if_pos hregistered] at hawaited
  refine ⟨hawaited, fun a t hstep => ?_⟩
  obtain ⟨expiresAt, hexpires⟩ := Option.isSome_iff_exists.1 hregistered
  obtain ⟨time, rfl, hmem, hlast⟩ := (timely_of_reachable h.reachable).expires id _ hexpires
  rcases step_cases hstep with ⟨e, u, rfl, hu, he, rfl⟩ | ⟨i, r, id', rfl, hid, rfl⟩
  · -- an event of the scanner erases no session
    obtain ⟨hsessions, -⟩ := sessions_step hu he
    have hkept := isSome_restarted s.scanner e id
    rw [← hsessions, if_pos hregistered] at hkept
    constructor
    · intro hnone
      rw [hnone] at hkept
      exact absurd hkept (by simp; omega)
    · rintro ⟨⟨i, r, hne, -⟩, -⟩
      cases hne
  · have hcases := handleSessionTimeout_cases { s with waits := s.waits.eraseIdx i } id' r
    constructor
    · intro hnone
      rcases hcases with ⟨heq, -⟩ | ⟨-, -, -, heq⟩ | ⟨e, hsome, hle, hr, heq⟩
      · rw [heq] at hnone
        exact absurd hnone (hexpires ▸ Option.some_ne_none _)
      · rw [heq] at hnone
        exact absurd hnone (hexpires ▸ Option.some_ne_none _)
      · have hsame : id = id' := by
          by_contra hne
          rw [heq] at hnone
          exact absurd ((Function.update_of_ne hne _ _).symm.trans hnone)
            (hexpires ▸ Option.some_ne_none _)
        subst hsame
        obtain rfl : time + 40 = e := Option.some.inj (hexpires.symm.trans hsome)
        refine ⟨⟨i, r, rfl, hr, hid⟩, fun x hx hxid => ?_⟩
        have := hlast x hx hxid
        have hle' : time + 40 ≤ s.scanner.now := hle
        omega
    · rintro ⟨⟨j, q, heq, hr, hj⟩, hquiet⟩
      cases heq
      obtain rfl : id' = id := Option.some.inj (hid.symm.trans hj)
      have hle := hquiet _ hmem rfl
      rcases hcases with ⟨-, hnone⟩ | ⟨e, hsome, hlt, -⟩ | ⟨-, -, -, -, heq⟩
      · exact absurd (hnone hr) (hexpires ▸ Option.some_ne_none _)
      · obtain rfl : time + 40 = e := Option.some.inj (hexpires.symm.trans hsome)
        exact absurd hlt (Nat.not_lt.2 hle)
      · rw [heq]
        exact Function.update_self _ _ _

/-- A scan of one host that does not reply. -/
theorem erased_iff_sample :
    ∃ s : Timed 32, s.waits = [7] ∧
      ∀ t, s.step (.waitDone 0 .expired) = some t → t.scanner.sessions 7 = none := by
  have hstart : ((timing 32).recording setsOf).ReachableWhile (fun s a => Sound s.1 a)
      (({} : Timed 32), []) := .init ⟨rfl, rfl⟩
  have hscan := hstart.step (e := .scanner (.scan 1 0xFFFFFFFF 7)) (by intro i h; cases h) rfl
  have htick := hscan.step (e := .scanner (.tick 40)) (by intro i h; cases h) rfl
  obtain ⟨-, herased⟩ := @erased_iff 32 _ _ 7 htick rfl
  refine ⟨_, rfl, fun t ht => ((herased _ t ht).2 ⟨⟨0, .expired, rfl, by simp, rfl⟩, ?_⟩)⟩
  intro x hx _
  rw [List.mem_singleton.1 hx]
  exact Nat.le_refl 40

end Invariant

end Timed

end IcmpScanner
