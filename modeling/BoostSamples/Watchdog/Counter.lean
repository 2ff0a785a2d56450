import Mathlib.Data.List.Basic
import Mathlib.Logic.Function.Basic

/-!
# A watchdog that counts unanswered probes

Sessions are registered under keys, and each has a counter. When the timer of a
session is found expired, the session is probed and its counter goes up, or, if
the counter has reached its limit, the session is removed. Hearing from a session
resets its counter.

`Beat` records what matters of a run, and `silent` is what has happened to one
session since it was registered or last heard of. The counter says how long the
silence is, so a session is removed only after a silence of the whole limit.
-/

namespace Watchdog

inductive Beat (κ : Type*)
  | registered (c : κ)
  | heard (c : κ)
  /-- The timer was found expired; the flag says whether a probe was sent. -/
  | expired (c : κ) (probed : Bool)
  deriving DecidableEq, Repr

variable {ι κ : Type*} [DecidableEq κ]

def Beat.after (c : κ) (flags : List Bool) : Beat κ → List Bool
  | .registered d => if d = c then [] else flags
  | .heard d => if d = c then [] else flags
  | .expired d probed => if d = c then flags ++ [probed] else flags

/-- The records that the timer of a session was found expired since it was
registered or last heard of: for each, whether a probe was sent. -/
def silent (c : κ) (l : List (Beat κ)) : List Bool := l.foldl (Beat.after c) []

@[simp] theorem silent_nil (c : κ) : silent c [] = [] := rfl

theorem silent_append (c : κ) (l : List (Beat κ)) (b : Beat κ) :
    silent c (l ++ [b]) = b.after c (silent c l) := by
  rw [silent, List.foldl_append]
  rfl

/-- The session has been silent for more than the limit, and it has been probed
each time that its timer was found expired but the last. -/
def Overdue (limit : Nat) (c : κ) (l : List (Beat κ)) : Prop :=
  limit + 1 ≤ (silent c l).length ∧ ∀ probed ∈ (silent c l).take limit, probed = true

instance (limit : Nat) (c : κ) (l : List (Beat κ)) : Decidable (Overdue limit c l) :=
  inferInstanceAs (Decidable (_ ∧ _))

structure Watch (ι κ : Type*) where
  find : ι → Option κ
  timeout : κ → Nat

namespace Watch

variable {limit : Nat} {s t : Watch ι κ} {l : List (Beat κ)} {b : Option (Beat κ)}

/-- What one step does to the watchdog, and what is recorded of it. -/
inductive Step (limit : Nat) (s t : Watch ι κ) : Option (Beat κ) → Prop
  | rest : (∀ id c, t.find id = some c → s.find id = some c) → t.timeout = s.timeout →
      Step limit s t none
  | registered {c : κ} : s.timeout c = 0 →
      (∀ id d, t.find id = some d → d = c ∨ s.find id = some d) → t.timeout = s.timeout →
      Step limit s t (some (.registered c))
  | heard {c : κ} : (∀ id d, t.find id = some d → s.find id = some d) →
      t.timeout = Function.update s.timeout c 0 → Step limit s t (some (.heard c))
  | probed {id : ι} {c : κ} : s.find id = some c → s.timeout c < limit → t.find = s.find →
      t.timeout = Function.update s.timeout c (s.timeout c + 1) →
      Step limit s t (some (.expired c true))
  | removed {c : κ} : s.timeout c = limit →
      (∀ id d, t.find id = some d ↔ s.find id = some d ∧ d ≠ c) → t.timeout = s.timeout →
      Step limit s t (some (.expired c false))

/-- No counter exceeds the limit, and that of a registered session is the length
of its silence, in which it has been probed each time. -/
structure Counted (limit : Nat) (s : Watch ι κ) (l : List (Beat κ)) : Prop where
  bounded : ∀ c, s.timeout c ≤ limit
  probed : ∀ id c, s.find id = some c → silent c l = List.replicate (s.timeout c) true

theorem Counted.step (hs : s.Counted limit l) (h : s.Step limit t b) :
    t.Counted limit (l ++ b.toList) := by
  cases h with
  | rest hfind htimeout =>
      refine ⟨fun c => htimeout ▸ hs.bounded c, fun id c hc => ?_⟩
      rw [htimeout, Option.toList_none, List.append_nil]
      exact hs.probed id c (hfind id c hc)
  | @registered c hzero hfind htimeout =>
      refine ⟨fun c => htimeout ▸ hs.bounded c, fun id d hd => ?_⟩
      rw [htimeout, Option.toList_some, silent_append]
      by_cases hdc : c = d
      · subst hdc
        simp [Beat.after, hzero]
      · simp only [Beat.after, if_neg hdc]
        exact hs.probed id d ((hfind id d hd).resolve_left fun h => hdc h.symm)
  | @heard c hfind htimeout =>
      refine ⟨fun d => ?_, fun id d hd => ?_⟩
      · rw [htimeout, Function.update_apply]
        split
        · exact Nat.zero_le limit
        · exact hs.bounded d
      · rw [htimeout, Option.toList_some, silent_append, Function.update_apply]
        by_cases hdc : c = d
        · subst hdc
          simp [Beat.after]
        · simp only [Beat.after, if_neg hdc, if_neg fun h => hdc (Eq.symm h)]
          exact hs.probed id d (hfind id d hd)
  | @probed _ c _ hless hfind htimeout =>
      refine ⟨fun d => ?_, fun id d hd => ?_⟩
      · rw [htimeout, Function.update_apply]
        split
        · exact hless
        · exact hs.bounded d
      · rw [hfind] at hd
        rw [htimeout, Option.toList_some, silent_append, Function.update_apply]
        by_cases hdc : c = d
        · subst hdc
          simp only [Beat.after, if_true, hs.probed id c hd]
          exact (List.replicate_succ').symm
        · simp only [Beat.after, if_neg hdc, if_neg fun h => hdc (Eq.symm h)]
          exact hs.probed id d hd
  | @removed c hlimit hfind htimeout =>
      refine ⟨fun c => htimeout ▸ hs.bounded c, fun id d hd => ?_⟩
      obtain ⟨hold, hne⟩ := (hfind id d).1 hd
      rw [htimeout, Option.toList_some, silent_append]
      simp only [Beat.after, if_neg fun h => hne (Eq.symm h)]
      exact hs.probed id d hold

theorem Step.timeout_eq_zero (h : s.Step limit t b) {c : κ} (hzero : s.timeout c = 0)
    (hc : ∀ id, s.find id ≠ some c) : t.timeout c = 0 := by
  cases h with
  | rest _ htimeout => rw [htimeout, hzero]
  | registered _ _ htimeout => rw [htimeout, hzero]
  | heard _ htimeout =>
      rw [htimeout, Function.update_apply]
      split
      · rfl
      · exact hzero
  | @probed id d hd _ _ htimeout =>
      have hne : c ≠ d := by
        rintro rfl
        exact hc id hd
      rw [htimeout, Function.update_of_ne hne, hzero]
  | removed _ _ htimeout => rw [htimeout, hzero]

/-- A session that a look at a timer removes has been silent for the whole limit:
its timer has been found expired once more, and it has been probed each time
before. -/
theorem Counted.removed (hs : s.Counted limit l) {c : κ} {probed : Bool}
    (h : s.Step limit t (some (.expired c probed))) {id : ι} {d : κ}
    (hbefore : s.find id = some d) (hafter : t.find id ≠ some d) :
    Overdue limit d (l ++ [.expired c probed]) := by
  cases h with
  | probed _ _ hfind _ => exact absurd (hfind ▸ hbefore) hafter
  | removed hlimit hfind _ =>
      have hdc : d = c := by
        by_contra hne
        exact hafter ((hfind id d).2 ⟨hbefore, hne⟩)
      subst hdc
      have hsilent : silent d (l ++ [.expired d false]) = List.replicate limit true ++ [false] := by
        rw [silent_append, hs.probed id d hbefore, hlimit]
        exact if_pos rfl
      rw [Overdue, hsilent]
      refine ⟨by simp, fun probed hprobed => ?_⟩
      rw [List.take_left' (List.length_replicate ..)] at hprobed
      exact List.eq_of_mem_replicate hprobed

end Watch

end Watchdog
