import Mathlib.Logic.Function.Basic

/-!
# Registries of pairs

A pair has two halves, a down one and an up one, each of which may be empty. A
pair map registers the two ends of a relayed session under one key: an end is
added into its own half, which must be empty, a pair is found as a whole and
removed as a whole. A pair that is in the map therefore only grows.
-/

namespace Registry

inductive Side
  | down
  | up
  deriving DecidableEq, Repr

namespace Side

def other : Side → Side
  | down => up
  | up => down

@[simp] theorem other_other (d : Side) : d.other.other = d := by cases d <;> rfl

theorem other_ne (d : Side) : d.other ≠ d := by cases d <;> decide

theorem eq_or_eq_other (d e : Side) : e = d ∨ e = d.other := by
  cases d <;> cases e <;> decide

end Side

@[ext] structure Pair (σ : Type*) where
  down : Option σ
  up : Option σ
  deriving DecidableEq

namespace Pair

variable {σ : Type*}

def get (p : Pair σ) : Side → Option σ
  | .down => p.down
  | .up => p.up

def set (p : Pair σ) (s : σ) : Side → Pair σ
  | .down => { p with down := some s }
  | .up => { p with up := some s }

def single (s : σ) (d : Side) : Pair σ := set ⟨none, none⟩ s d

def Contains (p : Pair σ) (s : σ) : Prop := ∃ d, p.get d = some s

@[simp] theorem get_set_same (p : Pair σ) (s : σ) (d : Side) :
    (p.set s d).get d = some s := by cases d <;> rfl

@[simp] theorem get_set_other (p : Pair σ) (s : σ) (d : Side) :
    (p.set s d).get d.other = p.get d.other := by cases d <;> rfl

@[simp] theorem get_single_same (s : σ) (d : Side) :
    (single s d).get d = some s := by cases d <;> rfl

@[simp] theorem get_single_other (s : σ) (d : Side) :
    (single s d).get d.other = none := by cases d <;> rfl

end Pair

structure PairMap (κ σ : Type*) where
  map : κ → Option (Pair σ)

namespace PairMap

variable {κ σ : Type*}

def empty : PairMap κ σ := ⟨fun _ => none⟩

def find (m : PairMap κ σ) (key : κ) : Option (Pair σ) := m.map key

@[simp] theorem find_empty (key : κ) : (empty : PairMap κ σ).find key = none := rfl

variable [DecidableEq κ]

def update (m : PairMap κ σ) (key : κ) (entry : Option (Pair σ)) : PairMap κ σ :=
  ⟨Function.update m.map key entry⟩

/-- Adds a session into the half named by `side`; `none` if there is no such
half or it is taken. -/
def add (m : PairMap κ σ) (key : κ) (side : Option Side) (s : σ) :
    Option (PairMap κ σ) :=
  side.bind fun d =>
    match m.find key with
    | none => some (m.update key (some (.single s d)))
    | some p => if (p.get d).isSome then none else some (m.update key (some (p.set s d)))

def remove (m : PairMap κ σ) (key : κ) : PairMap κ σ := m.update key none

theorem find_update (m : PairMap κ σ) (key key' : κ) (entry : Option (Pair σ)) :
    (m.update key entry).find key' = if key' = key then entry else m.find key' :=
  Function.update_apply m.map key entry key'

theorem find_remove (m : PairMap κ σ) (key key' : κ) :
    (m.remove key).find key' = if key' = key then none else m.find key' :=
  m.find_update key key' none

theorem find_of_find_remove {m : PairMap κ σ} {key key' : κ} {p : Pair σ}
    (h : (m.remove key).find key' = some p) : key' ≠ key ∧ m.find key' = some p := by
  rw [find_remove] at h
  by_cases hkey : key' = key
  · simp [hkey] at h
  · exact ⟨hkey, by simpa [hkey] using h⟩

/-- What a successful addition does: it opens a pair with one half, or fills
the empty half of the pair that is there. -/
theorem add_eq_some_iff {m m' : PairMap κ σ} {key : κ} {side : Option Side} {s : σ} :
    m.add key side s = some m' ↔
      ∃ d, side = some d ∧
        ((m.find key = none ∧ m' = m.update key (some (.single s d))) ∨
        (∃ p, m.find key = some p ∧ p.get d = none ∧
          m' = m.update key (some (p.set s d)))) := by
  unfold add
  cases side with
  | none => simp
  | some d =>
      cases m.find key with
      | none => simp [eq_comm]
      | some p =>
          cases hget : p.get d with
          | some other => simp [hget]
          | none =>
              constructor
              · intro h
                have hm : m.update key (some (p.set s d)) = m' := by
                  simpa [hget] using h
                exact ⟨d, rfl, .inr ⟨p, rfl, hget, hm.symm⟩⟩
              · rintro ⟨_, hd, ⟨hnone, -⟩ | ⟨_, hp, -, rfl⟩⟩
                · cases hnone
                · cases hd
                  cases hp
                  simp [hget]

/-- An addition is refused exactly without a half to fill or with that half
taken. -/
theorem add_eq_none_iff {m : PairMap κ σ} {key : κ} {side : Option Side} {s : σ} :
    m.add key side s = none ↔
      side = none ∨ ∃ d p, side = some d ∧ m.find key = some p ∧ (p.get d).isSome := by
  unfold add
  cases side with
  | none => simp
  | some d =>
      cases m.find key with
      | none => simp
      | some p => cases hget : p.get d <;> simp [hget]

/-- After an addition the session is in its half, the opposite half under the
key is what it was, and the other keys keep their pairs. -/
theorem find_of_add {m m' : PairMap κ σ} {key : κ} {d : Side} {s : σ}
    (h : m.add key (some d) s = some m') :
    (∃ p, m'.find key = some p ∧ p.get d = some s ∧
      p.get d.other = (m.find key).bind (·.get d.other)) ∧
    ∀ key', key' ≠ key → m'.find key' = m.find key' := by
  obtain ⟨_, hd, ⟨hnone, rfl⟩ | ⟨p, hp, -, rfl⟩⟩ := add_eq_some_iff.1 h
  · cases hd
    refine ⟨⟨.single s d, by simp [find_update], by simp, by simp [hnone]⟩, ?_⟩
    intro key' hkey
    simp [find_update, hkey]
  · cases hd
    refine ⟨⟨p.set s d, by simp [find_update], by simp, by simp [hp]⟩, ?_⟩
    intro key' hkey
    simp [find_update, hkey]

theorem vacant_of_add {m m' : PairMap κ σ} {key : κ} {d : Side} {s : σ} {p : Pair σ}
    (h : m.add key (some d) s = some m') (hp : m.find key = some p) : p.get d = none := by
  obtain ⟨_, hd, ⟨hnone, -⟩ | ⟨q, hq, hempty, -⟩⟩ := add_eq_some_iff.1 h
  · exact nomatch hnone.symm.trans hp
  · cases hd
    obtain rfl : q = p := Option.some.inj (hq.symm.trans hp)
    exact hempty

/-- No pair is empty. -/
def Occupied (m : PairMap κ σ) : Prop :=
  ∀ key p, m.find key = some p → ∃ s, p.Contains s

omit [DecidableEq κ] in
theorem occupied_empty : (empty : PairMap κ σ).Occupied := by
  rintro key p ⟨⟩

/-- An addition leaves no pair empty: the changed one holds the new session. -/
theorem Occupied.add {m m' : PairMap κ σ} (hm : m.Occupied) {key : κ} {d : Side} {s : σ}
    (h : m.add key (some d) s = some m') : m'.Occupied := by
  obtain ⟨⟨q, hq, hs, -⟩, hrest⟩ := find_of_add h
  intro key' p hp
  by_cases hkey : key' = key
  · subst hkey
    obtain rfl := Option.some.inj (hq.symm.trans hp)
    exact ⟨s, d, hs⟩
  · rw [hrest key' hkey] at hp
    exact hm key' p hp

/-- A session that is in a pair stays in it when the other half is filled. -/
theorem contains_of_add {m m' : PairMap κ σ} {key : κ} {d : Side} {s s' : σ}
    {p p' : Pair σ} (h : m.add key (some d) s = some m') (hp : m.find key = some p)
    (hp' : m'.find key = some p') (hs : p.Contains s') : p'.Contains s' := by
  have hempty := vacant_of_add h hp
  obtain ⟨⟨q, hq, -, hother⟩, -⟩ := find_of_add h
  obtain rfl := Option.some.inj (hq.symm.trans hp')
  obtain ⟨e, he⟩ := hs
  rcases d.eq_or_eq_other e with rfl | rfl
  · exact nomatch hempty.symm.trans he
  · refine ⟨d.other, ?_⟩
    rw [hother, hp]
    exact he

end PairMap

end Registry
