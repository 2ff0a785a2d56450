import Mathlib.Data.List.Basic
import Mathlib.Logic.Function.Basic

/-!
# Chains of waits

Each connection has a list of outstanding waits, and each wait is bound to an id.
A wait that has run may be followed by another one, for the same id or another.
An id has a sole wait when no two waits, on one connection or on two, are bound
to it.
-/

namespace Watchdog

variable {κ ι : Type*} [DecidableEq κ]

/-- Some wait is bound to the id. -/
def Outstanding (chain : κ → List ι) (id : ι) : Prop := ∃ c, id ∈ chain c

/-- No two waits are bound to the id. -/
def Sole (chain : κ → List ι) (id : ι) : Prop :=
  ∀ (c c' : κ) (i i' : Nat), (chain c)[i]? = some id → (chain c')[i']? = some id → c = c' ∧ i = i'

def start (chain : κ → List ι) (c : κ) (id : ι) : κ → List ι :=
  Function.update chain c (chain c ++ [id])

def take (chain : κ → List ι) (c : κ) (i : Nat) : κ → List ι :=
  Function.update chain c ((chain c).eraseIdx i)

variable {chain : κ → List ι} {c : κ} {id key : ι} {i : Nat}

theorem getElem?_start {d : κ} {j : Nat} (h : (start chain c id d)[j]? = some key) :
    (chain d)[j]? = some key ∨ d = c ∧ j = (chain c).length ∧ key = id := by
  unfold start at h
  rw [Function.update_apply] at h
  split at h
  · next hd =>
      rw [List.getElem?_append] at h
      split at h
      · exact .inl (hd ▸ h)
      · next hj =>
          obtain ⟨hlen, hkey⟩ := List.getElem?_eq_some_iff.1 h
          have hlast : j - (chain c).length = 0 := by simpa using hlen
          exact .inr ⟨hd, by omega, by simpa [hlast] using hkey.symm⟩
  · exact .inl h

theorem getElem?_start_of_getElem? {d : κ} {j : Nat} (h : (chain d)[j]? = some key) :
    (start chain c id d)[j]? = some key := by
  unfold start
  rw [Function.update_apply]
  split
  · next hd =>
      subst hd
      rw [List.getElem?_append_left (List.getElem?_eq_some_iff.1 h).1]
      exact h
  · exact h

theorem getElem?_start_length : (start chain c id c)[(chain c).length]? = some id := by
  simp [start]

theorem sole_start_of_ne (h : key ≠ id) : Sole (start chain c id) key ↔ Sole chain key := by
  constructor
  · intro hsole d d' j j' hj hj'
    exact hsole d d' j j' (getElem?_start_of_getElem? hj) (getElem?_start_of_getElem? hj')
  · intro hsole d d' j j' hj hj'
    exact hsole d d' j j' ((getElem?_start hj).resolve_right fun hnew => h hnew.2.2)
      ((getElem?_start hj').resolve_right fun hnew => h hnew.2.2)

/-- A new wait is the only one for its id when there was none before. -/
theorem sole_start : Sole (start chain c id) id ↔ ¬ Outstanding chain id := by
  constructor
  · rintro hsole ⟨d, hd⟩
    obtain ⟨j, hj⟩ := List.mem_iff_getElem?.1 hd
    obtain ⟨rfl, rfl⟩ := hsole d c j (chain c).length (getElem?_start_of_getElem? hj)
      getElem?_start_length
    simp at hj
  · intro hnot d d' j j' hj hj'
    have hnew {d : κ} {j : Nat} (hj : (start chain c id d)[j]? = some id) :
        d = c ∧ j = (chain c).length := by
      rcases getElem?_start hj with hold | ⟨hd, hj, -⟩
      · exact absurd ⟨d, List.mem_of_getElem? hold⟩ hnot
      · exact ⟨hd, hj⟩
    obtain ⟨rfl, rfl⟩ := hnew hj
    obtain ⟨rfl, rfl⟩ := hnew hj'
    exact ⟨rfl, rfl⟩

theorem getElem?_take {d : κ} {j : Nat} (h : (take chain c i d)[j]? = some key) :
    (chain d)[if d = c ∧ i ≤ j then j + 1 else j]? = some key := by
  unfold take at h
  rw [Function.update_apply] at h
  split at h
  · next hd =>
      subst hd
      rw [List.getElem?_eraseIdx] at h
      split at h
      · next hlt => rwa [if_neg (by simp; omega)]
      · next hlt => rwa [if_pos ⟨rfl, by omega⟩]
  · next hd => rwa [if_neg (fun h => hd h.1)]

theorem Sole.take (h : Sole chain key) : Sole (take chain c i) key := by
  intro d d' j j' hj hj'
  obtain ⟨rfl, hindex⟩ := h d d' _ _ (getElem?_take hj) (getElem?_take hj')
  refine ⟨rfl, ?_⟩
  by_cases hd : d = c
  · simp only [hd, true_and] at hindex
    split at hindex <;> split at hindex <;> omega
  · simpa [hd] using hindex

theorem not_outstanding_take (h : Sole chain id) (hi : (chain c)[i]? = some id) :
    ¬ Outstanding (take chain c i) id := by
  rintro ⟨d, hd⟩
  obtain ⟨j, hj⟩ := List.mem_iff_getElem?.1 hd
  obtain ⟨rfl, hindex⟩ := h d c _ _ (getElem?_take hj) hi
  split at hindex
  · omega
  · next hnot => exact hnot ⟨rfl, Nat.le_of_eq hindex.symm⟩

theorem outstanding_take_of_ne (hi : (chain c)[i]? = some key) (hne : id ≠ key) :
    Outstanding (take chain c i) id ↔ Outstanding chain id := by
  constructor
  · rintro ⟨d, hd⟩
    obtain ⟨j, hj⟩ := List.mem_iff_getElem?.1 hd
    exact ⟨d, List.mem_of_getElem? (getElem?_take hj)⟩
  · rintro ⟨d, hd⟩
    refine ⟨d, ?_⟩
    unfold take
    rw [Function.update_apply]
    split
    · next hdc =>
        subst hdc
        obtain ⟨j, hj⟩ := List.mem_iff_getElem?.1 hd
        have hji : j ≠ i := by
          rintro rfl
          exact hne (Option.some.inj (hj.symm.trans hi))
        exact List.mem_eraseIdx_iff_getElem?.2 ⟨j, hji, hj⟩
    · exact hd

end Watchdog
