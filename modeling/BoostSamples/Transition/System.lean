import Mathlib.Data.List.Basic
import Mathlib.Data.Option.Basic

/-!
# Partial transition systems

A system is given by its initial states and a partial step on events:
`step s e` is `none` when the event `e` cannot happen in `s`. The runs of a
system are the lists of events it can execute. `ReachableWhile P s` says that
some run leads to `s` each of whose steps meets the condition `P` on the state
before the step and the event; `Reachable` is the case without a condition.
Every invariant is proved by the one rule `ReachableWhile.invariant`: it holds
initially and each admitted step preserves it.
-/

namespace Transition

/-- Initial states and a partial step on events. -/
structure System (σ ε : Type*) where
  init : σ → Prop
  step : σ → ε → Option σ

namespace System

/-- The state after a list of events; `none` as soon as one of them is not
enabled. -/
def exec {σ ε : Type*} (S : System σ ε) : σ → List ε → Option σ
  | s, [] => some s
  | s, e :: es => (S.step s e).bind fun t => S.exec t es

@[simp] theorem exec_nil {σ ε : Type*} (S : System σ ε) (s : σ) :
    S.exec s [] = some s := rfl

theorem exec_cons {σ ε : Type*} (S : System σ ε) (s : σ) (e : ε)
    (es : List ε) :
    S.exec s (e :: es) = (S.step s e).bind fun t => S.exec t es := rfl

theorem exec_append {σ ε : Type*} (S : System σ ε) (s : σ) (es fs : List ε) :
    S.exec s (es ++ fs) = (S.exec s es).bind fun t => S.exec t fs := by
  induction es generalizing s with
  | nil => rfl
  | cons e es ih =>
      rw [List.cons_append, exec_cons, exec_cons, Option.bind_assoc]
      congr 1
      funext t
      exact ih t

/-- The states reached by the runs all of whose steps meet `P`. -/
inductive ReachableWhile {σ ε : Type*} (S : System σ ε)
    (P : σ → ε → Prop) : σ → Prop
  | init {s : σ} : S.init s → ReachableWhile S P s
  | step {s t : σ} {e : ε} :
      ReachableWhile S P s → P s e → S.step s e = some t →
        ReachableWhile S P t

/-- The states reached by any run. -/
def Reachable {σ ε : Type*} (S : System σ ε) (s : σ) : Prop :=
  S.ReachableWhile (fun _ _ => True) s

/-- A property that holds initially and is kept by each admitted step holds in
every state reached. -/
theorem ReachableWhile.invariant {σ ε : Type*} {S : System σ ε}
    {P : σ → ε → Prop} {I : σ → Prop} (hinit : ∀ s, S.init s → I s)
    (hstep : ∀ s e t, I s → P s e → S.step s e = some t → I t) {s : σ}
    (h : S.ReachableWhile P s) : I s := by
  induction h with
  | init h => exact hinit _ h
  | step _ hP hs ih => exact hstep _ _ _ ih hP hs

/-- A weaker condition admits more runs. -/
theorem ReachableWhile.mono {σ ε : Type*} {S : System σ ε}
    {P Q : σ → ε → Prop} (hPQ : ∀ s e, P s e → Q s e) {s : σ}
    (h : S.ReachableWhile P s) : S.ReachableWhile Q s := by
  induction h with
  | init h => exact .init h
  | step _ hP hs ih => exact .step ih (hPQ _ _ hP) hs

theorem ReachableWhile.reachable {σ ε : Type*} {S : System σ ε}
    {P : σ → ε → Prop} {s : σ} (h : S.ReachableWhile P s) : S.Reachable s :=
  h.mono fun _ _ _ => trivial

/-- If each admitted step of `S` is, through `view`, an admitted step of `T`,
then the states reached by `S` are seen as states reached by `T`. -/
theorem ReachableWhile.simulation {σ ε τ α : Type*} {S : System σ ε}
    {T : System τ α} {P : σ → ε → Prop} {Q : τ → α → Prop} (view : σ → τ)
    (hinit : ∀ s, S.init s → T.init (view s))
    (hstep : ∀ s e t, P s e → S.step s e = some t →
      ∃ a, T.step (view s) a = some (view t) ∧ Q (view s) a) {s : σ}
    (h : S.ReachableWhile P s) : T.ReachableWhile Q (view s) := by
  induction h with
  | init h => exact .init (hinit _ h)
  | step _ hP hs ih =>
      obtain ⟨a, ha, hQ⟩ := hstep _ _ _ hP hs
      exact .step ih hQ ha

/-- The same when some steps of `S` are not seen by `T`. -/
theorem ReachableWhile.stuttering {σ ε τ α : Type*} {S : System σ ε} {T : System τ α}
    {P : σ → ε → Prop} {Q : τ → α → Prop} (view : σ → τ)
    (hinit : ∀ s, S.init s → T.init (view s))
    (hstep : ∀ s e t, P s e → S.step s e = some t →
      view t = view s ∨ ∃ a, T.step (view s) a = some (view t) ∧ Q (view s) a) {s : σ}
    (h : S.ReachableWhile P s) : T.ReachableWhile Q (view s) := by
  induction h with
  | init h => exact .init (hinit _ h)
  | step _ hP hs ih =>
      rcases hstep _ _ _ hP hs with hsame | ⟨a, ha, hQ⟩
      · rw [hsame]
        exact ih
      · exact .step ih hQ ha

/-- An executed list of events extends a reachable state. -/
theorem Reachable.exec {σ ε : Type*} {S : System σ ε} {s t : σ}
    {es : List ε} (h : S.Reachable s) (hes : S.exec s es = some t) :
    S.Reachable t := by
  induction es generalizing s with
  | nil =>
      cases hes
      exact h
  | cons e es ih =>
      obtain ⟨u, hu, ht⟩ := Option.bind_eq_some_iff.1 hes
      exact ih (.step h trivial hu) ht

/-- The state after a list of events each of which meets a condition. -/
def execWhile {σ ε : Type*} (S : System σ ε) (P : σ → ε → Prop)
    [∀ s e, Decidable (P s e)] : σ → List ε → Option σ
  | s, [] => some s
  | s, e :: es => if P s e then (S.step s e).bind fun t => S.execWhile P t es else none

theorem ReachableWhile.execWhile {σ ε : Type*} {S : System σ ε} {P : σ → ε → Prop}
    [∀ s e, Decidable (P s e)] {s t : σ} {es : List ε} (h : S.ReachableWhile P s)
    (hes : S.execWhile P s es = some t) : S.ReachableWhile P t := by
  induction es generalizing s with
  | nil =>
      cases hes
      exact h
  | cons e es ih =>
      obtain ⟨hP, hes⟩ := Option.ite_none_right_eq_some.1 hes
      obtain ⟨u, hu, ht⟩ := Option.bind_eq_some_iff.1 hes
      exact ih (.step h hP hu) ht

theorem exec_of_execWhile {σ ε : Type*} {S : System σ ε} {P : σ → ε → Prop}
    [∀ s e, Decidable (P s e)] {s t : σ} {es : List ε} (hes : S.execWhile P s es = some t) :
    S.exec s es = some t := by
  induction es generalizing s with
  | nil => exact hes
  | cons e es ih =>
      obtain ⟨-, hes⟩ := Option.ite_none_right_eq_some.1 hes
      obtain ⟨u, hu, ht⟩ := Option.bind_eq_some_iff.1 hes
      rw [exec_cons, hu]
      exact ih ht

/-- A property that each step keeps is kept by each run. -/
theorem exec_invariant {σ ε : Type*} {S : System σ ε} {I : σ → Prop}
    (hstep : ∀ s e t, I s → S.step s e = some t → I t) {s t : σ} {es : List ε} (hs : I s)
    (hes : S.exec s es = some t) : I t := by
  induction es generalizing s with
  | nil =>
      cases hes
      exact hs
  | cons e es ih =>
      obtain ⟨u, hu, ht⟩ := Option.bind_eq_some_iff.1 hes
      exact ih (hstep _ _ _ hs hu) ht

/-- A run meets a condition at each step, or there is a first step at which it
does not. -/
theorem execWhile_or_first {σ ε : Type*} {S : System σ ε} {P : σ → ε → Prop}
    [∀ s e, Decidable (P s e)] {s t : σ} {es : List ε} (hes : S.exec s es = some t) :
    S.execWhile P s es = some t ∨
      ∃ before e rest u v, es = before ++ e :: rest ∧ S.execWhile P s before = some u ∧
        ¬ P u e ∧ S.step u e = some v ∧ S.exec v rest = some t := by
  induction es generalizing s with
  | nil => exact .inl hes
  | cons e es ih =>
      obtain ⟨u, hu, ht⟩ := Option.bind_eq_some_iff.1 hes
      by_cases hP : P s e
      · rcases ih ht with hall | ⟨before, e', rest, v, w, rfl, hbefore, hnot, hstep, hrest⟩
        · left
          rw [execWhile, if_pos hP, hu]
          exact hall
        · refine .inr ⟨e :: before, e', rest, v, w, rfl, ?_, hnot, hstep, hrest⟩
          rw [execWhile, if_pos hP, hu]
          exact hbefore
      · exact .inr ⟨[], e, es, s, u, rfl, rfl, hP, hu, ht⟩

/-- The system with a record of what is observed of its steps. -/
def recording {σ ε ω : Type*} (S : System σ ε) (observe : σ → ε → Option ω) :
    System (σ × List ω) ε where
  init s := S.init s.1 ∧ s.2 = []
  step s e := (S.step s.1 e).map fun t => (t, s.2 ++ (observe s.1 e).toList)

/-- A property of the states and the record so far. -/
theorem ReachableWhile.recorded {σ ε ω : Type*} {S : System σ ε} {observe : σ → ε → Option ω}
    {P : σ → ε → Prop} {I : σ → List ω → Prop} (hinit : ∀ s, S.init s → I s [])
    (hstep : ∀ s l e t, I s l → P s e → S.step s e = some t →
      I t (l ++ (observe s e).toList))
    {s : σ × List ω} (h : (S.recording observe).ReachableWhile (fun s e => P s.1 e) s) :
    I s.1 s.2 := by
  refine h.invariant (I := fun s => I s.1 s.2) ?_ ?_
  · rintro s ⟨hs, hl⟩
    rw [hl]
    exact hinit _ hs
  · intro s e t hs hP h
    obtain ⟨u, hu, rfl⟩ := Option.map_eq_some_iff.1 h
    exact hstep _ _ _ _ hs hP hu

theorem Reachable.recorded {σ ε ω : Type*} {S : System σ ε} {observe : σ → ε → Option ω}
    {I : σ → List ω → Prop} (hinit : ∀ s, S.init s → I s [])
    (hstep : ∀ s l e t, I s l → S.step s e = some t → I t (l ++ (observe s e).toList))
    {s : σ × List ω} (h : (S.recording observe).Reachable s) : I s.1 s.2 :=
  ReachableWhile.recorded (P := fun _ _ => True) hinit
    (fun s l e t hs _ h => hstep s l e t hs h) h

end System

/-- A list around the element at an index, with that element replaced or removed. -/
theorem exists_append_of_getElem? {α : Type*} {l : List α} {i : Nat} {x : α}
    (h : l[i]? = some x) :
    ∃ before after, l = before ++ x :: after ∧ before.length = i ∧
      (∀ y, l.set i y = before ++ y :: after) ∧ l.eraseIdx i = before ++ after := by
  obtain ⟨hi, rfl⟩ := List.getElem?_eq_some_iff.1 h
  refine ⟨l.take i, l.drop (i + 1), ?_, List.length_take_of_le (Nat.le_of_lt hi),
    fun y => ?_, List.eraseIdx_eq_take_drop_succ l i⟩
  · rw [← List.drop_eq_getElem_cons hi, List.take_append_drop]
  · rw [List.set_eq_take_append_cons_drop, if_pos hi]

end Transition
