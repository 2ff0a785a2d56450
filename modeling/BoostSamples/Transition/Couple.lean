import BoostSamples.Transition.System

/-!
# Two systems side by side

The steps of a coupled system are those of either of two systems, as far as
the coupling admits them in the state of both: what one of them receives is
what the other one has sent. A run of the coupled system is seen by each of the
two as one of its own, whatever the coupling is.
-/

namespace Transition

namespace System

section Couple

variable {σ τ ε δ ω : Type*}

/-- Two systems of which one makes a step if the coupling admits it. -/
def couple (S : System σ ε) (T : System τ δ) (admits : σ × τ → ε ⊕ δ → Prop)
    [∀ p e, Decidable (admits p e)] : System (σ × τ) (ε ⊕ δ) where
  init p := S.init p.1 ∧ T.init p.2
  step p e :=
    if admits p e then
      match e with
      | .inl e => (S.step p.1 e).map fun s => (s, p.2)
      | .inr e => (T.step p.2 e).map fun t => (p.1, t)
    else none

variable {S : System σ ε} {T : System τ δ} {admits : σ × τ → ε ⊕ δ → Prop}
  [∀ p e, Decidable (admits p e)]

theorem couple_inl {p q : σ × τ} {e : ε}
    (h : (S.couple T admits).step p (.inl e) = some q) :
    admits p (.inl e) ∧ S.step p.1 e = some q.1 ∧ q.2 = p.2 := by
  obtain ⟨hadmits, h⟩ := Option.ite_none_right_eq_some.1 h
  obtain ⟨s, hs, rfl⟩ := Option.map_eq_some_iff.1 h
  exact ⟨hadmits, hs, rfl⟩

theorem couple_inr {p q : σ × τ} {e : δ}
    (h : (S.couple T admits).step p (.inr e) = some q) :
    admits p (.inr e) ∧ T.step p.2 e = some q.2 ∧ q.1 = p.1 := by
  obtain ⟨hadmits, h⟩ := Option.ite_none_right_eq_some.1 h
  obtain ⟨t, ht, rfl⟩ := Option.map_eq_some_iff.1 h
  exact ⟨hadmits, ht, rfl⟩

/-- The first system sees a run of its own. -/
theorem ReachableWhile.couple_left {P : σ × τ → ε ⊕ δ → Prop} {Q : σ → ε → Prop}
    (hPQ : ∀ p e, P p (.inl e) → Q p.1 e) {p : σ × τ}
    (h : (S.couple T admits).ReachableWhile P p) : S.ReachableWhile Q p.1 := by
  refine h.stuttering Prod.fst ?_ ?_
  · intro p hp
    exact hp.1
  · intro p e q hP hstep
    cases e with
    | inl e => exact .inr ⟨e, (couple_inl hstep).2.1, hPQ p e hP⟩
    | inr e => exact .inl (couple_inr hstep).2.2

/-- So does the second one. -/
theorem ReachableWhile.couple_right {P : σ × τ → ε ⊕ δ → Prop} {Q : τ → δ → Prop}
    (hPQ : ∀ p e, P p (.inr e) → Q p.2 e) {p : σ × τ}
    (h : (S.couple T admits).ReachableWhile P p) : T.ReachableWhile Q p.2 := by
  refine h.stuttering Prod.snd ?_ ?_
  · intro p hp
    exact hp.2
  · intro p e q hP hstep
    cases e with
    | inl e => exact .inl (couple_inl hstep).2.2
    | inr e => exact .inr ⟨e, (couple_inr hstep).2.1, hPQ p e hP⟩

def observeLeft (observe : σ → ε → Option ω) (p : σ × τ) : ε ⊕ δ → Option ω
  | .inl e => observe p.1 e
  | .inr _ => none

/-- The record of the first system in a run of both is the record of its own
run. -/
theorem Reachable.couple_recording {observe : σ → ε → Option ω} {p : (σ × τ) × List ω}
    (h : ((S.couple T admits).recording (observeLeft observe)).Reachable p) :
    (S.recording observe).Reachable (p.1.1, p.2) := by
  refine ReachableWhile.stuttering (fun p => (p.1.1, p.2)) ?_ ?_ h
  · intro p hp
    exact ⟨hp.1.1, hp.2⟩
  · intro p e q _ hstep
    obtain ⟨r, hr, rfl⟩ := Option.map_eq_some_iff.1 hstep
    cases e with
    | inl e =>
        refine .inr ⟨e, ?_, trivial⟩
        show (S.step p.1.1 e).map _ = _
        rw [(couple_inl hr).2.1]
        rfl
    | inr e =>
        left
        show (r.1, p.2 ++ []) = (p.1.1, p.2)
        rw [(couple_inr hr).2.2, List.append_nil]

/-- A run without its record. -/
theorem Reachable.of_recording {S : System σ ε} {observe : σ → ε → Option ω}
    {p : σ × List ω} (h : (S.recording observe).Reachable p) : S.Reachable p.1 := by
  refine ReachableWhile.simulation Prod.fst ?_ ?_ h
  · intro p hp
    exact hp.1
  · intro p e q _ hstep
    obtain ⟨r, hr, rfl⟩ := Option.map_eq_some_iff.1 hstep
    exact ⟨e, hr, trivial⟩

end Couple

end System

end Transition
