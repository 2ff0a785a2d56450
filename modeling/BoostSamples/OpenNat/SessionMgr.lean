import Mathlib.Logic.Function.Basic
import BoostSamples.OpenNat.Command

/-!
# The session registry

`SessionMgr` maps session ids to session pointers. The pointers are of an
arbitrary type, so the registry is the same for the server, whose sessions are
connections, and for a client. `removeSession` only erases the entry: stopping
the session it names is an effect on the session, which the caller performs on
its own state.
-/

namespace OpenNat

structure SessionMgr (σ : Type*) where
  sessionMap : Uuid → Option σ

namespace SessionMgr

variable {σ : Type*}

def empty : SessionMgr σ := ⟨fun _ => none⟩

/-- The session with the given id; `none` is the exception of a missing id. -/
def find (m : SessionMgr σ) (id : Uuid) : Option σ := m.sessionMap id

def count (m : SessionMgr σ) (id : Uuid) : Nat :=
  if (m.sessionMap id).isSome then 1 else 0

/-- Inserts a session under an id that is not taken; otherwise the map stays as
it is and the result is `false`. -/
def addSession (m : SessionMgr σ) (id : Uuid) (session : σ) :
    SessionMgr σ × Bool :=
  match m.sessionMap id with
  | some _ => (m, false)
  | none => (⟨Function.update m.sessionMap id (some session)⟩, true)

def removeSession (m : SessionMgr σ) (id : Uuid) : SessionMgr σ :=
  ⟨Function.update m.sessionMap id none⟩

@[simp] theorem find_empty (id : Uuid) : (empty : SessionMgr σ).find id = none :=
  rfl

theorem addSession_cases (m : SessionMgr σ) (id : Uuid) (session : σ) :
    (m.find id = none ∧
      m.addSession id session =
        (⟨Function.update m.sessionMap id (some session)⟩, true)) ∨
    ((∃ other, m.find id = some other) ∧
      m.addSession id session = (m, false)) := by
  unfold addSession find
  cases m.sessionMap id with
  | none => exact .inl ⟨rfl, rfl⟩
  | some other => exact .inr ⟨⟨other, rfl⟩, rfl⟩

theorem find_update (m : SessionMgr σ) (id id' : Uuid) (v : Option σ) :
    (⟨Function.update m.sessionMap id v⟩ : SessionMgr σ).find id' =
      if id' = id then v else m.find id' :=
  Function.update_apply m.sessionMap id v id'

theorem find_removeSession (m : SessionMgr σ) (id id' : Uuid) :
    (m.removeSession id).find id' = if id' = id then none else m.find id' :=
  m.find_update id id' none

theorem find_removeSession_iff {m : SessionMgr σ} {id : Uuid} {session : σ}
    (h : m.find id = some session) (hkey : ∀ id', m.find id' = some session → id' = id)
    (id' : Uuid) (other : σ) : (m.removeSession id).find id' = some other ↔
      m.find id' = some other ∧ other ≠ session := by
  rw [find_removeSession]
  split
  · next hid =>
      subst hid
      rw [h]
      exact ⟨nofun, fun ⟨hother, hne⟩ => absurd (Option.some.inj hother).symm hne⟩
  · next hid =>
      refine ⟨fun hother => ⟨hother, ?_⟩, fun hother => hother.1⟩
      rintro rfl
      exact hid (hkey id' hother)

end SessionMgr

end OpenNat
