import BoostSamples.Registry.PairMap
import BoostSamples.OpenNat.Command

/-!
# The proxy registry

`ProxyMgr` is a registry of pairs: the type of a session says which half of the
pair of its id it takes. A refused session leaves the map as it is.
-/

namespace OpenNat

open Registry

/-- The half a session of the given type takes; only proxy sessions take one. -/
def SessionType.side : SessionType → Option Side
  | .proxyDown => some .down
  | .proxyUp => some .up
  | _ => none

abbrev ProxyMgr (σ : Type*) := PairMap Uuid σ

namespace ProxyMgr

variable {σ : Type*}

def addSession (m : ProxyMgr σ) (id : Uuid) (type : SessionType) (session : σ) :
    ProxyMgr σ × Bool :=
  match m.add id type.side session with
  | some m' => (m', true)
  | none => (m, false)

/-- The pair of an id; `none` is the exception of a missing id. -/
def findPair (m : ProxyMgr σ) (id : Uuid) : Option (Pair σ) := m.find id

/-- Erases the pair of an id. Stopping its sessions is left to the caller. -/
def removeSession (m : ProxyMgr σ) (id : Uuid) : ProxyMgr σ := m.remove id

theorem addSession_fst_of_rejected {m : ProxyMgr σ} {id : Uuid} {type : SessionType}
    {session : σ} (h : (m.addSession id type session).2 = false) :
    (m.addSession id type session).1 = m := by
  unfold addSession at h ⊢
  cases hadd : m.add id type.side session with
  | none => rfl
  | some m' => simp [hadd] at h

end ProxyMgr

end OpenNat
