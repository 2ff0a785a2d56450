import BoostSamples.OpenNat.ServerMembership

/-!
# The proxy registry of the server

A session is in a pair under its own id and in the half of its type. The id and
the type are in the session object, which a connect request overwrites before
the registry is asked; but a request is only read by `Receive`, and a connection
that is in a pair never goes back to `Receive`. Pairs are never left empty,
since a pair is removed as a whole.
-/

namespace OpenNat

open Registry Transition

namespace Membership

variable {m m' : Membership}

theorem Connected.occupied {r : Request} (h : m.Connected r m')
    (hm : m.proxyMgr.Occupied) : m'.proxyMgr.Occupied := by
  cases h with
  | stun _ _ _ _ hproxy => exact hproxy ▸ hm
  | proxy hadd _ _ _ => exact hm.add hadd
  | refused _ _ _ _ hproxy => exact hproxy ▸ hm

theorem occupied_of_reachable (h : system.Reachable m) : m.proxyMgr.Occupied := by
  refine h.invariant (I := fun m => m.proxyMgr.Occupied) (fun _ hm => ?_)
    fun m a m' hm _ hstep => ?_
  · obtain rfl : _ = ({} : Membership) := hm
    exact PairMap.occupied_empty
  · obtain ⟨henabled, rfl⟩ := step_eq_some_iff.1 hstep
    cases hrequest : a.request with
    | none => exact fun key p hp => hm key p (perform_proxy hrequest hp)
    | some r =>
        obtain rfl := Action.eq_connect hrequest
        exact (connected henabled).occupied hm

end Membership

namespace Server

def HasPlace (s : Server) (c : ConnId) (id : Uuid) (type : SessionType) : Prop :=
  (s.conns c).session.id = id ∧ (s.conns c).session.type = type

structure PairInvariant (s : Server) : Prop where
  half : ∀ id p, s.proxyMgr.findPair id = some p → p.down ≠ none ∨ p.up ≠ none
  down : ∀ id p c, s.proxyMgr.findPair id = some p → p.down = some c →
    s.HasPlace c id .proxyDown
  up : ∀ id p c, s.proxyMgr.findPair id = some p → p.up = some c →
    s.HasPlace c id .proxyUp
  slot : ∀ id id' p p' d d' c, s.proxyMgr.findPair id = some p → p.get d = some c →
    s.proxyMgr.findPair id' = some p' → p'.get d' = some c → id = id' ∧ d = d'
  rejected : ∀ id type c, (s.proxyMgr.addSession id type c).2 = false →
    (s.proxyMgr.addSession id type c).1 = s.proxyMgr
  refused : ∀ c d id, (s.proxyMgr.addSession id (proxyType d) c).2 = false →
    (s.connectProxy c d id).1.proxyMgr = s.proxyMgr
  removed : ∀ id id', id' ≠ id →
    (s.removeProxy id).proxyMgr.findPair id' = s.proxyMgr.findPair id'

variable {s : Server}

/-- A session in a pair has the id and the type of its place. -/
theorem hasPlace (hplaced : s.membership.WellPlaced) {id : Uuid} {p : Pair ConnId}
    {d : Side} {c : ConnId} (hp : s.proxyMgr.findPair id = some p)
    (hc : p.get d = some c) : s.HasPlace c id (proxyType d) := by
  obtain ⟨hid, htype, -⟩ := hplaced.placed id p d c hp hc
  exact ⟨hid, htype⟩

theorem proxyType_injective : Function.Injective proxyType := by
  intro d d' h
  exact Option.some.inj (by rw [← side_proxyType d, h, side_proxyType])

theorem proxyMgr_connectProxy_of_rejected {c : ConnId} {d : Side} {id : Uuid}
    (h : (s.proxyMgr.addSession id (proxyType d) c).2 = false) :
    (s.connectProxy c d id).1.proxyMgr = s.proxyMgr := by
  rcases hadd : s.proxyMgr.addSession id (proxyType d) c with ⟨mgr, added⟩
  obtain rfl : added = false := by rw [← h, hadd]
  have hadd' : (s.modifySession c fun x =>
      { x with id := id, type := proxyType d }).proxyMgr.addSession id (proxyType d) c =
      (mgr, false) := hadd
  unfold connectProxy
  simp only [hadd']
  rfl

theorem findPair_removeProxy {id id' : Uuid} (h : id' ≠ id) :
    (s.removeProxy id).proxyMgr.findPair id' = s.proxyMgr.findPair id' := by
  unfold removeProxy
  cases s.proxyMgr.findPair id with
  | none => rfl
  | some p =>
      show (s.proxyMgr.remove id).find id' = s.proxyMgr.find id'
      rw [PairMap.find_remove, if_neg h]

/-- In every reachable state the pairs are not empty and hold sessions of their
key and side, and each connection has at most one place. -/
theorem pairInvariant_of_reachable (h : system.Reachable s) : s.PairInvariant := by
  have hmembership : Membership.system.Reachable s.membership :=
    (membership_reachable (Q := fun _ _ => True)
      (h.mono fun _ _ _ _ _ => trivial)).reachable
  have hplaced := Membership.WellPlaced.of_reachable hmembership
  have hoccupied := Membership.occupied_of_reachable hmembership
  constructor
  · intro id p hp
    obtain ⟨c, d, hc⟩ := hoccupied id p hp
    cases d with
    | down => exact .inl (by simp [show p.down = some c from hc])
    | up => exact .inr (by simp [show p.up = some c from hc])
  · intro id p c hp hc
    exact hasPlace hplaced (d := .down) hp hc
  · intro id p c hp hc
    exact hasPlace hplaced (d := .up) hp hc
  · intro id id' p p' d d' c hp hc hp' hc'
    obtain ⟨hid, htype⟩ := hasPlace hplaced hp hc
    obtain ⟨hid', htype'⟩ := hasPlace hplaced hp' hc'
    exact ⟨hid.symm.trans hid', proxyType_injective (htype.symm.trans htype')⟩
  · exact fun id type c => ProxyMgr.addSession_fst_of_rejected
  · exact fun c d id => proxyMgr_connectProxy_of_rejected
  · exact fun id id' => findPair_removeProxy

/-- Both ends of a proxy session register. -/
def pairRun : List Event := connectRun 0 .proxyUp 1 ++ connectRun 1 .proxyDown 1

/-- After that run the registry holds one full pair. -/
theorem pairRun_pairInvariant :
    ∃ s, system.exec {} pairRun = some s ∧ s.PairInvariant ∧
      s.proxyMgr.findPair 1 = some ⟨some 1, some 0⟩ := by
  have hrun : system.exec {} pairRun = some _ := rfl
  exact ⟨_, hrun, pairInvariant_of_reachable (System.Reachable.exec (.init rfl) hrun), rfl⟩

end Server

end OpenNat
