import BoostSamples.OpenNat.ServerMembership

/-!
# The STUN registry of the server

A STUN request writes the id of its session before the registry is asked, and a
refused one writes the nil id. On a connection that is registered already this
parts its id from its key, and the failure handler, which removes the id, then
misses the entry. Without such requests every entry is under the id of its
session, and a connection that has failed is in no entry.
-/

namespace OpenNat

open Registry Transition

namespace Membership

/-- A request on a connection that is registered leaves its id equal to its key:
it is refused and the key is nil, or it asks for the pair of that same id. -/
def KeepsKey (m : Membership) (r : Request) : Prop :=
  ∀ key, m.stunMgr.find key = some r.conn →
    (m.Refused r ∧ key = nilUuid) ∨ (¬ m.Refused r ∧ ∃ d, r = .proxy r.conn d key)

/-- Every entry is under the id of its session. -/
def Keyed (m : Membership) : Prop :=
  ∀ key c, m.stunMgr.find key = some c → (m.member c).id = key

/-- No entry refers to a connection that has failed. -/
def Released (m : Membership) : Prop :=
  ∀ c, (m.member c).failed = true → ∀ key, m.stunMgr.find key ≠ some c

variable {m m' : Membership}

/-- A request keeps the entries under their ids exactly if it meets the
condition. -/
theorem Connected.keyed_iff {r : Request} (h : m.Connected r m') (hm : m.Keyed) :
    m'.Keyed ↔ m.KeepsKey r := by
  cases h with
  | stun hfree hself hother hfind hproxy =>
      next c id =>
        have hnot : ¬ m.Refused (.stun c id) := by simp [Refused, hfree]
        constructor
        · intro hkeyed key hkey
          have hne : key ≠ id := fun he => by
            rw [he] at hkey
            cases hfree.symm.trans hkey
          have hid := hkeyed key c (by rw [hfind, if_neg hne]; exact hkey)
          rw [hself] at hid
          exact absurd hid.symm hne
        · intro hkeeps key c' hkey
          rw [hfind] at hkey
          split at hkey
          · next hid =>
              obtain rfl := Option.some.inj hkey
              rw [hself, hid]
          · by_cases hc : c' = c
            · subst hc
              rcases hkeeps key hkey with ⟨hr, -⟩ | ⟨-, d, hr⟩
              · exact absurd hr hnot
              · cases hr
            · rw [hother c' hc]
              exact hm key c' hkey
  | proxy hadd hself hother hstun =>
      next c d id =>
        have hnot : ¬ m.Refused (.proxy c d id) := by simp [Refused, hadd]
        constructor
        · intro hkeyed key hkey
          have hid := hkeyed key c (by rw [hstun]; exact hkey)
          rw [hself] at hid
          exact .inr ⟨hnot, d, by rw [← hid, Request.conn]⟩
        · intro hkeeps key c' hkey
          rw [hstun] at hkey
          by_cases hc : c' = c
          · subst hc
            rcases hkeeps key hkey with ⟨hr, -⟩ | ⟨-, d', hr⟩
            · exact absurd hr hnot
            · rw [hself]
              cases hr
              rfl
          · rw [hother c' hc]
            exact hm key c' hkey
  | refused hrefused hself hother hstun hproxy =>
      obtain ⟨type, hself⟩ := hself
      constructor
      · intro hkeyed key hkey
        have hid := hkeyed key r.conn (by rw [hstun]; exact hkey)
        rw [hself] at hid
        exact .inl ⟨hrefused, hid.symm⟩
      · intro hkeeps key c' hkey
        rw [hstun] at hkey
        by_cases hc : c' = r.conn
        · subst hc
          rcases hkeeps key hkey with ⟨-, hnil⟩ | ⟨hr, -⟩
          · rw [hself, hnil]
          · exact absurd hrefused hr
        · rw [hother c' hc]
          exact hm key c' hkey

/-- A request comes from a connection that has not failed, so it registers no
failed one. -/
theorem Connected.released {r : Request} (h : m.Connected r m') (hm : m.Released)
    (hplaced : m.WellPlaced) (hr : 0 < (m.member r.conn).receives) : m'.Released := by
  have hnot : (m.member r.conn).failed = false := by
    by_contra hf
    have hzero := hplaced.failed r.conn (by simpa using hf)
    omega
  intro c' hc' key hkey
  cases h with
  | stun hfree hself hother hfind hproxy =>
      next c id =>
        have hne : c' ≠ c := by
          rintro rfl
          rw [hself] at hc'
          exact nomatch hnot.symm.trans hc'
        rw [hfind] at hkey
        split at hkey
        · exact hne (Option.some.inj hkey).symm
        · exact hm c' (by rw [← hother c' hne]; exact hc') key hkey
  | proxy hadd hself hother hstun =>
      next c d id =>
        have hne : c' ≠ c := by
          rintro rfl
          rw [hself] at hc'
          exact nomatch hnot.symm.trans hc'
        rw [hstun] at hkey
        exact hm c' (by rw [← hother c' hne]; exact hc') key hkey
  | refused hrefused hself hother hstun hproxy =>
      obtain ⟨type, hself⟩ := hself
      have hne : c' ≠ r.conn := by
        rintro rfl
        rw [hself] at hc'
        exact nomatch hnot.symm.trans hc'
      rw [hstun] at hkey
      exact hm c' (by rw [← hother c' hne]; exact hc') key hkey

theorem Keyed.perform (hm : m.Keyed) {a : Action} (ha : a.request = none) :
    (m.perform a).Keyed := by
  intro key c hkey
  rw [perform_id ha]
  exact hm key c (perform_stun ha hkey)

/-- The failure handler removes the id of its connection, which under `Keyed` is
the only key of the connection. -/
theorem Released.perform (hm : m.Released) (hkeyed : m.Keyed) {a : Action}
    (ha : a.request = none) : (m.perform a).Released := by
  intro c hc key hkey
  have hold := perform_stun ha hkey
  by_cases hfail : a = .receiveFail c
  · subst hfail
    have hid : ((m.takeReceive c).member c).id = key :=
      (m.id_takeReceive c).trans (hkeyed key c hold)
    exact (find_of_find_removeStun hkey).1 hid.symm
  · rw [perform_failed ha hfail] at hc
    exact hm c hc key hold

/-- In every run whose requests meet the condition the entries are under the ids
of their sessions, and failed connections are in none. -/
theorem keyed_of_reachable (h : system.ReachableWhile (Admits KeepsKey) m) :
    m.WellPlaced ∧ m.Keyed ∧ m.Released := by
  refine h.invariant (I := fun m => m.WellPlaced ∧ m.Keyed ∧ m.Released)
    (fun _ hm => ?_) fun m a m' hm hadmits hstep => ?_
  · obtain rfl : _ = ({} : Membership) := hm
    exact ⟨.init, by rintro key c ⟨⟩, by rintro c ⟨⟩⟩
  · obtain ⟨hplaced, hkeyed, hreleased⟩ := hm
    refine ⟨hplaced.step hstep, ?_⟩
    obtain ⟨henabled, rfl⟩ := step_eq_some_iff.1 hstep
    cases hrequest : a.request with
    | none => exact ⟨hkeyed.perform hrequest, hreleased.perform hkeyed hrequest⟩
    | some r =>
        obtain rfl := Action.eq_connect hrequest
        have hconnected : m.Connected r _ := connected henabled
        exact ⟨(hconnected.keyed_iff hkeyed).2 (hadmits r rfl),
          hconnected.released hreleased hplaced henabled⟩

end Membership

namespace Server

/-- What the STUN registry is to satisfy: each entry is under the id of its
session, no connection is in two entries, and one whose failure handler has run
is in none. -/
structure StunKeyed (s : Server) : Prop where
  key : ∀ id c, s.stunMgr.find id = some c → (s.conns c).session.id = id
  single : ∀ id id' c, s.stunMgr.find id = some c → s.stunMgr.find id' = some c → id = id'
  released : ∀ c, (s.conns c).failed = true → ∀ id, s.stunMgr.find id ≠ some c

/-- In every run in which no connect request parts the id of a registered
connection from its key, the STUN registry is keyed. -/
theorem stunKeyed_of_reachable {s : Server}
    (h : system.ReachableWhile (Admits Membership.KeepsKey) s) : s.StunKeyed := by
  obtain ⟨-, hkeyed, hreleased⟩ := Membership.keyed_of_reachable (membership_reachable h)
  exact ⟨hkeyed, fun id id' c hid hid' => (hkeyed id c hid).symm.trans (hkeyed id' c hid'),
    hreleased⟩

/-- A client registers and its connection fails. -/
def failRun : List Event := connectRun 0 .stun 1 ++ [.receiveFail 0]

/-- After that run the registry is keyed. -/
theorem failRun_stunKeyed : ∃ s, system.exec {} failRun = some s ∧ s.StunKeyed := by
  have haccept : system.ReachableWhile (Admits Membership.KeepsKey) _ :=
    .step (e := .accept 0) (.init rfl) (fun _ hr => nomatch hr) rfl
  have harrive := haccept.step (e := .arrive 0 (connectRequest .stun 1))
    (fun _ hr => nomatch hr) rfl
  have hreceive := harrive.step (e := .receive 0)
    (fun _ hr key hkey => by cases hr; cases hkey) rfl
  have hfail := hreceive.step (e := .receiveFail 0) (fun _ hr => nomatch hr) rfl
  exact ⟨_, rfl, stunKeyed_of_reachable hfail⟩

/-- A client registers twice on one connection, and the connection fails. -/
def twiceRun : List Event :=
  connectRun 0 .stun 1 ++ [.arrive 0 (connectRequest .stun 2), .receive 0, .receiveFail 0]

/-- The entry of the first request is left behind. -/
theorem twiceRun_not_stunKeyed : ∃ s, system.Reachable s ∧ ¬ s.StunKeyed := by
  have hrun : system.Reachable _ := System.Reachable.exec (.init rfl)
    (show system.exec {} twiceRun = some _ from rfl)
  exact ⟨_, hrun, fun h => h.released 0 rfl 1 rfl⟩

end Server

end OpenNat
