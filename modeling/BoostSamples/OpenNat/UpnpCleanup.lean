import BoostSamples.OpenNat.UpnpClient
import BoostSamples.Transition.System

/-!
# What a UPNP client leaves behind

The runs are the calls of `AddPortMapping` on a started and connected client, each with
what the gateway answers to it; no other host changes the table meanwhile. `Stop` deletes
the ports of the history, so it restores the table as long as the entries of these ports are
exactly those that the client caused. A port enters the history only after the query that
follows the request to add it.
-/

namespace OpenNat

namespace UpnpClient

open Transition

/-- A call asks for a port: no entry of the list is the local endpoint, and the port is the
first one of the range that the list does not show. -/
structure Asks (s : UpnpClient) (a : Answers) (inPort port : Port) : Prop where
  unmapped : ∀ r ∈ getPortMappingEntries s.gateway a.lists 0, s.isLocalEp inPort r = false
  first : firstPort ≤ port.toNat
  last : port.toNat < endPort
  free : isExtPort (getPortMappingEntries s.gateway a.lists 0) port.toNat = false
  shown : ∀ p, firstPort ≤ p → p < port.toNat →
    isExtPort (getPortMappingEntries s.gateway a.lists 0) p = true

def picks (s : UpnpClient) (a : Answers) (inPort : Port) : Option Port :=
  let redirects := getPortMappingEntries s.gateway a.lists 0
  match redirects.find? (s.isLocalEp inPort) with
  | some _ => none
  | none => ((List.range' firstPort (endPort - firstPort)).find? fun p =>
      !isExtPort redirects p).map (BitVec.ofNat 16)

def system (g : Gateway) : System UpnpClient (Port × Answers) where
  init s := s.isStarted = true ∧ s.isConnected = true ∧ s.upnpHistory = [] ∧ s.gateway = g
  step s e := some (s.addPortMapping e.2 e.1).1

/-- A port whose request to add succeeds is in the history, or it is confirmed and the table
has no tcp entry of it yet. -/
def Recorded (s : UpnpClient) (e : Port × Answers) : Prop :=
  ∀ port, s.Asks e.2 e.1 port → e.2.adds.isSome = true → port ∈ s.upnpHistory ∨
    Confirms s.localAddr e.1 e.2 ∧ ∀ m ∈ s.gateway.entries, m.isTcp port = false

/-- The entries that are not of a port of the history. -/
def kept (history : List Port) (entries : List Mapping) : List Mapping :=
  entries.filter fun m => history.all fun port => !m.isTcp port

variable {s : UpnpClient} {a : Answers} {inPort port : Port}

theorem picks_eq_some_iff : s.picks a inPort = some port ↔ s.Asks a inPort port := by
  rw [picks]
  constructor
  · intro h
    cases hfind : (getPortMappingEntries s.gateway a.lists 0).find? (s.isLocalEp inPort) with
    | some r =>
        rw [hfind] at h
        cases h
    | none =>
        rw [hfind] at h
        obtain ⟨p, hp, rfl⟩ := Option.map_eq_some_iff.1 h
        obtain ⟨hfree, hrange, hbefore⟩ := List.find?_range'_eq_some.1 hp
        obtain ⟨hfirst, hend⟩ := List.mem_range'_1.1 hrange
        have hnat := toNat_ofNat_of_lt_endPort hend
        constructor
        · intro r hr
          exact Bool.eq_false_iff.2 (List.find?_eq_none.1 hfind r hr)
        · rwa [hnat]
        · rwa [hnat]
        · rw [hnat]
          rwa [Bool.not_eq_true'] at hfree
        · intro q hq hlt
          rw [hnat] at hlt
          have hshown := hbefore q hq hlt
          rwa [Bool.not_not] at hshown
  · intro h
    have hfind : (getPortMappingEntries s.gateway a.lists 0).find? (s.isLocalEp inPort) = none :=
      List.find?_eq_none.2 fun r hr => Bool.eq_false_iff.1 (h.unmapped r hr)
    have hfree : (List.range' firstPort (endPort - firstPort)).find? (fun p =>
        !isExtPort (getPortMappingEntries s.gateway a.lists 0) p) = some port.toNat := by
      apply List.find?_range'_eq_some.2
      refine ⟨?_, List.mem_range'_1.2 ⟨h.first, h.last⟩, fun q hq hlt => ?_⟩
      · rw [h.free]
        rfl
      · rw [Bool.not_not]
        exact h.shown q hq hlt
    rw [hfind]
    dsimp only
    rw [hfree, Option.map_some, BitVec.ofNat_toNat, BitVec.setWidth_eq]

theorem fst_addPortMapping_of_picks_none (h : s.picks a inPort = none) :
    (s.addPortMapping a inPort).1 = s := by
  rw [addPortMapping]
  split
  · rw [picks] at h
    dsimp only at h ⊢
    cases hfind : (getPortMappingEntries s.gateway a.lists 0).find? (s.isLocalEp inPort) with
    | some r => rfl
    | none =>
        rw [hfind] at h
        have hnone := Option.map_eq_none_iff.1 h
        dsimp only
        rw [searchPort_eq, hnone]
  · rfl

theorem addPortMapping_of_picks (hconnected : s.isConnected = true)
    (h : s.picks a inPort = some port) :
    s.addPortMapping a inPort = s.tryPort a inPort port.toNat := by
  rw [addPortMapping, if_pos hconnected]
  rw [picks] at h
  dsimp only at h ⊢
  cases hfind : (getPortMappingEntries s.gateway a.lists 0).find? (s.isLocalEp inPort) with
  | some r =>
      rw [hfind] at h
      cases h
  | none =>
      rw [hfind] at h
      obtain ⟨p, hp, rfl⟩ := Option.map_eq_some_iff.1 h
      have hlt : p < endPort := (List.mem_range'_1.1 (List.mem_of_find?_eq_some hp)).2
      dsimp only
      rw [searchPort_eq, hp, toNat_ofNat_of_lt_endPort hlt]

@[simp] theorem kept_nil (entries : List Mapping) : kept [] entries = entries :=
  List.filter_eq_self.2 fun _ _ => rfl

theorem kept_cons (port : Port) (history : List Port) (entries : List Mapping) :
    kept (port :: history) entries = kept history (entries.filter fun m => !m.isTcp port) := by
  rw [kept, kept, List.filter_filter]
  apply List.filter_congr
  intro m _
  rw [List.all_cons, Bool.and_comm]

/-- `Stop` keeps the entries that are not of a port of the history. -/
theorem entries_foldl_deletePortMapping (history : List Port) (s : UpnpClient)
    (hconnected : s.isConnected = true) :
    (history.foldl (fun t port => t.deletePortMapping (toText port.toNat)) s).gateway.entries =
      kept history s.gateway.entries := by
  induction history generalizing s with
  | nil => exact (kept_nil _).symm
  | cons port history ih =>
      have hdelete : s.deletePortMapping (toText port.toNat) =
          { s with gateway := s.gateway.erase port } := by
        rw [deletePortMapping, if_pos hconnected, Gateway.deletePortMapping_eq]
      rw [List.foldl_cons, hdelete, ih, kept_cons]
      · rfl
      · exact hconnected

theorem entries_stop (hstarted : s.isStarted = true) (hconnected : s.isConnected = true) :
    s.stop.gateway.entries = kept s.upnpHistory s.gateway.entries := by
  rw [stop, if_pos hstarted]
  exact entries_foldl_deletePortMapping s.upnpHistory { s with isStarted := false } hconnected

theorem kept_insert {history : List Port} (h : port ∈ history) (g : Gateway) (x : Gateway.Target) :
    kept history (g.insert (toText port.toNat) x).entries = kept history g.entries := by
  rw [Gateway.entries_insert, kept, List.filter_append, Gateway.without, List.filter_filter]
  have hentry : [Gateway.entry (toText port.toNat) x].filter
      (fun m => history.all fun port => !m.isTcp port) = [] := by
    apply List.filter_cons_of_neg
    intro hall
    have hfalse := List.all_eq_true.1 hall port h
    rw [Gateway.isTcp_entry (lexicalCast_toText_toNat port)] at hfalse
    cases hfalse
  rw [hentry, List.append_nil, kept]
  apply List.filter_congr
  intro m _
  cases hall : history.all fun port => !m.isTcp port with
  | false => rfl
  | true => rw [List.all_eq_true.1 hall port h, Bool.and_self]

theorem kept_history_insert {history : List Port} {entries : List Mapping}
    (h : ∀ m ∈ entries, m.isTcp port = false) :
    kept (history.insert port) entries = kept history entries := by
  apply List.filter_congr
  intro m hm
  rw [List.all_insert, h m hm]
  rfl

/-- The history covers what the client has changed in the table. -/
structure Owned (g : Gateway) (s : UpnpClient) : Prop where
  isStarted : s.isStarted = true
  isConnected : s.isConnected = true
  kept : kept s.upnpHistory s.gateway.entries = g.entries

/-- A request to add a port of the history changes nothing that is kept. -/
theorem kept_added {history : List Port} (h : a.adds.isSome = true → port ∈ history) :
    kept history (s.added a inPort port).entries = kept history s.gateway.entries := by
  rw [added]
  cases hadds : a.adds with
  | none => rfl
  | some stored =>
      rw [hadds] at h
      rw [Gateway.addPortMapping_some, kept_insert (h rfl)]

theorem Confirms.isSome {localAddr : Text} (h : Confirms localAddr inPort a) :
    a.adds.isSome = true := by
  obtain ⟨-, stored, hstored, -⟩ := h
  exact Option.isSome_of_mem hstored

theorem Owned.addPortMapping {g : Gateway} {e : Port × Answers} (h : Owned g s)
    (he : s.Recorded e) : Owned g (s.addPortMapping e.2 e.1).1 := by
  cases hpicks : s.picks e.2 e.1 with
  | none =>
      rw [fst_addPortMapping_of_picks_none hpicks]
      exact h
  | some port =>
      have hrecorded := he port (picks_eq_some_iff.1 hpicks)
      rw [addPortMapping_of_picks h.isConnected hpicks]
      by_cases hc : Confirms s.localAddr e.1 e.2
      · rw [tryPort_confirms hc]
        refine ⟨h.isStarted, h.isConnected, ?_⟩
        have hkept : UpnpClient.kept (s.upnpHistory.insert port) s.gateway.entries =
            UpnpClient.kept s.upnpHistory s.gateway.entries := by
          rcases hrecorded hc.isSome with hmem | ⟨-, hfree⟩
          · rw [List.insert_of_mem hmem]
          · exact kept_history_insert hfree
        exact (kept_added fun _ => List.mem_insert_self).trans (hkept.trans h.kept)
      · rw [tryPort_not_confirms hc]
        refine ⟨h.isStarted, h.isConnected, (kept_added fun hadds => ?_).trans h.kept⟩
        exact (hrecorded hadds).resolve_right fun hconfirmed => hc hconfirmed.1

/-- `Stop` restores the table after every run whose calls are recorded. -/
theorem entries_stop_eq (g : Gateway) (s : UpnpClient)
    (h : (system g).ReachableWhile Recorded s) : s.stop.gateway.entries = g.entries := by
  have howned : Owned g s := by
    apply h.invariant
    · rintro s ⟨hstarted, hconnected, hhistory, rfl⟩
      refine ⟨hstarted, hconnected, ?_⟩
      rw [hhistory, kept_nil]
    · intro s e t hs he hstep
      obtain rfl := Option.some.inj hstep
      exact hs.addPortMapping he
  rw [entries_stop howned.isStarted howned.isConnected, howned.kept]

/-- A mapping that is confirmed is deleted again. -/
theorem entries_stop_sample :
    (sample.addPortMapping sampleAnswers 80).1.stop.gateway.entries = sampleGateway.entries := by
  have hinit : (system sampleGateway).ReachableWhile Recorded sample := .init ⟨rfl, rfl, rfl, rfl⟩
  have hpicks : sample.picks sampleAnswers 80 = some 49153 := by
    have hlists : ∀ i, sampleAnswers.lists i = true := fun _ => rfl
    rw [picks, getPortMappingEntries_eq hlists]
    rfl
  have hrecorded : sample.Recorded (80, sampleAnswers) := by
    intro port hport _
    obtain rfl := Option.some.inj (hpicks.symm.trans (picks_eq_some_iff.2 hport))
    refine .inr ⟨⟨rfl, _, rfl, rfl, rfl⟩, fun m hm => ?_⟩
    obtain rfl := List.mem_singleton.1 hm
    rfl
  exact entries_stop_eq sampleGateway _ (.step hinit hrecorded rfl)

def emptyGateway : Gateway where
  entries := []
  apart := .nil

/-- The mapping is stored as it is asked for, and the query that follows fails. -/
def lostAnswers : Answers where
  adds := some ⟨toText 80, ['a'], desc⟩
  queries := false

/-- A mapping that is not confirmed stays in the table, since its port is not recorded. -/
theorem not_entries_stop_eq : ¬ ∀ (g : Gateway) (s : UpnpClient),
    (system g).Reachable s → s.stop.gateway.entries = g.entries := by
  intro h
  let start : UpnpClient := { localAddr := ['a'], gateway := emptyGateway }
  have hinit : (system emptyGateway).Reachable start := .init ⟨rfl, rfl, rfl, rfl⟩
  have hpicks : start.picks lostAnswers 80 = some 49152 := by
    have hlists : ∀ i, lostAnswers.lists i = true := fun _ => rfl
    rw [picks, getPortMappingEntries_eq hlists]
    rfl
  have hconfirms : ¬ Confirms start.localAddr 80 lostAnswers := nofun
  have hcall : (start.addPortMapping lostAnswers 80).1 =
      { start with gateway := start.added lostAnswers 80 49152 } := by
    rw [addPortMapping_of_picks rfl hpicks, tryPort_not_confirms hconfirms]
  have hstop := h emptyGateway _ (.step (e := (80, lostAnswers)) hinit trivial rfl)
  rw [hcall, entries_stop rfl rfl, kept_nil] at hstop
  cases hstop

end UpnpClient

end OpenNat
