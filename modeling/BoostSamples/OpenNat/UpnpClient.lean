import Mathlib.Data.Set.Basic
import Mathlib.Order.Bounds.Basic
import BoostSamples.OpenNat.UpnpGateway

/-!
# The UPNP client

`AddPortMapping` lists the table of the gateway, reuses a mapping of the client's own
address and port if there is one, and otherwise asks for the first external port of a
range that the list does not show; a mapping that has been added is queried before it
counts. `Stop` deletes the ports in the history.

What the gateway answers to the requests of one call comes with the call: whether each
request of the list succeeds, what is stored for the request to add, and whether the query
succeeds.
-/

namespace OpenNat

/-- `UPNPCore::Entry`, without what is only printed. -/
structure Redirection where
  extPort : Port
  inPort : Port
  inAddr : Text
  protocol : Text
  deriving DecidableEq

/-- What is read of an entry; `none` is `bad_lexical_cast`. -/
def Redirection.ofMapping (m : Mapping) : Option Redirection :=
  (lexicalCast m.extPort).bind fun extPort =>
    (lexicalCast m.inPort).map fun inPort => ⟨extPort, inPort, m.inAddr, m.protocol⟩

/-- What the gateway answers to the requests of one call of `AddPortMapping`. -/
structure Answers where
  /-- Whether the request for the entry at an index succeeds, if there is one. -/
  lists : ℕ → Bool := fun _ => true
  adds : Option Gateway.Target := none
  queries : Bool := true

/-- The rounds of `UPNPClient::GetPortMappingEntries` from an index on. -/
def getPortMappingEntries (g : Gateway) (lists : ℕ → Bool) (index : ℕ) : List Redirection :=
  if lists index then
    match _h : g.getGenericPortMappingEntry index with
    | none => []
    | some m => (Redirection.ofMapping m).toList ++ getPortMappingEntries g lists (index + 1)
  else []
termination_by g.entries.length - index
decreasing_by
  have hlt := (List.getElem?_eq_some_iff.1 _h).1
  omega

def isMapped (g : Gateway) (answer : Bool) (extPort inPort inAddr : Text) : Bool :=
  match g.getSpecificPortMappingEntry extPort answer with
  | none => false
  | some m => iequals m.inAddr inAddr && iequals m.inPort inPort

def doAddPortMapping (g : Gateway) (a : Answers) (extPort inPort inAddr desc : Text) :
    Gateway × Bool :=
  match g.addPortMapping extPort ⟨inPort, inAddr, desc⟩ a.adds with
  | (g, true) => (g, isMapped g a.queries extPort inPort inAddr)
  | (g, false) => (g, false)

structure UpnpClient where
  isStarted : Bool := true
  isConnected : Bool := true
  localAddr : Text
  /-- The ports of the set, in any order. -/
  upnpHistory : List Port := []
  gateway : Gateway

namespace UpnpClient

def desc : Text := ['o', 'p', 'e', 'n', 'n', 'a', 't']

def isLocalEp (s : UpnpClient) (inPort : Port) (r : Redirection) : Bool :=
  r.inPort == inPort && iequals r.inAddr s.localAddr && iequals r.protocol ['t', 'c', 'p']

def isExtPort (redirects : List Redirection) (extPort : ℕ) : Bool :=
  redirects.any fun r => r.extPort.toNat == extPort

def tryPort (s : UpnpClient) (a : Answers) (inPort : Port) (extPort : ℕ) : UpnpClient × Port :=
  match doAddPortMapping s.gateway a (toText extPort) (toText inPort.toNat) s.localAddr desc with
  | (g, true) =>
      ({ s with gateway := g, upnpHistory := s.upnpHistory.insert (.ofNat 16 extPort) },
        .ofNat 16 extPort)
  | (g, false) => ({ s with gateway := g }, 0)

/-- The loop of `AddPortMapping`, with the number of rounds left and the next port. -/
def searchPort (s : UpnpClient) (a : Answers) (redirects : List Redirection) (inPort : Port) :
    ℕ → ℕ → UpnpClient × Port
  | 0, _ => (s, 0)
  | n + 1, extPort =>
      if isExtPort redirects extPort then s.searchPort a redirects inPort n (extPort + 1)
      else s.tryPort a inPort extPort

def firstPort : ℕ := 49152

def endPort : ℕ := 65535

/-- `UPNPClient::AddPortMapping`: the state, and the port; 0 is the error. -/
def addPortMapping (s : UpnpClient) (a : Answers) (inPort : Port) : UpnpClient × Port :=
  if s.isConnected then
    let redirects := getPortMappingEntries s.gateway a.lists 0
    match redirects.find? (s.isLocalEp inPort) with
    | some r => (s, r.extPort)
    | none => s.searchPort a redirects inPort (endPort - firstPort) firstPort
  else (s, 0)

/-- `UPNPClient::DeletePortMapping` for a call that succeeds. -/
def deletePortMapping (s : UpnpClient) (extPort : Text) : UpnpClient :=
  if s.isConnected then { s with gateway := s.gateway.deletePortMapping extPort } else s

def stop (s : UpnpClient) : UpnpClient :=
  if s.isStarted then
    let t := s.upnpHistory.foldl (fun t port => t.deletePortMapping (toText port.toNat))
      { s with isStarted := false }
    { t with upnpHistory := [], isConnected := false, localAddr := [] }
  else s

/-- The query after a request to add finds what was asked for. -/
def Confirms (localAddr : Text) (inPort : Port) (a : Answers) : Prop :=
  a.queries = true ∧ ∃ stored ∈ a.adds, iequals stored.inAddr localAddr = true ∧
    iequals stored.inPort (toText inPort.toNat) = true

def added (s : UpnpClient) (a : Answers) (inPort port : Port) : Gateway :=
  (s.gateway.addPortMapping (toText port.toNat) ⟨toText inPort.toNat, s.localAddr, desc⟩ a.adds).1

variable {s : UpnpClient} {a : Answers} {inPort port : Port}

theorem searchPort_eq (s : UpnpClient) (a : Answers) (redirects : List Redirection)
    (inPort : Port) (n extPort : ℕ) : s.searchPort a redirects inPort n extPort =
      match (List.range' extPort n).find? fun p => !isExtPort redirects p with
      | none => (s, 0)
      | some p => s.tryPort a inPort p := by
  induction n generalizing extPort with
  | zero => rfl
  | succ n ih =>
      rw [searchPort, List.range'_succ]
      cases hport : isExtPort redirects extPort with
      | true =>
          rw [if_pos rfl, ih, List.find?_cons_of_neg]
          rw [hport]
          exact Bool.false_ne_true
      | false =>
          rw [if_neg Bool.false_ne_true, List.find?_cons_of_pos]
          rw [hport]
          rfl

theorem tryPort_confirms (hc : Confirms s.localAddr inPort a) : s.tryPort a inPort port.toNat =
    ({ s with
        gateway := s.added a inPort port
        upnpHistory := s.upnpHistory.insert port }, port) := by
  obtain ⟨hquery, stored, hstored, haddr, hport⟩ := hc
  have hround : (BitVec.ofNat 16 port.toNat) = port := by
    rw [BitVec.ofNat_toNat, BitVec.setWidth_eq]
  rw [tryPort, doAddPortMapping, added, Option.mem_def.1 hstored, Gateway.addPortMapping_some]
  simp only [isMapped, Gateway.getSpecificPortMappingEntry_eq, Gateway.find_insert, hquery, if_true,
    Gateway.entry, haddr, hport, Bool.and_self, hround]

theorem tryPort_not_confirms (hc : ¬ Confirms s.localAddr inPort a) :
    s.tryPort a inPort port.toNat = ({ s with gateway := s.added a inPort port }, 0) := by
  rw [tryPort, doAddPortMapping, added]
  cases hadds : a.adds with
  | none => rfl
  | some stored =>
      rw [Gateway.addPortMapping_some]
      simp only [isMapped, Gateway.getSpecificPortMappingEntry_eq, Gateway.find_insert]
      cases hquery : a.queries with
      | false => rfl
      | true =>
          have hfalse : (iequals stored.inAddr s.localAddr &&
              iequals stored.inPort (toText inPort.toNat)) = false := by
            by_contra hnot
            obtain ⟨haddr, hport⟩ := Bool.and_eq_true_iff.1 (Bool.eq_true_of_not_eq_false hnot)
            exact hc ⟨hquery, stored, hadds, haddr, hport⟩
          simp only [if_true, Gateway.entry, hfalse]

/-- Whatever comes of the query, the table is that after the request. -/
theorem gateway_tryPort (s : UpnpClient) (a : Answers) (inPort port : Port) :
    (s.tryPort a inPort port.toNat).1.gateway = s.added a inPort port := by
  by_cases hc : Confirms s.localAddr inPort a
  · rw [tryPort_confirms hc]
  · rw [tryPort_not_confirms hc]

/-- A port that is returned has been confirmed. -/
theorem confirms_of_tryPort (h : (s.tryPort a inPort port.toNat).2 ≠ 0) :
    (s.tryPort a inPort port.toNat).2 = port ∧ Confirms s.localAddr inPort a := by
  by_cases hc : Confirms s.localAddr inPort a
  · rw [tryPort_confirms hc]
    exact ⟨rfl, hc⟩
  · rw [tryPort_not_confirms hc] at h
    exact absurd rfl h

theorem toNat_ofNat_of_lt_endPort {p : ℕ} (h : p < endPort) : (BitVec.ofNat 16 p).toNat = p :=
  (BitVec.toNat_ofNat p 16).trans (Nat.mod_eq_of_lt (Nat.lt_trans h (by decide)))

/-- The list of a table from an index on, when no request of it fails. -/
theorem getPortMappingEntries_eq {g : Gateway} {lists : ℕ → Bool} (h : ∀ i, lists i = true)
    (index : ℕ) : getPortMappingEntries g lists index =
      (g.entries.drop index).filterMap Redirection.ofMapping := by
  induction hrest : g.entries.length - index generalizing index with
  | zero =>
      have hle : g.entries.length ≤ index := Nat.sub_eq_zero_iff_le.1 hrest
      rw [getPortMappingEntries, if_pos (h index), List.drop_eq_nil_of_le hle]
      split
      · rfl
      · next m hm =>
          rw [Gateway.getGenericPortMappingEntry, List.getElem?_eq_none hle] at hm
          cases hm
  | succ rest ih =>
      have hlt : index < g.entries.length := by omega
      rw [getPortMappingEntries, if_pos (h index), List.drop_eq_getElem_cons hlt]
      split
      · next hnone =>
          rw [Gateway.getGenericPortMappingEntry, List.getElem?_eq_getElem hlt] at hnone
          cases hnone
      · next m hm =>
          rw [Gateway.getGenericPortMappingEntry, List.getElem?_eq_getElem hlt] at hm
          obtain rfl := Option.some.inj hm
          rw [ih (index + 1) (by omega), List.filterMap_cons]
          cases Redirection.ofMapping g.entries[index] with
          | none => rfl
          | some r => rfl

def WellFormed (m : Mapping) : Prop :=
  (lexicalCast m.extPort).isSome ∧ (lexicalCast m.inPort).isSome

/-- The entry maps its external tcp port to an address and a port. -/
def MapsTo (m : Mapping) (port : Port) (addr : Text) (inPort : Port) : Prop :=
  m.isTcp port = true ∧ iequals m.inAddr addr = true ∧ lexicalCast m.inPort = some inPort

theorem isLocalEp_iff {m : Mapping} {r : Redirection} (hr : Redirection.ofMapping m = some r) :
    s.isLocalEp inPort r = true ↔ MapsTo m r.extPort s.localAddr inPort := by
  obtain ⟨extPort, hext, hr⟩ := Option.bind_eq_some_iff.1 hr
  obtain ⟨port, hin, rfl⟩ := Option.map_eq_some_iff.1 hr
  rw [isLocalEp, MapsTo, Mapping.isTcp_iff, hext, hin, Bool.and_eq_true, Bool.and_eq_true,
    beq_iff_eq, Option.some.injEq]
  constructor
  · rintro ⟨⟨hport, haddr⟩, hprotocol⟩
    exact ⟨⟨hprotocol, rfl⟩, haddr, congrArg some hport⟩
  · rintro ⟨⟨hprotocol, -⟩, haddr, hport⟩
    exact ⟨⟨Option.some.inj hport, haddr⟩, hprotocol⟩

theorem isExtPort_iff {entries : List Mapping} (hwell : ∀ m ∈ entries, WellFormed m)
    (port : Port) : isExtPort (entries.filterMap Redirection.ofMapping) port.toNat = true ↔
      ∃ m ∈ entries, lexicalCast m.extPort = some port := by
  rw [isExtPort, List.any_eq_true]
  constructor
  · rintro ⟨r, hr, hport⟩
    obtain ⟨m, hm, hr⟩ := List.mem_filterMap.1 hr
    obtain ⟨extPort, hext, hr⟩ := Option.bind_eq_some_iff.1 hr
    obtain ⟨inPort, -, rfl⟩ := Option.map_eq_some_iff.1 hr
    have hsame : extPort = port := BitVec.eq_of_toNat_eq (beq_iff_eq.1 hport)
    rw [hsame] at hext
    exact ⟨m, hm, hext⟩
  · rintro ⟨m, hm, hext⟩
    obtain ⟨inPort, hin⟩ := Option.isSome_iff_exists.1 (hwell m hm).2
    refine ⟨⟨port, inPort, m.inAddr, m.protocol⟩, List.mem_filterMap.2 ⟨m, hm, ?_⟩,
      beq_self_eq_true _⟩
    rw [Redirection.ofMapping, hext, hin]
    rfl

/-- The ports that `AddPortMapping` may ask for. -/
def Eligible (entries : List Mapping) : Set ℕ :=
  {p | firstPort ≤ p ∧ p < endPort ∧ ∀ m ∈ entries, ∀ port ∈ lexicalCast m.extPort, port.toNat ≠ p}

theorem isLeast_of_find {entries : List Mapping} (hwell : ∀ m ∈ entries, WellFormed m) {p : ℕ}
    (h : (List.range' firstPort (endPort - firstPort)).find?
      (fun p => !isExtPort (entries.filterMap Redirection.ofMapping) p) = some p) :
    ∃ port : Port, port.toNat = p ∧ IsLeast (Eligible entries) p := by
  obtain ⟨hfree, hrange, hbefore⟩ := List.find?_range'_eq_some.1 h
  obtain ⟨hfirst, hend⟩ := List.mem_range'_1.1 hrange
  have hlisted : ∀ q : ℕ, q < endPort →
      (isExtPort (entries.filterMap Redirection.ofMapping) q = true ↔
        ∃ m ∈ entries, ∃ port ∈ lexicalCast m.extPort, port.toNat = q) := by
    intro q hq
    have hnat : (BitVec.ofNat 16 q).toNat = q := toNat_ofNat_of_lt_endPort hq
    have hiff := isExtPort_iff hwell (BitVec.ofNat 16 q)
    rw [hnat] at hiff
    rw [hiff]
    constructor
    · rintro ⟨m, hm, hport⟩
      exact ⟨m, hm, _, hport, hnat⟩
    · rintro ⟨m, hm, port, hport, hq⟩
      refine ⟨m, hm, ?_⟩
      rw [Option.mem_def.1 hport, ← hq, BitVec.ofNat_toNat, BitVec.setWidth_eq]
  have hlt : p < endPort := hend
  refine ⟨.ofNat 16 p, ?_, ⟨hfirst, hlt, fun m hm port hport heq => ?_⟩, fun q hq => ?_⟩
  · exact toNat_ofNat_of_lt_endPort hlt
  · rw [(hlisted p hlt).2 ⟨m, hm, port, hport, heq⟩] at hfree
    cases hfree
  · obtain ⟨hqfirst, hqend, hnone⟩ := hq
    by_contra hnot
    have hshown := hbefore q hqfirst (Nat.lt_of_not_le hnot)
    rw [Bool.not_not] at hshown
    obtain ⟨m, hm, port, hport, heq⟩ := (hlisted q hqend).1 hshown
    exact hnone m hm port hport heq

/-- The outcomes of a call with a complete list: a mapping is reused, no port is free, or the
first free port is asked for. -/
theorem addPortMapping_cases (hconnected : s.isConnected = true) (hlists : ∀ i, a.lists i = true)
    (hwell : ∀ m ∈ s.gateway.entries, WellFormed m) (inPort : Port) :
    (∃ m ∈ s.gateway.entries, ∃ port, MapsTo m port s.localAddr inPort ∧
        s.addPortMapping a inPort = (s, port)) ∨
      (∀ m ∈ s.gateway.entries, ∀ port, ¬ MapsTo m port s.localAddr inPort) ∧
        (s.addPortMapping a inPort = (s, 0) ∨
          ∃ port : Port, IsLeast (Eligible s.gateway.entries) port.toNat ∧
            s.addPortMapping a inPort = s.tryPort a inPort port.toNat) := by
  rw [addPortMapping, if_pos hconnected, getPortMappingEntries_eq hlists, List.drop_zero]
  dsimp only
  cases hfind : (s.gateway.entries.filterMap Redirection.ofMapping).find? (s.isLocalEp inPort) with
  | some r =>
      left
      obtain ⟨m, hm, hr⟩ := List.mem_filterMap.1 (List.mem_of_find?_eq_some hfind)
      exact ⟨m, hm, r.extPort, (isLocalEp_iff hr).1 (List.find?_some hfind), rfl⟩
  | none =>
      right
      constructor
      · intro m hm port hmaps
        have hext := (Mapping.isTcp_iff.1 hmaps.1).2
        have hr : Redirection.ofMapping m = some ⟨port, inPort, m.inAddr, m.protocol⟩ := by
          rw [Redirection.ofMapping, hext, hmaps.2.2]
          rfl
        apply List.find?_eq_none.1 hfind _ (List.mem_filterMap.2 ⟨m, hm, hr⟩)
        exact (isLocalEp_iff hr).2 hmaps
      · dsimp only
        rw [searchPort_eq]
        cases hfree : (List.range' firstPort (endPort - firstPort)).find? (fun p =>
            !isExtPort (s.gateway.entries.filterMap Redirection.ofMapping) p) with
        | none => exact .inl rfl
        | some p =>
            obtain ⟨port, rfl, hleast⟩ := isLeast_of_find hwell hfree
            exact .inr ⟨port, hleast, rfl⟩

/-- An eligible port has no tcp entry, so a request to add it changes no other entry. -/
theorem prefix_added (hport : port.toNat ∈ Eligible s.gateway.entries) (a : Answers)
    (inPort : Port) : s.gateway.entries <+: (s.added a inPort port).entries := by
  have hnone : ∀ m ∈ s.gateway.entries, m.isTcp port = false := by
    intro m hm
    by_contra hnot
    have hext := (Mapping.isTcp_iff.1 (Bool.eq_true_of_not_eq_false hnot)).2
    exact hport.2.2 m hm port hext rfl
  rw [added]
  cases a.adds with
  | none => exact List.prefix_rfl
  | some stored =>
      rw [Gateway.addPortMapping_some, Gateway.entries_insert]
      change s.gateway.entries <+: s.gateway.without port ++ _
      rw [Gateway.without_eq hnone]
      exact List.prefix_append _ _

theorem length_requests_added (s : UpnpClient) (a : Answers) (inPort port : Port) :
    (s.added a inPort port).requests.length = s.gateway.requests.length + 1 := by
  rw [added]
  cases a.adds with
  | none => simp [Gateway.addPortMapping_none]
  | some stored => simp [Gateway.addPortMapping_some, Gateway.insert]

theorem find_added (hc : Confirms s.localAddr inPort a) :
    ∃ m, (s.added a inPort port).find port = some m ∧ MapsTo m port s.localAddr inPort := by
  obtain ⟨-, stored, hstored, haddr, hport⟩ := hc
  refine ⟨Gateway.entry (toText port.toNat) stored, ?_, ?_, haddr, ?_⟩
  · rw [added, Option.mem_def.1 hstored, Gateway.addPortMapping_some, Gateway.find_insert]
  · exact Gateway.isTcp_entry (lexicalCast_toText_toNat port) stored
  · change lexicalCast stored.inPort = some inPort
    rw [eq_of_iequals_toText hport, lexicalCast_toText_toNat]

/-- What a call of `AddPortMapping` with a complete list leaves behind, and what it returns. -/
theorem addPortMapping_post (s : UpnpClient) (a : Answers) (inPort : Port)
    (hlists : ∀ i, a.lists i = true) (hwell : ∀ m ∈ s.gateway.entries, WellFormed m) :
    let t := (s.addPortMapping a inPort).1
    let port := (s.addPortMapping a inPort).2
    (port ≠ 0 → (∃ m, t.gateway.find port = some m ∧ MapsTo m port s.localAddr inPort) ∧
        s.gateway.entries <+: t.gateway.entries) ∧
      (s.isConnected = true → (∃ m ∈ s.gateway.entries, ∃ p, MapsTo m p s.localAddr inPort) →
        t = s ∧ ∃ m ∈ s.gateway.entries, MapsTo m port s.localAddr inPort) ∧
      ((∀ m ∈ s.gateway.entries, ∀ p, ¬ MapsTo m p s.localAddr inPort) → port ≠ 0 →
        IsLeast (Eligible s.gateway.entries) port.toNat) ∧
      t.gateway.requests.length ≤ s.gateway.requests.length + 1 := by
  intro t port
  cases hconnected : s.isConnected with
  | false =>
      have hresult : s.addPortMapping a inPort = (s, 0) := by
        rw [addPortMapping, hconnected]
        rfl
      have ht : t = s := congrArg Prod.fst hresult
      have hport : port = 0 := congrArg Prod.snd hresult
      refine ⟨fun h => absurd hport h, nofun, fun _ h => absurd hport h, ?_⟩
      rw [ht]
      exact Nat.le_succ _
  | true =>
      rcases addPortMapping_cases hconnected hlists hwell inPort with
        ⟨m, hm, p, hmaps, hresult⟩ | ⟨hnone, hresult | ⟨p, hleast, hresult⟩⟩
      · have ht : t = s := congrArg Prod.fst hresult
        have hport : port = p := congrArg Prod.snd hresult
        rw [ht, hport]
        refine ⟨fun _ => ⟨⟨m, ?_, hmaps⟩, List.prefix_rfl⟩, fun _ _ => ⟨rfl, m, hm, hmaps⟩,
          fun h => absurd hmaps (h m hm p), Nat.le_succ _⟩
        exact Gateway.find_of_mem hm hmaps.1
      · have ht : t = s := congrArg Prod.fst hresult
        have hport : port = 0 := congrArg Prod.snd hresult
        refine ⟨fun h => absurd hport h, fun _ ⟨m, hm, p, hmaps⟩ => absurd hmaps (hnone m hm p),
          fun _ h => absurd hport h, ?_⟩
        rw [ht]
        exact Nat.le_succ _
      · have hgateway : t.gateway = s.added a inPort p := by
          change (s.addPortMapping a inPort).1.gateway = _
          rw [hresult, gateway_tryPort]
        have hconfirmed : port ≠ 0 → port = p ∧ Confirms s.localAddr inPort a := by
          intro hport
          change (s.addPortMapping a inPort).2 ≠ 0 at hport
          change (s.addPortMapping a inPort).2 = p ∧ _
          rw [hresult] at hport ⊢
          exact confirms_of_tryPort hport
        refine ⟨fun hport => ?_, fun _ ⟨m, hm, q, hmaps⟩ => absurd hmaps (hnone m hm q),
          fun _ hport => ?_, ?_⟩
        · obtain ⟨heq, hc⟩ := hconfirmed hport
          rw [heq, hgateway]
          exact ⟨find_added hc, prefix_added hleast.1 a inPort⟩
        · rw [(hconfirmed hport).1]
          exact hleast
        · rw [hgateway, length_requests_added]

def sampleGateway : Gateway where
  entries := [⟨toText 49152, toText 80, ['b'], ['T', 'C', 'P'], []⟩]
  apart := List.pairwise_singleton _ _

def sample : UpnpClient where
  localAddr := ['a']
  gateway := sampleGateway

/-- The gateway stores a mapping as it is asked for, in capital letters. -/
def sampleAnswers : Answers where
  adds := some ⟨toText 80, ['A'], desc⟩

/-- The second port is asked for and returned. -/
theorem addPortMapping_sample :
    (sample.addPortMapping sampleAnswers 80).2 = 49153 ∧
      IsLeast (Eligible sampleGateway.entries) 49153 ∧
      ∃ m, (sample.addPortMapping sampleAnswers 80).1.gateway.find 49153 = some m ∧
        MapsTo m 49153 ['a'] 80 := by
  have hwell : ∀ m ∈ sample.gateway.entries, WellFormed m := by
    intro m hm
    obtain rfl := List.mem_singleton.1 hm
    exact ⟨rfl, rfl⟩
  have hport : (sample.addPortMapping sampleAnswers 80).2 = 49153 := by
    have hconnected : sample.isConnected = true := rfl
    have hlists : ∀ i, sampleAnswers.lists i = true := fun _ => rfl
    rw [addPortMapping, if_pos hconnected, getPortMappingEntries_eq hlists]
    rfl
  have hnone : ∀ m ∈ sample.gateway.entries, ∀ p, ¬ MapsTo m p sample.localAddr 80 := by
    rintro m hm p ⟨-, haddr, -⟩
    obtain rfl := List.mem_singleton.1 hm
    cases haddr
  have hpost := addPortMapping_post sample sampleAnswers 80 (fun _ => rfl) hwell
  rw [hport] at hpost
  obtain ⟨htable, -, hleast, -⟩ := hpost
  exact ⟨hport, hleast hnone (by decide), (htable (by decide)).1⟩

end UpnpClient

end OpenNat
