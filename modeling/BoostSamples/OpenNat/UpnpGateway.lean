import Mathlib.Data.BitVec
import Mathlib.Data.List.Pairwise

/-!
# The mapping table of a UPnP gateway

What an Internet gateway device answers to the calls of miniupnpc that the UPNP client
makes: a table of port mappings with at most one tcp entry for each external port. Ports
and addresses are texts, as they are in the calls. Whether a call succeeds is not up to
the table, and comes as an argument.
-/

namespace OpenNat

abbrev Text := List Char

/-- An `unsigned short`. -/
abbrev Port := BitVec 16

def iequals (x y : Text) : Bool := x.map Char.toUpper == y.map Char.toUpper

/-- The number of a text of decimal digits, if it fits into 16 bits. -/
def ofDigits (digits : Text) : Option Port :=
  if digits ≠ [] ∧ digits.all Char.isDigit ∧ Nat.ofDigitChars 10 digits 0 < 2 ^ 16 then
    some (.ofNat 16 (Nat.ofDigitChars 10 digits 0))
  else none

/-- `boost::lexical_cast<unsigned short>`; `none` is `bad_lexical_cast`. A sign is allowed. -/
def lexicalCast : Text → Option Port
  | '-' :: digits => (ofDigits digits).map (- ·)
  | '+' :: digits => ofDigits digits
  | digits => ofDigits digits

/-- `std::to_string`. -/
def toText (n : ℕ) : Text := Nat.toDigits 10 n

section Text

theorem eq_of_toUpper {c d : Char} (hd : d.isDigit = true) (h : c.toUpper = d) : c = d := by
  delta Char.toUpper at h
  split at h
  · next hc =>
      subst h
      simp only [Char.isDigit, Bool.and_eq_true, decide_eq_true_eq, ge_iff_le,
        UInt32.le_iff_toNat_le, UInt32.toNat_add, UInt32.toNat_sub] at hd hc
      simp only [Char.reduceVal, UInt32.reduceToNat] at hd hc
      omega
  · exact h

theorem toUpper_of_isDigit {c : Char} (h : c.isDigit = true) : c.toUpper = c := by
  apply dif_neg
  rintro ⟨hlower, -⟩
  simp only [Char.isDigit, Bool.and_eq_true, decide_eq_true_eq, ge_iff_le,
    UInt32.le_iff_toNat_le] at h hlower
  simp only [Char.reduceVal, UInt32.reduceToNat] at h hlower
  omega

theorem eq_of_map_toUpper {x y : Text} (hy : ∀ c ∈ y, c.isDigit = true)
    (h : x.map Char.toUpper = y) : x = y := by
  induction x generalizing y with
  | nil => exact h
  | cons c x ih =>
      subst h
      have hc : c = c.toUpper := eq_of_toUpper (hy _ List.mem_cons_self) rfl
      have hx := ih (fun d hd => hy d (List.mem_cons_of_mem _ hd)) rfl
      rw [List.map_cons, ← hc, ← hx]

theorem isDigit_of_mem_toText {n : ℕ} {c : Char} (h : c ∈ toText n) : c.isDigit = true :=
  Nat.isDigit_of_mem_toDigits (by decide) (by decide) h

theorem eq_of_iequals_toText {x : Text} {n : ℕ} (h : iequals x (toText n) = true) :
    x = toText n := by
  have hmap : (toText n).map Char.toUpper = toText n := by
    conv_rhs => rw [← List.map_id (toText n)]
    apply List.map_congr_left
    intro c hc
    exact toUpper_of_isDigit (isDigit_of_mem_toText hc)
  rw [iequals, beq_iff_eq, hmap] at h
  exact eq_of_map_toUpper (fun c hc => isDigit_of_mem_toText hc) h

theorem ofDigits_toText {n : ℕ} (h : n < 2 ^ 16) : ofDigits (toText n) = some (.ofNat 16 n) := by
  have hall : (toText n).all Char.isDigit = true :=
    List.all_eq_true.2 fun c hc => isDigit_of_mem_toText hc
  have hvalue : Nat.ofDigitChars 10 (toText n) 0 = n := Nat.ofDigitChars_ten_toDigits
  rw [ofDigits, hvalue, if_pos ⟨Nat.toDigits_ne_nil, hall, h⟩]

theorem lexicalCast_toText {n : ℕ} (h : n < 2 ^ 16) :
    lexicalCast (toText n) = some (.ofNat 16 n) := by
  rw [← ofDigits_toText h]
  have hdigit : ∀ c ∈ toText n, c.isDigit = true := fun c hc => isDigit_of_mem_toText hc
  rw [lexicalCast]
  · rintro digits heq
    rw [heq] at hdigit
    exact absurd (hdigit '-' List.mem_cons_self) (by decide)
  · rintro digits heq
    rw [heq] at hdigit
    exact absurd (hdigit '+' List.mem_cons_self) (by decide)

theorem lexicalCast_toText_toNat (port : Port) : lexicalCast (toText port.toNat) = some port := by
  rw [lexicalCast_toText port.isLt, BitVec.ofNat_toNat, BitVec.setWidth_eq]

end Text

structure Mapping where
  extPort : Text
  inPort : Text
  inAddr : Text
  protocol : Text
  desc : Text
  deriving DecidableEq

def Mapping.isTcp (port : Port) (m : Mapping) : Bool :=
  iequals m.protocol ['t', 'c', 'p'] && lexicalCast m.extPort == some port

theorem Mapping.isTcp_iff {port : Port} {m : Mapping} : m.isTcp port = true ↔
    iequals m.protocol ['t', 'c', 'p'] = true ∧ lexicalCast m.extPort = some port := by
  rw [isTcp, Bool.and_eq_true, beq_iff_eq]

theorem Mapping.eq_of_isTcp {port port' : Port} {m : Mapping} (h : m.isTcp port = true)
    (h' : m.isTcp port' = true) : port = port' :=
  Option.some.inj ((isTcp_iff.1 h).2.symm.trans (isTcp_iff.1 h').2)

/-- Two entries are not the tcp entries of one port. -/
def Mapping.Apart (x y : Mapping) : Prop :=
  ∀ port, x.isTcp port = true → y.isTcp port = false

instance : Std.Symm Mapping.Apart where
  symm x y h port hy := by
    by_contra hx
    rw [h port (Bool.eq_true_of_not_eq_false hx)] at hy
    cases hy

/-- The table of a gateway, and the requests to add a mapping that it has received. -/
structure Gateway where
  entries : List Mapping
  apart : entries.Pairwise Mapping.Apart
  requests : List Mapping := []

namespace Gateway

structure Target where
  inPort : Text
  inAddr : Text
  desc : Text
  deriving DecidableEq

def entry (extPort : Text) (x : Target) : Mapping :=
  ⟨extPort, x.inPort, x.inAddr, ['t', 'c', 'p'], x.desc⟩

theorem isTcp_entry {extPort : Text} {port : Port} (h : lexicalCast extPort = some port)
    (x : Target) : (entry extPort x).isTcp port = true :=
  Mapping.isTcp_iff.2 ⟨rfl, h⟩

def without (g : Gateway) (port : Port) : List Mapping :=
  g.entries.filter fun m => !m.isTcp port

def find (g : Gateway) (port : Port) : Option Mapping := g.entries.find? (Mapping.isTcp port)

def insert (g : Gateway) (extPort : Text) (x : Target) : Gateway where
  entries :=
    match lexicalCast extPort with
    | none => g.entries
    | some port => g.without port ++ [entry extPort x]
  apart := by
    split
    · exact g.apart
    · next port hport =>
        apply List.pairwise_append.2
        refine ⟨g.apart.filter _, List.pairwise_singleton _ _, fun y hy z hz => ?_⟩
        obtain rfl := List.mem_singleton.1 hz
        intro port' hy'
        have hy : y.isTcp port = false := by simpa using (List.mem_filter.1 hy).2
        by_contra hnot
        have hsame := Mapping.eq_of_isTcp (isTcp_entry hport x) (Bool.eq_true_of_not_eq_false hnot)
        rw [hsame, hy'] at hy
        cases hy
  requests := g.requests

def erase (g : Gateway) (port : Port) : Gateway where
  entries := g.without port
  apart := g.apart.filter _
  requests := g.requests

/-- `UPNP_GetGenericPortMappingEntry`; `none` is error 713. -/
def getGenericPortMappingEntry (g : Gateway) (index : ℕ) : Option Mapping := g.entries[index]?

/-- `UPNP_AddPortMapping` for tcp, with what the gateway makes of the request; `none` means
that the call fails. -/
def addPortMapping (g : Gateway) (extPort : Text) (x : Target) (answer : Option Target) :
    Gateway × Bool :=
  let g := { g with requests := g.requests ++ [entry extPort x] }
  match answer, lexicalCast extPort with
  | some stored, some _ => (g.insert extPort stored, true)
  | _, _ => (g, false)

/-- `UPNP_GetSpecificPortMappingEntry` for tcp; `none` means that the call fails. -/
def getSpecificPortMappingEntry (g : Gateway) (extPort : Text) (answer : Bool) :
    Option Mapping :=
  if answer then (lexicalCast extPort).bind g.find else none

/-- `UPNP_DeletePortMapping` for tcp. -/
def deletePortMapping (g : Gateway) (extPort : Text) : Gateway :=
  match lexicalCast extPort with
  | none => g
  | some port => g.erase port

variable {g : Gateway} {m : Mapping} {port : Port}

theorem find_of_mem (h : m ∈ g.entries) (hm : m.isTcp port = true) : g.find port = some m := by
  have hother : ∀ x ∈ g.entries, x.isTcp port = true → x = m := by
    intro x hx hport
    by_contra hne
    rw [g.apart.forall hx h hne port hport] at hm
    cases hm
  have hsome : (g.find port).isSome = true := List.find?_isSome.2 ⟨m, h, hm⟩
  obtain ⟨x, hx⟩ := Option.isSome_iff_exists.1 hsome
  rw [hx, hother x (List.mem_of_find?_eq_some hx) (List.find?_some hx)]

theorem entries_insert (g : Gateway) (port : Port) (x : Target) :
    (g.insert (toText port.toNat) x).entries =
      g.without port ++ [entry (toText port.toNat) x] := by
  simp only [insert, lexicalCast_toText_toNat]

theorem find_insert (g : Gateway) (port : Port) (x : Target) :
    (g.insert (toText port.toNat) x).find port = some (entry (toText port.toNat) x) := by
  apply find_of_mem _ (isTcp_entry (lexicalCast_toText_toNat port) x)
  rw [entries_insert]
  exact List.mem_append_right _ (List.mem_singleton_self _)

theorem without_eq (h : ∀ m ∈ g.entries, m.isTcp port = false) : g.without port = g.entries := by
  apply List.filter_eq_self.2
  intro m hm
  rw [h m hm]
  rfl

theorem addPortMapping_none (g : Gateway) (extPort : Text) (x : Target) :
    g.addPortMapping extPort x none =
      ({ g with requests := g.requests ++ [entry extPort x] }, false) := rfl

theorem addPortMapping_some (g : Gateway) (port : Port) (x stored : Target) :
    g.addPortMapping (toText port.toNat) x (some stored) =
      (insert { g with requests := g.requests ++ [entry (toText port.toNat) x] }
        (toText port.toNat) stored, true) := by
  simp only [addPortMapping, lexicalCast_toText_toNat]

theorem getSpecificPortMappingEntry_eq (g : Gateway) (port : Port) (answer : Bool) :
    g.getSpecificPortMappingEntry (toText port.toNat) answer =
      if answer then g.find port else none := by
  rw [getSpecificPortMappingEntry, lexicalCast_toText_toNat, Option.bind_some]

theorem deletePortMapping_eq (g : Gateway) (port : Port) :
    g.deletePortMapping (toText port.toNat) = g.erase port := by
  rw [deletePortMapping, lexicalCast_toText_toNat]

end Gateway

end OpenNat
