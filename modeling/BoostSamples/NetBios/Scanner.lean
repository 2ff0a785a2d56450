import BoostSamples.AgentUuid.Identity

/-!
# The NetBIOS scanner

`Scan` goes through the hosts that `NetServerEnum` has found, resolves the name
of each of them and asks for its hardware address. It goes on to the next host
behind the output of one, inside of the block whose exceptions it catches, so a
host that is not found is tried again in the next round, and there are as many
rounds as hosts. `Arp` prints the address as the sibling code for the local
machine does, out of two words of the network byte order.
-/

namespace NetBios

open Numeral UuidSha1

/-- `SERVER_INFO_101`, as far as it is printed. -/
structure ServerInfo where
  name : String
  comment : String
  type : BitVec 32

structure Output where
  name : String
  comment : String
  ipAddress : String
  macAddress : List Char
  kind : String
  deriving DecidableEq

def kind (type : BitVec 32) : String :=
  if type &&& 1 ≠ 0 ∨ type &&& 2 ≠ 0 then "pc" else "unknown"

def load : Endian → List UInt8 → BitVec 32
  | .little, l => .ofNat 32 (ofBytes l.reverse)
  | .big, l => .ofNat 32 (ofBytes l)

def ntohl (e : Endian) (d : BitVec 32) : BitVec 32 := e.nativeToBig d

def formatUpper (width n : Nat) : List Char :=
  ((Nat.toDigits 16 n).leftpad width '0').map Char.toUpper

/-- The text of `Arp` for the address that `SendARP` stores in two words, the
last two bytes of which stay zero. -/
def printArp (e : Endian) (mac : Vector UInt8 6) : List Char :=
  let first := ntohl e (load e (mac.toList.take 4))
  let second := ntohl e (load e (mac.toList.drop 4 ++ [0, 0])) >>> 16
  (formatUpper 8 first.toNat ++ formatUpper 4 second.toNat).map Char.toLower

section Arp

theorem ofBytes_lt_word {l : List UInt8} (h : l.length = 4) : ofBytes l < 2 ^ 32 := by
  have hlt := ofBytes_lt l
  rwa [h] at hlt

theorem toNat_ntohl_load (e : Endian) {l : List UInt8} (h : l.length = 4) :
    (ntohl e (load e l)).toNat = ofBytes l := by
  have hlt := ofBytes_lt_word h
  cases e with
  | big =>
      rw [load, ntohl, Endian.nativeToBig, BitVec.toNat_ofNat, Nat.mod_eq_of_lt hlt]
  | little =>
      have hreverse : l.reverse.length = 4 := by rw [List.length_reverse, h]
      have hback := bytes_ofBytes l.reverse
      rw [hreverse] at hback
      rw [load, ntohl, Endian.nativeToBig, BitVec.toNat_ofNat, BitVec.toNat_ofNat,
        Nat.mod_eq_of_lt (ofBytes_lt_word hreverse), hback, List.reverse_reverse,
        Nat.mod_eq_of_lt hlt]

theorem leftpad_toDigits_bytes {k n : ℕ} (hk : 0 < k) (hn : n < 256 ^ k) :
    (Nat.toDigits 16 n).leftpad (k * 2) '0' = (bytes k n).flatMap hexByte := by
  have hfits : n < 16 ^ (k * 2) := by rwa [Nat.mul_comm, pow_mul]
  have hbyte : hexByte = fun b => (digits 16 2 b.toNat).map Nat.digitChar := rfl
  rw [leftpad_toDigits (by decide) (by omega) hfits, ← flatMap_digits, show 16 ^ 2 = 256 from rfl,
    ← toNat_bytes, List.flatMap_map, List.map_flatMap, hbyte]

theorem toLower_toUpper_digitChar {d : ℕ} (h : d < 16) :
    d.digitChar.toUpper.toLower = d.digitChar := by
  revert d
  decide

theorem toLower_formatUpper {l : List UInt8} (hpos : 0 < l.length) :
    (formatUpper (l.length * 2) (ofBytes l)).map Char.toLower = l.flatMap hexByte := by
  have hdigits : ∀ c ∈ l.flatMap hexByte, (Char.toLower ∘ Char.toUpper) c = c := by
    intro c hc
    obtain ⟨b, -, hb⟩ := List.mem_flatMap.1 hc
    obtain ⟨d, hd, rfl⟩ := List.mem_map.1 hb
    exact toLower_toUpper_digitChar (lt_of_mem_digits (by decide) hd)
  rw [formatUpper, leftpad_toDigits_bytes hpos (ofBytes_lt l), bytes_ofBytes, List.map_map,
    List.map_congr_left hdigits, List.map_id']

/-- The text of `Arp` is the bytes of the address in order, whatever the byte
order of the machine is. -/
theorem printArp_eq (e : Endian) (mac : Vector UInt8 6) :
    printArp e mac = mac.toList.flatMap hexByte := by
  have hlength : mac.toList.length = 6 := mac.length_toList
  have hfirst : (mac.toList.take 4).length = 4 := by rw [List.length_take, hlength]; rfl
  have hsecond : (mac.toList.drop 4).length = 2 := by rw [List.length_drop, hlength]
  have hzeros : (mac.toList.drop 4 ++ [0, 0]).length = 4 := by
    rw [List.length_append, hsecond]
    rfl
  have hshift : (ntohl e (load e (mac.toList.drop 4 ++ [0, 0])) >>> 16).toNat =
      ofBytes (mac.toList.drop 4) := by
    have happend : mac.toList.drop 4 ++ [0, 0] = mac.toList.drop 4 ++ [0] ++ [0] := by simp
    rw [BitVec.toNat_ushiftRight, toNat_ntohl_load e hzeros, happend, ofBytes_append_singleton,
      ofBytes_append_singleton, Nat.shiftRight_eq_div_pow]
    simp
    omega
  have hfront := toLower_formatUpper (l := mac.toList.take 4) (by omega)
  have hback := toLower_formatUpper (l := mac.toList.drop 4) (by omega)
  rw [hfirst] at hfront
  rw [hsecond] at hback
  rw [printArp, toNat_ntohl_load e hfirst, hshift, List.map_append, hfront, hback,
    ← List.flatMap_append, List.take_append_drop]

/-- What `Arp` prints of an address is what the identification of an agent
prints of it, but for the null character at the end; read as hexadecimal digits
it is the address. -/
theorem printArp_agrees (e : Endian) (adapters : Option (List AgentUuid.Adapter)) :
    AgentUuid.eraseColons (AgentUuid.getMac adapters) =
        printArp e (AgentUuid.address adapters) ++ ['\x00'] ∧
      ofHex (printArp e (AgentUuid.address adapters)) =
        some (AgentUuid.address adapters).toList := by
  rw [printArp_eq, ofHex_flatMap_hexByte]
  exact ⟨AgentUuid.eraseColons_printAddress _, rfl⟩

end Arp

section Scan

structure State where
  position : Nat := 0
  printed : List Output := []
  errors : Nat := 0

variable (e : Endian) (resolve : Nat → String → Option String)
  (sendArp : Nat → String → Option (Vector UInt8 6))

/-- What comes out for a host in a round: `none` if `Resolve` or `Arp` throws. -/
def attempt (round : Nat) (s : ServerInfo) : Option Output :=
  (resolve round s.name).bind fun ip =>
    (sendArp round ip).map fun mac => ⟨s.name, s.comment, ip, printArp e mac, kind s.type⟩

/-- A round of the loop of `Scan`; `none` if it reads behind the list. -/
def scanRound (info : Option (List ServerInfo)) (round : Nat) (s : State) : Option State :=
  match info with
  | none => some { s with errors := s.errors + 1 }
  | some hosts =>
      (hosts[s.position]?).map fun host =>
        match attempt e resolve sendArp round host with
        | some out => { s with position := s.position + 1, printed := s.printed ++ [out] }
        | none => { s with errors := s.errors + 1 }

/-- The loop of `Scan` after a number of rounds. -/
def scan (info : Option (List ServerInfo)) : Nat → Option State
  | 0 => some {}
  | round + 1 => (scan info round).bind (scanRound e resolve sendArp info round)

variable {e resolve sendArp}

/-- What is printed after some rounds: the first hosts in order, each of them
as it was found in one of the rounds; the other rounds have failed. -/
theorem scan_in_order (hosts : List ServerInfo) {rounds : Nat} (h : rounds ≤ hosts.length) :
    ∃ s, scan e resolve sendArp (some hosts) rounds = some s ∧
      s.position + s.errors = rounds ∧
      List.Forall₂ (fun out host => ∃ round < rounds,
        attempt e resolve sendArp round host = some out) s.printed (hosts.take s.position) := by
  induction rounds with
  | zero => exact ⟨{}, rfl, rfl, .nil⟩
  | succ round ih =>
      obtain ⟨s, hs, hsum, hprinted⟩ := ih (Nat.le_of_succ_le h)
      have hprinted : List.Forall₂ (fun out host => ∃ i < round + 1,
          attempt e resolve sendArp i host = some out) s.printed (hosts.take s.position) := by
        refine hprinted.imp fun out host h => ?_
        obtain ⟨i, hi, hout⟩ := h
        exact ⟨i, Nat.lt_succ_of_lt hi, hout⟩
      have hlt : s.position < hosts.length := by omega
      have hhost : hosts[s.position]? = some hosts[s.position] := List.getElem?_eq_getElem hlt
      cases hattempt : attempt e resolve sendArp round hosts[s.position] with
      | none =>
          refine ⟨{ s with errors := s.errors + 1 }, ?_, by simp only; omega, hprinted⟩
          rw [scan, hs, Option.bind_some, scanRound, hhost, Option.map_some, hattempt]
      | some out =>
          refine ⟨{ s with position := s.position + 1, printed := s.printed ++ [out] }, ?_,
            by simp only; omega, ?_⟩
          · rw [scan, hs, Option.bind_some, scanRound, hhost, Option.map_some, hattempt]
          · rw [List.take_succ_eq_append_getElem hlt]
            exact List.rel_append hprinted (.cons ⟨round, Nat.lt_succ_self round, hattempt⟩ .nil)

/-- Whatever the lookups find at which time, `Scan` prints hosts in order, each
at most once and none behind one that was left out, and it stays inside of the
list. -/
theorem scan_whole (hosts : List ServerInfo) :
    ∃ s, scan e resolve sendArp (some hosts) hosts.length = some s ∧
      s.position + s.errors = hosts.length ∧
      List.Forall₂ (fun out host => ∃ round < hosts.length,
        attempt e resolve sendArp round host = some out) s.printed (hosts.take s.position) :=
  scan_in_order hosts (Nat.le_refl hosts.length)

theorem scan_none (rounds : Nat) :
    scan e resolve sendArp none rounds = some { errors := rounds } := by
  induction rounds with
  | zero => rfl
  | succ round ih =>
      rw [scan, ih]
      rfl

end Scan

section Stationary

variable (e : Endian) (resolve : String → Option String)
  (sendArp : String → Option (Vector UInt8 6))

def found (s : ServerInfo) : Option Output :=
  attempt e (fun _ => resolve) (fun _ => sendArp) 0 s

/-- The hosts in front of the first one that is not found. -/
def reached (hosts : List ServerInfo) : List ServerInfo :=
  hosts.takeWhile fun s => (found e resolve sendArp s).isSome

variable {e resolve sendArp}

/-- As long as hosts are found each round prints one of them. -/
theorem scan_found {front : List ServerInfo} (hfront : ∀ s ∈ front,
    (found e resolve sendArp s).isSome) (rest : List ServerInfo) {rounds : Nat}
    (h : rounds ≤ front.length) :
    scan e (fun _ => resolve) (fun _ => sendArp) (some (front ++ rest)) rounds =
      some ⟨rounds, (front.take rounds).filterMap (found e resolve sendArp), 0⟩ := by
  induction rounds with
  | zero => rfl
  | succ round ih =>
      have hlt : round < front.length := h
      have hhost : (front ++ rest)[round]? = some front[round] := by
        rw [List.getElem?_append_left hlt, List.getElem?_eq_getElem hlt]
      obtain ⟨out, hout⟩ := Option.isSome_iff_exists.1 (hfront _ (List.getElem_mem hlt))
      have hattempt : attempt e (fun _ => resolve) (fun _ => sendArp) round front[round] =
          some out := hout
      rw [scan, ih (Nat.le_of_lt hlt), Option.bind_some, scanRound, hhost, Option.map_some,
        hattempt, List.take_succ_eq_append_getElem hlt, List.filterMap_append,
        List.filterMap_cons_some hout]
      rfl

/-- A host that is not found stays the next one. -/
theorem scan_not_found {front : List ServerInfo} {host : ServerInfo} (hfront : ∀ s ∈ front,
    (found e resolve sendArp s).isSome) (hhost : found e resolve sendArp host = none)
    (rest : List ServerInfo) (rounds : Nat) :
    scan e (fun _ => resolve) (fun _ => sendArp) (some (front ++ host :: rest))
        (front.length + rounds) =
      some ⟨front.length, front.filterMap (found e resolve sendArp), rounds⟩ := by
  induction rounds with
  | zero =>
      have hfound := scan_found hfront (host :: rest) (Nat.le_refl front.length)
      rwa [List.take_length] at hfound
  | succ round ih =>
      have hget : (front ++ host :: rest)[front.length]? = some host := by simp
      have hattempt : attempt e (fun _ => resolve) (fun _ => sendArp) (front.length + round) host =
          none := hhost
      rw [← Nat.add_assoc, scan, ih, Option.bind_some, scanRound, hget, Option.map_some, hattempt]

/-- If every round finds the same, the hosts in front of the first one that is
not found are printed, and the rest of the rounds fails: all that could be found
is printed if and only if nothing is found from there on. -/
theorem scan_stationary (hosts : List ServerInfo) :
    ∃ s, scan e (fun _ => resolve) (fun _ => sendArp) (some hosts) hosts.length = some s ∧
      s.printed = (reached e resolve sendArp hosts).filterMap (found e resolve sendArp) ∧
      s.errors = hosts.length - (reached e resolve sendArp hosts).length ∧
      (s.printed = hosts.filterMap (found e resolve sendArp) ↔
        ∀ host ∈ hosts.drop (reached e resolve sendArp hosts).length,
          found e resolve sendArp host = none) := by
  have hfront : ∀ s ∈ reached e resolve sendArp hosts, (found e resolve sendArp s).isSome :=
    fun s hs => List.all_eq_true.1 List.all_takeWhile s hs
  have hsplit : reached e resolve sendArp hosts ++
      hosts.dropWhile (fun s => (found e resolve sendArp s).isSome) = hosts :=
    List.takeWhile_append_dropWhile
  have hdrop : hosts.drop (reached e resolve sendArp hosts).length =
      hosts.dropWhile fun s => (found e resolve sendArp s).isSome := by
    conv_lhs => arg 2; rw [← hsplit]
    exact List.drop_left
  have hall : (reached e resolve sendArp hosts).filterMap (found e resolve sendArp) =
      hosts.filterMap (found e resolve sendArp) ↔
        ∀ host ∈ hosts.drop (reached e resolve sendArp hosts).length,
          found e resolve sendArp host = none := by
    rw [← List.filterMap_eq_nil_iff, hdrop]
    conv_lhs => rhs; rw [← hsplit, List.filterMap_append]
    exact List.self_eq_append_right
  have hlength := congrArg List.length hsplit
  rw [List.length_append] at hlength
  cases hrest : hosts.dropWhile fun s => (found e resolve sendArp s).isSome with
  | nil =>
      rw [hrest, List.append_nil] at hsplit
      have hscan := scan_found hfront [] (Nat.le_refl _)
      rw [List.append_nil, List.take_length, hsplit] at hscan
      refine ⟨_, hscan, ?_, ?_, ?_⟩
      · rw [hsplit]
      · rw [hsplit, Nat.sub_self]
      · rw [← hall, hsplit]
  | cons host rest =>
      have hhost : found e resolve sendArp host = none := by
        have hne : hosts.dropWhile (fun s => (found e resolve sendArp s).isSome) ≠ [] := by
          rw [hrest]
          exact List.cons_ne_nil host rest
        have hnot := List.head_dropWhile_not (fun s => (found e resolve sendArp s).isSome) hne
        simp only [hrest, List.head_cons] at hnot
        exact Option.isSome_eq_false_iff.1 hnot |> Option.isNone_iff_eq_none.1
      have hscan := scan_not_found hfront hhost rest (rest.length + 1)
      rw [← hrest, hsplit] at hscan
      rw [hrest, List.length_cons] at hlength
      rw [hlength] at hscan
      exact ⟨_, hscan, rfl, by simp only; omega, hall⟩

end Stationary

end NetBios
