import Mathlib.Data.BitVec
import Mathlib.Logic.Function.Basic
import BoostSamples.Transition.System

/-!
# The scan of the ICMP scanner

`Scan` sends an echo request to the first address of a range, and the completion handler
of each request sends the next one. The loop is spread over the callbacks, so what a send
will go on with is kept in it: its own address and the last one, where 0 stands for a scan
of one host. Any number of scans interleave, each under the id of its session.

Addresses are computed in `unsigned long`, which has 32 bits or more; `k` is by how many
it has more. The timers are those of the sessions: a wait on one can complete at any time,
and its handler erases a session whose timer has expired.
-/

namespace IcmpScanner

open Transition

abbrev Uuid := BitVec 128

abbrev Address := BitVec 32

/-- An `unsigned long`. -/
abbrev ULong (k : ℕ) := BitVec (32 + k)

def toUlong (k : ℕ) (address : Address) : ULong k := address.setWidth (32 + k)

/-- The constructor of `address_v4`; `none` means that it throws. -/
def ofUlong {k : ℕ} (x : ULong k) : Option Address :=
  if x.toNat < 2 ^ 32 then some (x.setWidth 32) else none

inductive Error
  /-- Final address computed to greater than network address. -/
  | finalAddress
  /-- Session with given id already exist. -/
  | sessionExists
  /-- Unable to find session with given id. -/
  | sessionMissing (id : Uuid)
  | outOfRange
  deriving DecidableEq

/-- An outstanding `async_send_to`, with what its handler goes on with. -/
structure Send (k : ℕ) where
  endpoint : ULong k
  lastEndpoint : ULong k
  sessionId : Uuid
  deriving DecidableEq

structure Scanner (k : ℕ) where
  now : ℕ := 0
  /-- When the timer of a session expires. -/
  sessions : Uuid → Option ℕ := fun _ => none
  sends : List (Send k) := []
  /-- The echo requests that have been sent, each with the id of its session. -/
  sent : List (Uuid × Address) := []

namespace Scanner

variable {k : ℕ}

/-- `expires_from_now(40)` on the timer of a session. -/
def restart (s : Scanner k) (id : Uuid) : Scanner k :=
  { s with sessions := Function.update s.sessions id (some (s.now + 40)) }

/-- `ICMPScanner::EchoRequest`: the state, and what is thrown. -/
def echoRequest (s : Scanner k) (endpoint lastEndpoint : ULong k) (id : Uuid) :
    Scanner k × Option Error :=
  match s.sessions id with
  | none => (s, some (.sessionMissing id))
  | some _ =>
      let s := s.restart id
      match ofUlong endpoint with
      | none => (s, some .outOfRange)
      | some ep =>
          ({ s with
              sends := s.sends ++ [⟨endpoint, lastEndpoint, id⟩]
              sent := s.sent ++ [(id, ep)] }, none)

/-- `ICMPScanner::HandleSend`; what is thrown is only logged. -/
def handleSend (s : Scanner k) (ok : Bool) (x : Send k) : Scanner k :=
  if ok ∧ x.lastEndpoint ≠ 0 ∧ x.endpoint < x.lastEndpoint then
    (s.echoRequest (x.endpoint + 1) x.lastEndpoint x.sessionId).1
  else s

/-- `ICMPScanner::Scan` with the session id that it draws: the state, and what is thrown. -/
def scan (s : Scanner k) (network netmask : Address) (id : Uuid) : Scanner k × Option Error :=
  let curAddress := toUlong k network
  let lastAddress := curAddress ||| (~~~toUlong k netmask &&& 0xFFFFFFFF#(32 + k))
  -- Both are printed as addresses first.
  if ofUlong curAddress = none ∨ ofUlong lastAddress = none then (s, some .outOfRange)
  else if lastAddress < curAddress then (s, some .finalAddress)
  else
    match s.sessions id with
    | some _ => (s, some .sessionExists)
    | none =>
        (s.restart id).echoRequest curAddress
          (if curAddress ≠ lastAddress then lastAddress else 0) id

/-- `ICMPScanner::HandleReceive` on an echo reply with the id of a session in its body. -/
def handleReceive (s : Scanner k) (id : Uuid) : Scanner k :=
  if (s.sessions id).isSome then s.restart id else s

def handleSessionTimeout (s : Scanner k) (id : Uuid) : Scanner k :=
  match s.sessions id with
  | none => s
  | some expiresAt =>
      if expiresAt ≤ s.now then { s with sessions := Function.update s.sessions id none } else s

/-- What can happen at a scanner. An index picks one of the outstanding sends. -/
inductive Event
  | scan (network netmask : Address) (id : Uuid)
  | sendDone (i : ℕ) (ok : Bool)
  | receive (id : Uuid)
  | sessionTimeout (id : Uuid)
  | tick (seconds : ℕ)

def step (s : Scanner k) : Event → Option (Scanner k)
  | .scan network netmask id => some (s.scan network netmask id).1
  | .sendDone i ok =>
      s.sends[i]?.map fun x => { s with sends := s.sends.eraseIdx i }.handleSend ok x
  | .receive id => some (s.handleReceive id)
  | .sessionTimeout id => some (s.handleSessionTimeout id)
  | .tick seconds => some { s with now := s.now + seconds }

def addresses (s : Scanner k) (id : Uuid) : List Address :=
  (s.sent.filter fun x => x.1 = id).map Prod.snd

def outstanding (s : Scanner k) (id : Uuid) : List (Send k) :=
  s.sends.filter fun x => x.sessionId = id

structure Unused (s : Scanner k) (id : Uuid) : Prop where
  sessions : s.sessions id = none
  addresses : s.addresses id = []
  outstanding : s.outstanding id = []

/-- A scanner whose next call of `Scan` draws an id that is not used. -/
def scanning (k : ℕ) (network netmask : Address) (id : Uuid) : System (Scanner k) Event where
  init t := ∃ s : Scanner k, s.Unused id ∧ t = (s.scan network netmask id).1
  step := step

/-- The sends of a session complete without an error, and the session is not erased. -/
def Undisturbed (id : Uuid) (s : Scanner k) : Event → Prop
  | .sendDone i ok => ∀ x ∈ s.sends[i]?, x.sessionId = id → ok = true
  | .sessionTimeout id' => id' = id → ∀ expiresAt ∈ s.sessions id, s.now < expiresAt
  | _ => True

def lastAddress (network netmask : Address) : Address := network ||| ~~~netmask

def span (first last : Address) : ℕ := last.toNat + 1 - first.toNat

def range (first last : Address) : List ℕ := List.range' first.toNat (span first last)

section Arithmetic

theorem toNat_toUlong (k : ℕ) (a : Address) : (toUlong k a).toNat = a.toNat := by
  rw [toUlong, BitVec.toNat_setWidth]
  exact Nat.mod_eq_of_lt (Nat.lt_of_lt_of_le a.isLt (Nat.pow_le_pow_right (by decide) (by omega)))

theorem ofUlong_toUlong (k : ℕ) (a : Address) : ofUlong (toUlong k a) = some a := by
  have hfits : (toUlong k a).toNat < 2 ^ 32 := by
    rw [toNat_toUlong]
    exact a.isLt
  rw [ofUlong, if_pos hfits]
  congr 1
  apply BitVec.eq_of_toNat_eq
  rw [BitVec.toNat_setWidth, toNat_toUlong, Nat.mod_eq_of_lt a.isLt]

theorem toUlong_lt_iff {k : ℕ} {a b : Address} :
    toUlong k a < toUlong k b ↔ a.toNat < b.toNat := by
  rw [BitVec.lt_def, toNat_toUlong, toNat_toUlong]

theorem toUlong_inj {k : ℕ} {a b : Address} : toUlong k a = toUlong k b ↔ a = b := by
  constructor
  · intro h
    apply BitVec.eq_of_toNat_eq
    rw [← toNat_toUlong k a, h, toNat_toUlong]
  · rintro rfl
    rfl

theorem toUlong_add_one {k : ℕ} {a b : Address} (h : a.toNat < b.toNat) :
    toUlong k a + 1 = toUlong k (a + 1) ∧ (a + 1).toNat = a.toNat + 1 := by
  have hb : b.toNat < 2 ^ 32 := b.isLt
  have hnext : (a + 1).toNat = a.toNat + 1 := by
    rw [BitVec.toNat_add]
    exact Nat.mod_eq_of_lt (by simp; omega)
  refine ⟨?_, hnext⟩
  have hpow : 2 ^ 32 ≤ 2 ^ (32 + k) := Nat.pow_le_pow_right (by decide) (by omega)
  have hone : (1#(32 + k)).toNat = 1 := by
    rw [BitVec.toNat_ofNat]
    exact Nat.mod_eq_of_lt (by omega)
  apply BitVec.eq_of_toNat_eq
  change (toUlong k a + 1#(32 + k)).toNat = _
  rw [BitVec.toNat_add, toNat_toUlong, toNat_toUlong, hnext, hone, Nat.mod_eq_of_lt (by omega)]

theorem lastAddress_eq (k : ℕ) (network netmask : Address) :
    toUlong k network ||| (~~~toUlong k netmask &&& 0xFFFFFFFF#(32 + k)) =
      toUlong k (lastAddress network netmask) := by
  apply BitVec.eq_of_getLsbD_eq
  intro i hi
  have hmask : (0xFFFFFFFF#(32 + k)).getLsbD i = decide (i < 32) := by
    rw [BitVec.getLsbD_ofNat, decide_eq_true hi, Bool.true_and]
    exact Nat.testBit_two_pow_sub_one 32 i
  simp only [toUlong, lastAddress, BitVec.getLsbD_or, BitVec.getLsbD_and, BitVec.getLsbD_not,
    BitVec.getLsbD_setWidth, hmask, decide_eq_true hi, Bool.true_and]
  by_cases h : i < 32
  · simp [h]
  · simp [h, BitVec.getLsbD_of_ge _ i (Nat.not_lt.1 h)]

theorem le_lastAddress (network netmask : Address) :
    network.toNat ≤ (lastAddress network netmask).toNat := by
  rw [lastAddress, BitVec.toNat_or]
  exact Nat.left_le_or

end Arithmetic

section Frame

variable {s t u : Scanner k} {id id' : Uuid}

structure Aside (id : Uuid) (s t : Scanner k) : Prop where
  registered : (s.sessions id).isSome → (t.sessions id).isSome
  addresses : t.addresses id = s.addresses id
  outstanding : t.outstanding id = s.outstanding id

theorem Aside.refl (id : Uuid) (s : Scanner k) : s.Aside id s := ⟨fun h => h, rfl, rfl⟩

theorem Aside.trans (h : s.Aside id t) (h' : t.Aside id u) : s.Aside id u where
  registered hs := h'.registered (h.registered hs)
  addresses := h'.addresses.trans h.addresses
  outstanding := h'.outstanding.trans h.outstanding

theorem restart_sessions_self (s : Scanner k) (id : Uuid) :
    ((s.restart id).sessions id).isSome := by
  simp [restart]

theorem restart_aside (s : Scanner k) (id id' : Uuid) : s.Aside id (s.restart id') := by
  refine ⟨fun h => ?_, rfl, rfl⟩
  by_cases hid : id = id'
  · rw [hid]
    exact restart_sessions_self s id'
  · simpa [restart, hid] using h

theorem echoRequest_aside (s : Scanner k) (e l : ULong k) (h : id' ≠ id) :
    s.Aside id (s.echoRequest e l id').1 := by
  rw [echoRequest]
  split
  · exact .refl id s
  · split
    · exact restart_aside s id id'
    · apply (restart_aside s id id').trans
      constructor
      · exact fun hs => hs
      · simp [addresses, h]
      · simp [outstanding, h]

theorem handleSend_aside (s : Scanner k) (ok : Bool) {x : Send k} (h : x.sessionId ≠ id) :
    s.Aside id (s.handleSend ok x) := by
  rw [handleSend]
  split
  · exact echoRequest_aside s _ _ h
  · exact .refl id s

theorem scan_aside (network netmask : Address) (hs : (s.sessions id).isSome) :
    s.Aside id (s.scan network netmask id').1 := by
  rw [scan]
  split
  · exact .refl id s
  split
  · exact .refl id s
  split
  · exact .refl id s
  · rename_i hnone
    have hne : id' ≠ id := by
      rintro rfl
      rw [hnone] at hs
      exact Bool.noConfusion hs
    exact (restart_aside s id id').trans (echoRequest_aside _ _ _ hne)

theorem handleReceive_aside (s : Scanner k) (id id' : Uuid) :
    s.Aside id (s.handleReceive id') := by
  rw [handleReceive]
  split
  · exact restart_aside s id id'
  · exact .refl id s

theorem handleSessionTimeout_aside (s : Scanner k)
    (h : id' = id → ∀ expiresAt ∈ s.sessions id, s.now < expiresAt) :
    s.Aside id (s.handleSessionTimeout id') := by
  rw [handleSessionTimeout]
  split
  · exact .refl id s
  · rename_i expiresAt hsome
    split
    · rename_i hexpired
      refine ⟨fun hs => ?_, rfl, rfl⟩
      have hne : id ≠ id' := by
        rintro rfl
        exact absurd (h rfl expiresAt hsome) (Nat.not_lt.2 hexpired)
      simpa [hne] using hs
    · exact .refl id s

/-- The completion of a send takes it out of the outstanding sends of its session. -/
theorem outstanding_eraseIdx {i : ℕ} {x : Send k} (h : s.sends[i]? = some x) :
    ∃ before after, s.outstanding x.sessionId = before ++ x :: after ∧
      { s with sends := s.sends.eraseIdx i }.outstanding x.sessionId = before ++ after ∧
      ∀ id', id' ≠ x.sessionId → s.Aside id' { s with sends := s.sends.eraseIdx i } := by
  obtain ⟨before, after, hsends, -, -, herase⟩ := exists_append_of_getElem? h
  refine ⟨before.filter fun y => y.sessionId = x.sessionId,
    after.filter fun y => y.sessionId = x.sessionId, ?_, ?_, ?_⟩
  · simp [outstanding, hsends]
  · simp [outstanding, herase]
  · intro id' hid
    refine ⟨fun hs => hs, rfl, ?_⟩
    simp only [outstanding, herase]
    simp [hsends, hid.symm]

/-- While nothing goes wrong with a session, only the completion of one of its sends is not
aside from it. -/
theorem aside_or_sendDone {e : Event} (hs : (s.sessions id).isSome) (hP : Undisturbed id s e)
    (h : step s e = some t) :
    s.Aside id t ∨ ∃ i x, s.sends[i]? = some x ∧ x.sessionId = id ∧
      t = { s with sends := s.sends.eraseIdx i }.handleSend true x := by
  cases e with
  | scan network netmask id' =>
      cases h
      exact .inl (scan_aside network netmask hs)
  | sendDone i ok =>
      obtain ⟨x, hx, rfl⟩ := Option.map_eq_some_iff.1 h
      by_cases hid : x.sessionId = id
      · rw [hP x hx hid]
        exact .inr ⟨i, x, hx, hid, rfl⟩
      · obtain ⟨-, -, -, -, haside⟩ := outstanding_eraseIdx hx
        exact .inl ((haside id fun h => hid h.symm).trans (handleSend_aside _ ok hid))
  | receive id' =>
      cases h
      exact .inl (handleReceive_aside s id id')
  | sessionTimeout id' =>
      cases h
      exact .inl (handleSessionTimeout_aside s hP)
  | tick seconds =>
      cases h
      exact .inl ⟨fun h => h, rfl, rfl⟩

end Frame

section Sweep

variable {s t : Scanner k} {network last cur : Address} {id : Uuid}

def request (k : ℕ) (network last cur : Address) (id : Uuid) : Send k :=
  ⟨toUlong k cur, if network = last then 0 else toUlong k last, id⟩

/-- The addresses of the range up to one of them have been sent to. -/
structure SentUpTo (network last : Address) (id : Uuid) (cur : Address) (s : Scanner k) :
    Prop where
  registered : (s.sessions id).isSome
  first : network.toNat ≤ cur.toNat
  final : cur.toNat ≤ last.toNat
  addresses : (s.addresses id).map BitVec.toNat = range network cur

/-- A scan waits for the completion of its only send, or has reached the last address. -/
def Sweep (network last : Address) (id : Uuid) (s : Scanner k) : Prop :=
  ∃ cur, s.SentUpTo network last id cur ∧
    (s.outstanding id = [request k network last cur id] ∨ s.outstanding id = [] ∧ cur = last)

theorem SentUpTo.aside (h : s.SentUpTo network last id cur) (hst : s.Aside id t) :
    t.SentUpTo network last id cur where
  registered := hst.registered h.registered
  first := h.first
  final := h.final
  addresses := by rw [hst.addresses, h.addresses]

theorem Sweep.aside (h : s.Sweep network last id) (hst : s.Aside id t) :
    t.Sweep network last id := by
  obtain ⟨cur, hcur, hout⟩ := h
  refine ⟨cur, hcur.aside hst, ?_⟩
  rw [hst.outstanding]
  exact hout

theorem echoRequest_toUlong (h : (s.sessions id).isSome) (cur : Address) (l : ULong k) :
    s.echoRequest (toUlong k cur) l id =
      ({ s.restart id with
          sends := s.sends ++ [⟨toUlong k cur, l, id⟩]
          sent := s.sent ++ [(id, cur)] }, none) := by
  obtain ⟨expiresAt, hsome⟩ := Option.isSome_iff_exists.1 h
  rw [echoRequest, hsome]
  simp only [ofUlong_toUlong]
  rfl

theorem range_add_one (h : network.toNat ≤ cur.toNat) (hcur : (cur + 1).toNat = cur.toNat + 1) :
    range network (cur + 1) = range network cur ++ [(cur + 1).toNat] := by
  have hspan : span network (cur + 1) = span network cur + 1 := by
    rw [span, span, hcur]
    omega
  rw [range, hspan, List.range'_1_concat, range, hcur, span]
  congr 2
  omega

/-- The handler of a send that is not to the last address sends to the next one. -/
theorem handleSend_request (h : s.SentUpTo network last id cur) (hout : s.outstanding id = [])
    (hlt : cur.toNat < last.toNat) :
    (s.handleSend true (request k network last cur id)).SentUpTo network last id (cur + 1) ∧
      (s.handleSend true (request k network last cur id)).outstanding id =
        [request k network last (cur + 1) id] := by
  obtain ⟨hulong, hnat⟩ := toUlong_add_one (k := k) hlt
  have hne : network ≠ last := by
    rintro rfl
    exact absurd h.first (Nat.not_le.2 hlt)
  have hmarker : (request k network last cur id).lastEndpoint = toUlong k last := if_neg hne
  have hzero : toUlong k last ≠ 0 := by
    intro hzero
    have := congrArg BitVec.toNat hzero
    rw [toNat_toUlong] at this
    simp at this
    omega
  have hgo : (s.handleSend true (request k network last cur id)) =
      (s.echoRequest (toUlong k (cur + 1)) (toUlong k last) id).1 := by
    rw [handleSend, hmarker, if_pos ⟨rfl, hzero, toUlong_lt_iff.2 hlt⟩, ← hulong]
    rfl
  rw [hgo, echoRequest_toUlong h.registered]
  constructor
  · refine ⟨restart_sessions_self s id, ?_, ?_, ?_⟩
    · rw [hnat]
      exact Nat.le_succ_of_le h.first
    · rw [hnat]
      exact hlt
    · rw [range_add_one h.first hnat, ← h.addresses]
      simp [addresses]
  · rw [outstanding] at hout
    simp [outstanding, hout, request, hne]

theorem handleSend_last (s : Scanner k) (network last : Address) (id : Uuid) :
    s.handleSend true (request k network last last id) = s := by
  rw [handleSend, if_neg]
  rintro ⟨-, hzero, hlt⟩
  by_cases hne : network = last
  · exact hzero (if_pos hne)
  · rw [request, if_neg hne] at hlt
    exact absurd (toUlong_lt_iff.1 hlt) (Nat.lt_irrefl _)

theorem SentUpTo.sendDone (h : s.SentUpTo network last id cur)
    (hout : s.outstanding id = [request k network last cur id]) {i : ℕ} {x : Send k}
    (hx : s.sends[i]? = some x) (hid : x.sessionId = id) :
    let t := { s with sends := s.sends.eraseIdx i }.handleSend true x
    (cur.toNat < last.toNat ∧ t.SentUpTo network last id (cur + 1) ∧
        t.outstanding id = [request k network last (cur + 1) id]) ∨
      (cur = last ∧ t.SentUpTo network last id last ∧ t.outstanding id = []) := by
  obtain ⟨before, after, hbefore, herase, -⟩ := outstanding_eraseIdx hx
  rw [hid, hout] at hbefore
  rw [hid] at herase
  obtain ⟨rfl, hcons⟩ := List.append_eq_singleton_iff.1 hbefore.symm |>.resolve_right (by simp)
  obtain ⟨rfl, rfl⟩ := List.cons_eq_cons.1 hcons
  have hkept : SentUpTo network last id cur { s with sends := s.sends.eraseIdx i } :=
    ⟨h.registered, h.first, h.final, h.addresses⟩
  rcases Nat.lt_or_eq_of_le h.final with hlt | heq
  · exact .inl ⟨hlt, handleSend_request hkept herase hlt⟩
  · obtain rfl := BitVec.eq_of_toNat_eq heq
    intro t
    have ht : t = { s with sends := s.sends.eraseIdx i } := handleSend_last _ network cur id
    rw [ht]
    exact .inr ⟨rfl, hkept, herase⟩

theorem Sweep.step {e : Event} (h : s.Sweep network last id) (hP : Undisturbed id s e)
    (hs : step s e = some t) : t.Sweep network last id := by
  obtain ⟨cur, hcur, hout⟩ := h
  rcases aside_or_sendDone hcur.registered hP hs with haside | ⟨i, x, hx, hid, rfl⟩
  · exact Sweep.aside ⟨cur, hcur, hout⟩ haside
  · rcases hout with hout | ⟨hempty, -⟩
    · rcases hcur.sendDone hout hx hid with ⟨-, hnext, hout⟩ | ⟨-, hlast, hout⟩
      · exact ⟨cur + 1, hnext, .inl hout⟩
      · exact ⟨last, hlast, .inr ⟨hout, rfl⟩⟩
    · obtain ⟨before, after, hsome, -⟩ := outstanding_eraseIdx hx
      rw [hid, hempty] at hsome
      exact absurd hsome.symm (by simp)

theorem scan_unused (hs : s.Unused id) (network netmask : Address) :
    (s.scan network netmask id).2 = none ∧
      (s.scan network netmask id).1.Sweep network (lastAddress network netmask) id := by
  have hle := le_lastAddress network netmask
  have hregistered := restart_sessions_self s id
  have hscan : s.scan network netmask id =
      (s.restart id).echoRequest (toUlong k network)
        (if network = lastAddress network netmask then 0
          else toUlong k (lastAddress network netmask)) id := by
    rw [scan]
    simp only [lastAddress_eq, ofUlong_toUlong, hs.sessions, toUlong_lt_iff, ne_eq, toUlong_inj,
      Nat.not_lt.2 hle, ite_not, reduceCtorEq, or_self, if_false]
  rw [hscan, echoRequest_toUlong hregistered]
  refine ⟨rfl, network, ⟨restart_sessions_self _ id, Nat.le_refl _, hle, ?_⟩, .inl ?_⟩
  · have hsent := hs.addresses
    rw [addresses] at hsent
    simp [addresses, range, span, restart, hsent]
  · have hsends := hs.outstanding
    rw [outstanding] at hsends
    simp [outstanding, restart, hsends, request]

/-- The addresses that have been sent to are the first ones of the range. -/
theorem Sweep.isPrefix (h : s.Sweep network last id) :
    (s.addresses id).map BitVec.toNat <+: range network last := by
  obtain ⟨cur, hcur, -⟩ := h
  have hlast := hcur.final
  have hsplit : span network last = span network cur + (last.toNat - cur.toNat) := by
    have hfirst := hcur.first
    rw [span, span]
    omega
  rw [hcur.addresses, range, range, hsplit, ← List.range'_append_1]
  apply List.prefix_append

theorem exists_sends_of_outstanding {x : Send k} (h : s.outstanding id = [x]) :
    ∃ i : ℕ, s.sends[i]? = some x := by
  apply List.mem_iff_getElem?.1
  exact (List.mem_filter.1 (h ▸ List.mem_singleton_self x)).1

/-- While a send is outstanding its completion goes on with the scan. -/
theorem SentUpTo.completes (h : s.SentUpTo network last id cur)
    (hout : s.outstanding id = [request k network last cur id]) (S : System (Scanner k) Event)
    (hS : S.step = step) :
    ∃ es u, (∀ e ∈ es, ∃ i, e = Event.sendDone i true) ∧ S.exec s es = some u ∧
      u.SentUpTo network last id last ∧ u.outstanding id = [] := by
  induction hrest : last.toNat - cur.toNat generalizing s cur with
  | zero =>
      obtain ⟨i, hi⟩ := exists_sends_of_outstanding hout
      rcases h.sendDone hout hi rfl with ⟨hlt, -⟩ | ⟨-, hlast, hempty⟩
      · omega
      · refine ⟨[.sendDone i true], _, by simp, ?_, hlast, hempty⟩
        rw [System.exec_cons, hS, step, hi]
        rfl
  | succ rest ih =>
      obtain ⟨i, hi⟩ := exists_sends_of_outstanding hout
      rcases h.sendDone hout hi rfl with ⟨hlt, hnext, hout'⟩ | ⟨rfl, -⟩
      · obtain ⟨-, hnat⟩ := toUlong_add_one (k := k) hlt
        obtain ⟨es, u, hes, hu, hlast, hempty⟩ := ih hnext hout' (by omega)
        refine ⟨.sendDone i true :: es, u, by simpa using hes, ?_, hlast, hempty⟩
        rw [System.exec_cons, hS, step, hi]
        exact hu
      · omega

end Sweep

/-- The final address is never less than the network address. -/
theorem scan_ne_finalAddress (s : Scanner k) (network netmask : Address) (id : Uuid) :
    (s.scan network netmask id).2 ≠ some .finalAddress := by
  have hle := le_lastAddress network netmask
  rw [scan]
  simp only [lastAddress_eq, ofUlong_toUlong, toUlong_lt_iff, Nat.not_lt.2 hle, reduceCtorEq,
    or_self, if_false]
  split
  · simp
  · rw [echoRequest_toUlong (restart_sessions_self s id)]
    simp

/-- A scan sends one echo request to each address of its range, in ascending order. -/
theorem scan_covers (k : ℕ) (network netmask : Address) (id : Uuid) :
    (∀ s : Scanner k, (s.scan network netmask id).2 ≠ some .finalAddress) ∧
      (∀ s : Scanner k, s.Unused id → (s.scan network netmask id).2 = none) ∧
      ∀ t, (scanning k network netmask id).ReachableWhile (Undisturbed id) t →
        (t.addresses id).map BitVec.toNat <+: range network (lastAddress network netmask) ∧
          (t.outstanding id).length ≤ 1 ∧
          (t.outstanding id = [] →
            (t.addresses id).map BitVec.toNat = range network (lastAddress network netmask)) ∧
          ∃ es u, (∀ e ∈ es, ∃ i, e = Event.sendDone i true) ∧
            (scanning k network netmask id).exec t es = some u ∧ u.outstanding id = [] ∧
            (u.addresses id).map BitVec.toNat = range network (lastAddress network netmask) := by
  refine ⟨fun s => scan_ne_finalAddress s network netmask id,
    fun s hs => (scan_unused hs network netmask).1, fun t ht => ?_⟩
  have hsweep : t.Sweep network (lastAddress network netmask) id := by
    apply ht.invariant
    · rintro t ⟨s, hs, rfl⟩
      exact (scan_unused hs network netmask).2
    · intro s e t hs hP h
      exact hs.step hP h
  refine ⟨hsweep.isPrefix, ?_⟩
  obtain ⟨cur, hcur, hout | ⟨hout, rfl⟩⟩ := hsweep
  · obtain ⟨es, u, hes, hu, hlast, hempty⟩ :=
      hcur.completes hout (scanning k network netmask id) rfl
    refine ⟨?_, fun h => ?_, es, u, hes, hu, hempty, hlast.addresses⟩
    · rw [hout]
      exact Nat.le_refl 1
    · rw [hout] at h
      exact absurd h (List.cons_ne_nil _ _)
  · refine ⟨?_, fun _ => hcur.addresses, [], t, by simp, rfl, hout, hcur.addresses⟩
    rw [hout]
    exact Nat.zero_le 1

/-- A scan from 255.255.255.254 with the netmask 255.255.255.254. -/
theorem scan_covers_end :
    (({} : Scanner 32).scan 0xFFFFFFFE 0xFFFFFFFE 7).2 = none ∧
      ∃ es u, (scanning 32 0xFFFFFFFE 0xFFFFFFFE 7).exec
          (({} : Scanner 32).scan 0xFFFFFFFE 0xFFFFFFFE 7).1 es = some u ∧
        (u.addresses 7).map BitVec.toNat = [0xFFFFFFFE, 0xFFFFFFFF] := by
  have hunused : ({} : Scanner 32).Unused 7 := ⟨rfl, rfl, rfl⟩
  obtain ⟨-, hscan, hrun⟩ := scan_covers 32 0xFFFFFFFE 0xFFFFFFFE 7
  obtain ⟨-, -, -, es, u, -, hes, -, hu⟩ := hrun _ (.init ⟨{}, hunused, rfl⟩)
  exact ⟨hscan _ hunused, es, u, hes, hu⟩

end Scanner

end IcmpScanner
