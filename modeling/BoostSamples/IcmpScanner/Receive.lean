import BoostSamples.IcmpScanner.Header
import BoostSamples.IcmpScanner.Scan
import BoostSamples.Numeral.Digits

/-!
# The packets of the ICMP scanner

`EchoRequest` sends the text of a session id behind an ICMP header, and `HandleReceive`
takes whatever arrives on the raw socket apart: an IPv4 header with its options, an ICMP
header and a word of text. A read that fails leaves the headers zero, which is the type of
a reply, so what is accepted is decided by all three of them together:
`handleReceivePacket_iff` says which packets they are, and `handleReceivePacket_reply` that
the reply of a host to a request is one and restarts the timer of the session that sent it.
-/

namespace IcmpScanner

open Text Numeral

def space (c : UInt8) : Bool := c == 32 || (9 ≤ c && c ≤ 13)

/-- The texts of uuids: `to_string`, and `string_generator`, which throws on a text that is
none. -/
structure UuidText where
  toText : Uuid → Buff
  parse : Buff → Option Uuid
  parse_toText : ∀ id, parse (toText id) = some id
  parse_nil : parse [] = none
  length_toText : ∀ id, (toText id).length = 36
  not_space : ∀ id, ∀ c ∈ toText id, space c = false

/-- `ipv4_header`, with the fields that the scanner uses. -/
structure Ipv4Header where
  rep : Fin 60 → UInt8 := fun _ => 0

namespace Ipv4Header

def version (h : Ipv4Header) : UInt8 := (h.rep 0 >>> 4) &&& 0xF

def headerLength (h : Ipv4Header) : UInt16 := (h.rep 0 &&& 0xF).toUInt16 * 4

def sourceAddress (h : Ipv4Header) : Address :=
  .ofNat 32 (ofBytes [h.rep 12, h.rep 13, h.rep 14, h.rep 15])

/-- `operator>>`. -/
def extract (i : Input UInt8) : Ipv4Header × Input UInt8 :=
  let (cs, i) := i.read 20
  let h : Ipv4Header := ⟨load (fun _ => 0) 0 cs⟩
  let i := if h.version ≠ 4 then { i with fail := true } else i
  let optionsLength : ℤ := (h.headerLength.toNat : ℤ) - 20
  if optionsLength < 0 ∨ 40 < optionsLength then (h, { i with fail := true })
  else
    let (cs, i) := i.read optionsLength.toNat
    (⟨load h.rep 20 cs⟩, i)

end Ipv4Header

/-- How `HandleReceive` ends; all but the first two are exceptions that are only logged. -/
inductive Outcome
  /-- `HOST HAS BEEN FOUND: ` and the source address. -/
  | found (source : Address)
  | ignored
  | failed
  | invalidUuid
  /-- `Reply from ` the address ` body did not have a registered session id ` and the id. -/
  | unregistered (source : Address) (id : Uuid)
  deriving DecidableEq

namespace Scanner

variable {k : ℕ}

/-- `ICMPScanner::HandleReceive` with the packet that it receives, or an error. -/
def handleReceivePacket (T : UuidText) (icmpId : UInt16) (s : Scanner k) :
    Option Buff → Scanner k × Outcome
  | none => (s, .failed)
  | some packet =>
      let (ipv4Header, pingStream) := Ipv4Header.extract ⟨packet, false, false⟩
      let (icmpHeader, pingStream) := IcmpHeader.extract pingStream
      let (body, _) := pingStream.word space
      if icmpHeader.type = IcmpHeader.echoReply ∧ icmpHeader.identifier = icmpId then
        match T.parse body with
        | none => (s, .invalidUuid)
        | some sessionId =>
            if (s.sessions sessionId).isSome then
              (s.restart sessionId, .found ipv4Header.sourceAddress)
            else (s, .unregistered ipv4Header.sourceAddress sessionId)
      else (s, .ignored)

end Scanner

def echoRequestMessage (T : UuidText) (icmpId : UInt16) (id : Uuid) : Buff :=
  let echoRequest := (({} : IcmpHeader).setType IcmpHeader.echoRequest).setIdentifier icmpId
  (computeChecksum echoRequest (T.toText id)).bytes ++ T.toText id

/-- An `async_send_to` of `EchoRequest`. The buffer that it sends from is a local of
`EchoRequest`, which the handler does not hold: bytes that the socket takes after the
return are whatever the memory holds then. -/
structure Ping where
  takenInCall : Bool
  freed : Buff

def Ping.wire (p : Ping) (T : UuidText) (icmpId : UInt16) (id : Uuid) : Buff :=
  if p.takenInCall then echoRequestMessage T icmpId id else p.freed

/-- The bytes of an IPv4 header from an address: the version, a length of whole words that
the header has, and the address in its place. -/
structure IsIpv4Header (ip : Buff) (source : Address) : Prop where
  version : (ip.headD 0 >>> 4) &&& 0xF = 4
  length : ip.length = (ip.headD 0 &&& 0xF).toNat * 4
  twenty_le : 20 ≤ ip.length
  source : source = .ofNat 32 (ofBytes ((ip.drop 12).take 4))

/-- A packet with the reply to an echo request of a session: headers, and the text of the id
as the first word behind them. -/
structure IsReply (T : UuidText) (icmpId : UInt16) (packet : Buff) (source : Address)
    (id : Uuid) : Prop where
  parts : ∃ ip blank text rest, ∃ icmp : IcmpHeader,
    packet = ip ++ (icmp.bytes ++ (blank ++ (text ++ rest))) ∧ IsIpv4Header ip source ∧
      icmp.type = IcmpHeader.echoReply ∧ icmp.identifier = icmpId ∧
      (∀ c ∈ blank, space c = true) ∧ (∀ c ∈ text, space c = false) ∧ text ≠ [] ∧
      (∀ c ∈ rest.head?, space c = true) ∧ T.parse text = some id

section Load

variable {n : ℕ} {rep : Fin n → UInt8}

theorem load_of_getElem? {offset : ℕ} {cs : Buff} {i : Fin n} {c : UInt8}
    (hoffset : offset ≤ i) (h : cs[i - offset]? = some c) : load rep offset cs i = c := by
  rw [load, if_pos hoffset, h]
  rfl

theorem load_of_lt {offset : ℕ} (cs : Buff) {i : Fin n} (h : i < offset) :
    load rep offset cs i = rep i := by
  rw [load, if_neg (Nat.not_le.2 h)]

theorem load_of_length_le {cs : Buff} {i : Fin n} (h : cs.length ≤ i) :
    load rep 0 cs i = rep i := by
  rw [load, if_pos (Nat.zero_le _), List.getElem?_eq_none (by simpa using h)]
  rfl

/-- The first half of a header does not matter for the identifier. -/
theorem identifier_load (h : IcmpHeader) {cs : Buff} (hcs : cs.length = 4) :
    IcmpHeader.identifier ⟨load h.rep 0 cs⟩ = h.identifier := by
  have hfour : load h.rep 0 cs 4 = h.rep 4 := load_of_length_le (Nat.le_of_eq hcs)
  have hfive : load h.rep 0 cs 5 = h.rep 5 := load_of_length_le (hcs ▸ (by decide : 4 ≤ 5))
  simp only [IcmpHeader.identifier, decode, hfour, hfive]

theorem ofFn_load {cs : Buff} (h : cs.length = n) : List.ofFn (load rep 0 cs) = cs := by
  apply List.ext_getElem
  · rw [List.length_ofFn, h]
  · intro i hi hi'
    rw [List.getElem_ofFn]
    exact load_of_getElem? (Nat.zero_le _) (List.getElem?_eq_getElem hi')

end Load

section Extract

theorem IcmpHeader.extract_append (h : IcmpHeader) (rest : Buff) :
    IcmpHeader.extract ⟨h.bytes ++ rest, false, false⟩ = (h, ⟨rest, false, false⟩) := by
  have hread := Input.read_append h.bytes rest
  rw [h.length_bytes] at hread
  have hload : load (fun _ => 0) 0 h.bytes = h.rep := by
    apply List.ofFn_injective
    rw [ofFn_load h.length_bytes, IcmpHeader.bytes]
  rw [IcmpHeader.extract, hread]
  simp only [hload]

theorem IcmpHeader.good_extract {i : Input UInt8} (h : (IcmpHeader.extract i).2.good = true) :
    ∃ (icmp : IcmpHeader) (rest : Buff), i = ⟨icmp.bytes ++ rest, false, false⟩ := by
  obtain ⟨cs, rest, hlength, rfl, -⟩ := Input.good_read h
  refine ⟨⟨load (fun _ => 0) 0 cs⟩, rest, ?_⟩
  rw [IcmpHeader.bytes, ofFn_load hlength]

theorem rep_of_read {cs : Buff} (i : Fin 60) {c : UInt8}
    (hi : cs[(i : ℕ)]? = some c) : load (fun _ => 0) 0 cs i = c :=
  load_of_getElem? (Nat.zero_le _) hi

variable {ip : Buff} {source : Address}

/-- The array of a header that was read has the fields of its bytes. -/
theorem sourceAddress_load {front options : Buff} (hfront : front.length = 20)
    (h : IsIpv4Header (front ++ options) source) :
    Ipv4Header.sourceAddress ⟨load (load (fun _ => 0) 0 front) 20 options⟩ = source := by
  have hbyte (i : Fin 60) (hi : (i : ℕ) < 20) :
      load (load (fun _ => 0) 0 front) 20 options i = front[(i : ℕ)] := by
    rw [load_of_lt options hi]
    exact rep_of_read i (List.getElem?_eq_getElem (by omega))
  have hdrop : (front ++ options).drop 12 = front[12] :: front[13] :: front[14] :: front[15] ::
      (front.drop 16 ++ options) := by
    rw [List.drop_append_of_le_length (by omega), List.drop_eq_getElem_cons (by omega),
      List.drop_eq_getElem_cons (by omega), List.drop_eq_getElem_cons (by omega),
      List.drop_eq_getElem_cons (by omega)]
    rfl
  rw [h.source, hdrop, Ipv4Header.sourceAddress]
  simp only [hbyte 12 (by decide), hbyte 13 (by decide), hbyte 14 (by decide),
    hbyte 15 (by decide)]
  rfl

theorem head_fields {front options : Buff} (hfront : front.length = 20) :
    (front ++ options).headD 0 = load (n := 60) (fun _ => 0) 0 front 0 := by
  cases front with
  | nil => simp at hfront
  | cons b front => exact (rep_of_read 0 rfl).symm

theorem toNat_headerLength (h : Ipv4Header) :
    h.headerLength.toNat = (h.rep 0 &&& 0xF).toNat * 4 := by
  have hnibble : (h.rep 0 &&& 0xF).toNat ≤ 0xF := by
    rw [UInt8.toNat_and]
    exact Nat.and_le_right
  rw [Ipv4Header.headerLength, UInt16.toNat_mul, UInt8.toNat_toUInt16]
  exact Nat.mod_eq_of_lt (by omega : (h.rep 0 &&& 0xF).toNat * 4 < 2 ^ 16)

theorem toNat_headerLength_le (h : Ipv4Header) : h.headerLength.toNat ≤ 60 := by
  have hnibble : (h.rep 0 &&& 0xF).toNat ≤ 0xF := by
    rw [UInt8.toNat_and]
    exact Nat.and_le_right
  rw [toNat_headerLength]
  omega

theorem Ipv4Header.extract_append (h : IsIpv4Header ip source) (rest : Buff) :
    ∃ ipv4 : Ipv4Header, Ipv4Header.extract ⟨ip ++ rest, false, false⟩ =
      (ipv4, ⟨rest, false, false⟩) ∧ ipv4.sourceAddress = source := by
  obtain ⟨front, options, rfl, hfront⟩ : ∃ front options, ip = front ++ options ∧
      front.length = 20 := ⟨ip.take 20, ip.drop 20, (List.take_append_drop 20 ip).symm,
        List.length_take_of_le h.twenty_le⟩
  have hread := Input.read_append front (options ++ rest)
  have hversion := h.version
  have hlength := h.length
  rw [head_fields hfront] at hversion hlength
  rw [hfront] at hread
  rw [← toNat_headerLength ⟨load (fun _ => 0) 0 front⟩, List.length_append, hfront] at hlength
  have hoptions : ((Ipv4Header.headerLength ⟨load (fun _ => 0) 0 front⟩).toNat : ℤ) - 20 =
      options.length := by omega
  have hle := toNat_headerLength_le ⟨load (fun _ => 0) 0 front⟩
  refine ⟨⟨load (load (fun _ => 0) 0 front) 20 options⟩, ?_, sourceAddress_load hfront h⟩
  have hsmall : ¬ ((options.length : ℤ) < 0 ∨ 40 < (options.length : ℤ)) := by omega
  have hv : Ipv4Header.version ⟨load (fun _ => 0) 0 front⟩ = 4 := hversion
  rw [Ipv4Header.extract, List.append_assoc, hread]
  simp only [hoptions, if_neg hsmall, hv, ne_eq, not_true, if_false, Int.toNat_natCast,
    Input.read_append]

theorem Ipv4Header.good_extract {i : Input UInt8} (h : (Ipv4Header.extract i).2.good = true) :
    ∃ (ip rest : Buff) (source : Address),
      i = ⟨ip ++ rest, false, false⟩ ∧ IsIpv4Header ip source := by
  rw [Ipv4Header.extract] at h
  generalize hread : i.read 20 = r at h
  obtain ⟨front, i'⟩ := r
  simp only at h
  split at h
  · simp [Input.good] at h
  · next hoptions =>
      obtain ⟨options, rest, hlength, hstream, -⟩ := Input.good_read h
      split at hstream
      · simp at hstream
      · next hversion =>
          have hgood : (i.read 20).2.good = true := by rw [hread, hstream]; rfl
          obtain ⟨front', rest', hfront, rfl, hread'⟩ := Input.good_read hgood
          rw [hread', Prod.mk.injEq] at hread
          obtain ⟨rfl, rfl⟩ := hread
          rw [Input.mk.injEq] at hstream
          have hheader := toNat_headerLength ⟨load (fun _ => 0) 0 front'⟩
          refine ⟨front' ++ options, rest, _, ?_, ?_, ?_, ?_, rfl⟩
          · rw [hstream.1, List.append_assoc]
          · rw [head_fields hfront]
            exact not_not.1 hversion
          · rw [head_fields hfront, ← hheader, List.length_append, hfront]
            omega
          · rw [List.length_append, hfront]
            exact Nat.le_add_right _ _

end Extract

section Receive

variable {T : UuidText} {icmpId : UInt16} {packet ip : Buff} {source : Address} {id : Uuid}
  {k : ℕ}

theorem handleReceivePacket_of_isReply (h : IsReply T icmpId packet source id) (s : Scanner k) :
    s.handleReceivePacket T icmpId (some packet) =
      if (s.sessions id).isSome then (s.restart id, .found source)
      else (s, .unregistered source id) := by
  obtain ⟨ip, blank, text, rest, icmp, rfl, hip, htype, hid, hblank, htext, hne, hrest, hparse⟩ :=
    h.parts
  obtain ⟨ipv4, hextract, rfl⟩ := Ipv4Header.extract_append hip
    (icmp.bytes ++ (blank ++ (text ++ rest)))
  have hword := Input.word_between hblank htext hne hrest
  rw [Scanner.handleReceivePacket, hextract]
  simp only [IcmpHeader.extract_append, htype, hid, and_self, if_true, hword, hparse]

theorem isReply_of_parse {i i' : Input UInt8} {ipv4 : Ipv4Header} {icmp : IcmpHeader}
    (hipv4 : Ipv4Header.extract ⟨packet, false, false⟩ = (ipv4, i))
    (hicmp : IcmpHeader.extract i = (icmp, i')) (htype : icmp.type = IcmpHeader.echoReply)
    (hid : icmp.identifier = icmpId) (hparse : T.parse (i'.word space).1 = some id) :
    IsReply T icmpId packet ipv4.sourceAddress id := by
  have hne : (i'.word space).1 ≠ [] := by
    intro hnil
    rw [hnil, T.parse_nil] at hparse
    cases hparse
  obtain ⟨blank, rest, hi', hblank, htext, hrest⟩ := Input.exists_between hne
  have hgood' : (IcmpHeader.extract i).2.good = true := by rw [hicmp, hi']; rfl
  obtain ⟨icmp', rest', rfl⟩ := IcmpHeader.good_extract hgood'
  rw [IcmpHeader.extract_append, Prod.mk.injEq] at hicmp
  obtain ⟨rfl, rfl⟩ := hicmp
  have hgood : (Ipv4Header.extract ⟨packet, false, false⟩).2.good = true := by rw [hipv4]; rfl
  obtain ⟨ip, rest'', source, hpacket, hip⟩ := Ipv4Header.good_extract hgood
  obtain ⟨ipv4', hextract, hsource⟩ := Ipv4Header.extract_append hip rest''
  rw [hpacket, hextract, Prod.mk.injEq] at hipv4
  obtain ⟨rfl, hrest''⟩ := hipv4
  rw [Input.mk.injEq] at hpacket hrest'' hi'
  rw [hsource]
  refine ⟨ip, blank, _, rest, icmp', ?_, hip, htype, hid, hblank, htext, hne, hrest, hparse⟩
  rw [hpacket.1, hrest''.1]
  exact congrArg (fun x => ip ++ (icmp'.bytes ++ x)) hi'.1

/-- The packets that restart a timer are the replies with the id of a registered session,
and every other packet leaves the scanner as it is. -/
theorem handleReceivePacket_iff (T : UuidText) (icmpId : UInt16) (packet : Buff) (s : Scanner k) :
    (∀ source, (s.handleReceivePacket T icmpId (some packet)).2 = .found source ↔
      ∃ id, IsReply T icmpId packet source id ∧ (s.sessions id).isSome) ∧
    (∀ source id, IsReply T icmpId packet source id →
      (s.handleReceivePacket T icmpId (some packet)).1 = s.handleReceive id) ∧
    ((∀ source id, ¬ IsReply T icmpId packet source id) →
      (s.handleReceivePacket T icmpId (some packet)).1 = s) := by
  have hreply (source : Address) (id : Uuid) (h : IsReply T icmpId packet source id) :
      (s.handleReceivePacket T icmpId (some packet)).1 = s.handleReceive id := by
    rw [handleReceivePacket_of_isReply h, Scanner.handleReceive]
    split <;> rfl
  have hcases : (∃ source id, IsReply T icmpId packet source id) ∨
      (s.handleReceivePacket T icmpId (some packet)).1 = s ∧
        ∀ source, (s.handleReceivePacket T icmpId (some packet)).2 ≠ .found source := by
    rw [Scanner.handleReceivePacket]
    simp only
    split
    · next htype =>
        split
        · exact .inr ⟨rfl, by simp⟩
        · next id hparse =>
            exact .inl ⟨_, id, isReply_of_parse rfl rfl htype.1 htype.2 hparse⟩
    · exact .inr ⟨rfl, by simp⟩
  refine ⟨fun source => ⟨fun hfound => ?_, ?_⟩, hreply, fun hnone => ?_⟩
  · rcases hcases with ⟨source', id, h⟩ | ⟨-, hnot⟩
    · rw [handleReceivePacket_of_isReply h] at hfound
      split at hfound
      · next hregistered =>
          rw [Outcome.found.injEq] at hfound
          exact ⟨id, hfound ▸ h, hregistered⟩
      · cases hfound
    · exact absurd hfound (hnot source)
  · rintro ⟨id, h, hregistered⟩
    rw [handleReceivePacket_of_isReply h, if_pos hregistered]
  · rcases hcases with ⟨source', id, h⟩ | ⟨hsame, -⟩
    · exact absurd h (hnone source' id)
    · exact hsame

/-- The reply of a host: the type, the code and the checksum are its own, and everything
behind them is taken from the request. -/
def answer (code c d : UInt8) (request : Buff) : Buff :=
  IcmpHeader.echoReply :: code :: c :: d :: request.drop 4

theorem answer_eq (code c d : UInt8) (h : IcmpHeader) (body : Buff) :
    answer code c d (h.bytes ++ body) =
      IcmpHeader.bytes ⟨load h.rep 0 [IcmpHeader.echoReply, code, c, d]⟩ ++ body := by
  rw [answer, IcmpHeader.bytes_eq, IcmpHeader.bytes_eq]
  rfl

theorem isReply_answer (hip : IsIpv4Header ip source) (code c d : UInt8) (id : Uuid) :
    IsReply T icmpId (ip ++ answer code c d (echoRequestMessage T icmpId id)) source id := by
  rw [echoRequestMessage, answer_eq]
  have hne : T.toText id ≠ [] := by
    intro hnil
    have hlength := T.length_toText id
    rw [hnil] at hlength
    cases hlength
  generalize hrequest : computeChecksum _ (T.toText id) = request
  have hid : request.identifier = icmpId := by
    obtain ⟨x, hx⟩ : ∃ x, request = ((({} : IcmpHeader).setType
        IcmpHeader.echoRequest).setIdentifier icmpId).setChecksum x := ⟨_, hrequest.symm⟩
    rw [hx, IcmpHeader.identifier_setChecksum, IcmpHeader.identifier_setIdentifier]
  refine ⟨ip, [], T.toText id, [],
    ⟨load request.rep 0 [IcmpHeader.echoReply, code, c, d]⟩, ?_, hip, rfl,
    (identifier_load _ rfl).trans hid, by simp, T.not_space id, hne, by simp, T.parse_toText id⟩
  rw [List.append_nil, List.nil_append]

/-- A request whose bytes have been taken when `EchoRequest` returns verifies, and whatever
host replies to it, behind an IPv4 header with or without options, is found and restarts the
timer of the session that the request was sent for, and nothing else. -/
theorem handleReceivePacket_answer (T : UuidText) (icmpId : UInt16) (id : Uuid) {p : Ping}
    (hp : p.takenInCall = true) :
    Verifies (p.wire T icmpId id) ∧
      ∀ (ip : Buff) (source : Address) (code c d : UInt8) (s : Scanner k),
        IsIpv4Header ip source → (s.sessions id).isSome →
        s.handleReceivePacket T icmpId (some (ip ++ answer code c d (p.wire T icmpId id))) =
          (s.restart id, .found source) := by
  rw [Ping.wire, if_pos hp]
  constructor
  · have hlength : (T.toText id).length ≤ maxBody := by
      rw [T.length_toText, maxBody]
      decide
    exact (verifies_computeChecksum _ hlength).1
  · intro ip source code c d s hip hregistered
    rw [handleReceivePacket_of_isReply (isReply_answer hip code c d id), if_pos hregistered]

end Receive

section PlainText

def hexDigit (x : ℕ) : UInt8 := .ofNat (if x < 10 then 48 + x else 87 + x)

def hexValue (c : UInt8) : ℕ := if c < 87 then c.toNat - 48 else c.toNat - 87

theorem hexDigit_facts : ∀ x < 16, hexValue (hexDigit x) = x ∧ (hexDigit x != 45) = true ∧
    space (hexDigit x) = false := by decide

def group (ds : Buff) : Buff :=
  ds.take 8 ++ 45 :: ((ds.drop 8).take 4 ++ 45 :: ((ds.drop 12).take 4 ++
    45 :: ((ds.drop 16).take 4 ++ 45 :: ds.drop 20)))

theorem mem_group {ds : Buff} {c : UInt8} (h : c ∈ group ds) : c ∈ ds ∨ c = 45 := by
  simp only [group, List.mem_append, List.mem_cons] at h
  rcases h with h | h | h | h | h | h | h | h | h
  · exact .inl (List.mem_of_mem_take h)
  · exact .inr h
  · exact .inl (List.mem_of_mem_drop (List.mem_of_mem_take h))
  · exact .inr h
  · exact .inl (List.mem_of_mem_drop (List.mem_of_mem_take h))
  · exact .inr h
  · exact .inl (List.mem_of_mem_drop (List.mem_of_mem_take h))
  · exact .inr h
  · exact .inl (List.mem_of_mem_drop h)

theorem filter_group {ds : Buff} (h : ∀ c ∈ ds, (c != 45) = true) :
    (group ds).filter (· != 45) = ds := by
  have htake (i j : ℕ) : ((ds.drop i).take j).filter (· != 45) = (ds.drop i).take j :=
    List.filter_eq_self.2 fun c hc => h c (List.mem_of_mem_drop (List.mem_of_mem_take hc))
  have hdrop : (ds.drop 20).filter (· != 45) = ds.drop 20 :=
    List.filter_eq_self.2 fun c hc => h c (List.mem_of_mem_drop hc)
  have hfirst : (ds.take 8).filter (· != 45) = ds.take 8 :=
    List.filter_eq_self.2 fun c hc => h c (List.mem_of_mem_take hc)
  have hdash (l : Buff) : (45 :: l : Buff).filter (· != 45) = l.filter (· != 45) := rfl
  have hrest (i j : ℕ) : (ds.drop i).take j ++ ds.drop (i + j) = ds.drop i := by
    rw [← List.drop_drop, List.take_append_drop]
  rw [group]
  simp only [List.filter_append, hdash, htake, hdrop, hfirst]
  rw [hrest 16 4, hrest 12 4, hrest 8 4, List.take_append_drop]

theorem digit_of_mem {id : Uuid} {c : UInt8} (h : c ∈ (digits 16 32 id.toNat).map hexDigit) :
    ∃ x < 16, hexDigit x = c := by
  obtain ⟨x, hx, rfl⟩ := List.mem_map.1 h
  exact ⟨x, lt_of_mem_digits (by decide) hx, rfl⟩

def plainText : UuidText where
  toText id := group ((digits 16 32 id.toNat).map hexDigit)
  parse text :=
    let ds := text.filter (· != 45)
    if ds.length = 32 then some (.ofNat 128 (value 16 (ds.map hexValue))) else none
  parse_toText id := by
    have hfilter : ∀ c ∈ (digits 16 32 id.toNat).map hexDigit, (c != 45) = true := by
      intro c hc
      obtain ⟨x, hx, rfl⟩ := digit_of_mem hc
      exact (hexDigit_facts x hx).2.1
    have hvalues : ((digits 16 32 id.toNat).map hexDigit).map hexValue = digits 16 32 id.toNat := by
      rw [List.map_map]
      refine (List.map_congr_left fun x hx => ?_).trans (List.map_id _)
      exact (hexDigit_facts x (lt_of_mem_digits (by decide) hx)).1
    have hlt : id.toNat < 16 ^ 32 := id.isLt
    simp only [filter_group hfilter, List.length_map, length_digits, if_true, hvalues,
      value_digits, Nat.mod_eq_of_lt hlt, BitVec.ofNat_toNat, BitVec.setWidth_eq]
  parse_nil := rfl
  length_toText id := by
    simp [group]
  not_space id := by
    intro c hc
    rcases mem_group hc with hc | rfl
    · obtain ⟨x, hx, rfl⟩ := digit_of_mem hc
      exact (hexDigit_facts x hx).2.2
    · rfl

def sampleHeader : Buff := [69, 0, 0, 72, 0, 0, 0, 0, 64, 1, 0, 0, 192, 168, 0, 1, 192, 168, 0, 2]

theorem isIpv4Header_sampleHeader : IsIpv4Header sampleHeader 0xC0A80001 :=
  ⟨rfl, rfl, Nat.le_refl 20, rfl⟩

theorem handleReceivePacket_iff_sample :
    ((({} : Scanner 32).restart 7).handleReceivePacket plainText 4660
      (some (sampleHeader ++ answer 0 0 0 (echoRequestMessage plainText 4660 7)))).2 =
        .found 0xC0A80001 := by
  obtain ⟨hfound, -, -⟩ := handleReceivePacket_iff plainText 4660
    (sampleHeader ++ answer 0 0 0 (echoRequestMessage plainText 4660 7))
    (({} : Scanner 32).restart 7)
  exact (hfound _).2 ⟨7, isReply_answer isIpv4Header_sampleHeader 0 0 0 7,
    Scanner.restart_sessions_self _ 7⟩

theorem handleReceivePacket_answer_sample :
    (({} : Scanner 32).restart 7).handleReceivePacket plainText 4660
        (some (sampleHeader ++ answer 0 0 0 (Ping.wire ⟨true, []⟩ plainText 4660 7))) =
      ((({} : Scanner 32).restart 7).restart 7, .found 0xC0A80001) := by
  obtain ⟨-, hfound⟩ := handleReceivePacket_answer (k := 32) plainText 4660 7
    (show (Ping.mk true []).takenInCall = true from rfl)
  exact hfound _ _ 0 0 0 _ isIpv4Header_sampleHeader (Scanner.restart_sessions_self _ 7)

end PlainText

end IcmpScanner
