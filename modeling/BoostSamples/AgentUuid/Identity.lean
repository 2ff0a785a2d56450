import BoostSamples.UuidSha1.Generate

/-!
# What identifies a machine

The uuid of an agent is made from a text: the serial number of the first fixed
drive, the machine guid and the address of the first Ethernet adapter, one
after the other. The drives come as texts that end in a null character each, in
a buffer that ends in one more; the address is printed with colons, which are
taken out again, and with the null character of `sprintf`.
-/

namespace AgentUuid

open UuidSha1

/-- `IP_ADAPTER_INFO`, as far as it is looked at. -/
structure Adapter where
  type : Nat
  addressLength : Nat
  address : Vector UInt8 8

/-- `MIB_IF_TYPE_ETHERNET`. -/
def ethernet : Nat := 6

/-- The test of the loop in `GetMac`. -/
def Adapter.Matches (a : Adapter) : Prop := a.type = ethernet ∧ a.addressLength = 6

instance (a : Adapter) : Decidable a.Matches := inferInstanceAs (Decidable (_ ∧ _))

def Adapter.id (a : Adapter) : Vector UInt8 6 :=
  ⟨(a.address.toList.take 6).toArray, by simp⟩

def findAddress (id : Vector UInt8 6) : List Adapter → Vector UInt8 6
  | [] => id
  | a :: next => if a.Matches then a.id else findAddress id next

/-- `sprintf` with the format of an address, into a string of 18 characters. -/
def printAddress (id : Vector UInt8 6) : List Char :=
  [':'].intercalate (id.toList.map fun b => (Nat.toDigits 16 b.toNat).leftpad 2 '0') ++ ['\x00']

/-- The address that is printed: zeros if there is none, or if
`GetAdaptersInfo` fails. -/
def address (adapters : Option (List Adapter)) : Vector UInt8 6 :=
  findAddress (Vector.replicate 6 0) (adapters.getD [])

/-- `GetMac`, given what `GetAdaptersInfo` has found. -/
def getMac (adapters : Option (List Adapter)) : List Char := printAddress (address adapters)

/-- `boost::algorithm::replace_all` of the colons by nothing. -/
def eraseColons (mac : List Char) : List Char := mac.filter fun c => c ≠ ':'

/-- The text that `Generate` is called with: the guid is the narrow one. -/
def hashedText (serial : BitVec 32) (guid : List Char) (adapters : Option (List Adapter)) :
    List Char :=
  Nat.toDigits 10 serial.toNat ++ guid ++ eraseColons (getMac adapters)

abbrev WChar := UInt16

def maxPath : Nat := 260

/-- A text in a buffer, up to its null character; `none` if the buffer ends
before. -/
def wideString (rest : List WChar) : Option (List WChar) :=
  if 0 ∈ rest then some (rest.takeWhile fun c => c ≠ 0) else none

section Drives

variable (driveType : List WChar → Nat) (type : Nat)

/-- The loop of `GetDrives`. Every round goes on behind a null character of the
buffer, so there are no more rounds than characters. -/
def drivesFrom (buf : List WChar) (len : Nat) :
    Nat → Nat → List (List WChar) → Option (List (List WChar))
  | 0, _, _ => none
  | rounds + 1, counter, out =>
      (wideString (buf.drop counter)).bind fun drive =>
        if drive = [] then some out
        else
          let out := if type = driveType drive then out ++ [drive] else out
          if counter + drive.length + 1 < len then
            drivesFrom buf len rounds (counter + drive.length + 1) out
          else some out

/-- `GetDrives`, given the length that `GetLogicalDriveStrings` has returned and
the buffer that it has filled; `none` if it reads behind the buffer. -/
def getDrives (len : Nat) (buf : Vector WChar maxPath) : Option (List (List WChar)) :=
  if len = 0 then some [] else drivesFrom driveType type buf.toList len maxPath 0 []

end Drives

/-- The texts of the drives one after the other, with their null characters. -/
def multiString (drives : List (List WChar)) : List WChar := drives.flatMap fun d => d ++ [0]

/-- What `GetLogicalDriveStrings` does with a buffer that the drives fit in: it
fills in their texts and one more null character, and returns the number of
characters before that. -/
structure Filled (drives : List (List WChar)) (len : Nat) (buf : Vector WChar maxPath) :
    Prop where
  text : ∀ d ∈ drives, d ≠ [] ∧ 0 ∉ d
  len_eq : len = (multiString drives).length
  isPrefix : multiString drives ++ [0] <+: buf.toList

theorem wideString_append {d : List WChar} (h : 0 ∉ d) (rest : List WChar) :
    wideString (d ++ 0 :: rest) = some d := by
  have hmem : (0 : WChar) ∈ d ++ 0 :: rest := by simp
  have htake : (d ++ 0 :: rest).takeWhile (fun c => decide (c ≠ 0)) = d := by
    rw [List.takeWhile_append_of_pos fun c hc =>
      decide_eq_true (p := c ≠ 0) fun heq => h (heq ▸ hc)]
    simp
  rw [wideString, if_pos hmem, htake]

section Drives

variable {driveType : List WChar → Nat} {type : Nat}

theorem drivesFrom_append {drives : List (List WChar)} (hne : drives ≠ [])
    (htext : ∀ d ∈ drives, d ≠ [] ∧ 0 ∉ d) (front rest : List WChar) {rounds : Nat}
    (hrounds : drives.length ≤ rounds) (out : List (List WChar)) :
    drivesFrom driveType type (front ++ multiString drives ++ 0 :: rest)
        (front ++ multiString drives).length rounds front.length out =
      some (out ++ drives.filter fun d => type = driveType d) := by
  induction drives generalizing front rounds out with
  | nil => exact absurd rfl hne
  | cons d drives ih =>
      obtain ⟨rounds, rfl⟩ := Nat.exists_eq_add_of_le' (Nat.le_trans (by simp) hrounds : 1 ≤ rounds)
      obtain ⟨hd, hzero⟩ := htext d List.mem_cons_self
      have hmulti : multiString (d :: drives) = d ++ 0 :: multiString drives := by
        simp [multiString]
      have hdrop : (front ++ multiString (d :: drives) ++ 0 :: rest).drop front.length =
          d ++ 0 :: (multiString drives ++ 0 :: rest) := by
        rw [List.append_assoc, List.drop_left, hmulti]
        simp
      have hout : (if type = driveType d then out ++ [d] else out) ++
          drives.filter (fun d => type = driveType d) =
            out ++ (d :: drives).filter fun d => type = driveType d := by
        by_cases htype : type = driveType d
        · simp [htype]
        · simp [htype]
      rw [drivesFrom, hdrop, wideString_append hzero, Option.bind_some, if_neg hd]
      dsimp only
      cases drives with
      | nil =>
          have hlen : (front ++ multiString [d]).length = front.length + d.length + 1 := by
            simp [multiString]
            omega
          rw [if_neg (by omega), ← hout, List.filter_nil, List.append_nil]
      | cons e drives =>
          have hfront : (front ++ (d ++ [0])).length = front.length + d.length + 1 := by
            simp
            omega
          have hassoc : front ++ multiString (d :: e :: drives) =
              front ++ (d ++ [0]) ++ multiString (e :: drives) := by
            rw [hmulti]
            simp
          have hlt : front.length + d.length + 1 <
              (front ++ multiString (d :: e :: drives)).length := by
            rw [hassoc, List.length_append, hfront]
            simp [multiString]
          rw [if_pos hlt, hassoc, ← hfront,
            ih (List.cons_ne_nil e drives) (fun x hx => htext x (List.mem_cons_of_mem d hx)) _
              (Nat.le_of_succ_le_succ hrounds), hout]

end Drives

theorem length_le_multiString (drives : List (List WChar)) :
    drives.length ≤ (multiString drives).length := by
  induction drives with
  | nil => exact Nat.zero_le _
  | cons d drives ih =>
      have hmulti : multiString (d :: drives) = d ++ 0 :: multiString drives := by
        simp [multiString]
      rw [hmulti, List.length_append, List.length_cons, List.length_cons]
      omega

/-- The drives of the type are found, in order, and nothing is read behind the
buffer. -/
theorem getDrives_filled {drives : List (List WChar)} {len : Nat} {buf : Vector WChar maxPath}
    (h : Filled drives len buf) (driveType : List WChar → Nat) (type : Nat) :
    getDrives driveType type len buf = some (drives.filter fun d => type = driveType d) := by
  obtain ⟨rest, hrest⟩ := h.isPrefix
  have hbuf : buf.toList = [] ++ multiString drives ++ 0 :: rest := by
    rw [← hrest]
    simp
  rw [getDrives]
  by_cases hne : drives = []
  · subst hne
    have hlen : len = 0 := h.len_eq
    rw [if_pos hlen]
    rfl
  · have hfits : (multiString drives).length ≤ maxPath := by
      have hlength := congrArg List.length hbuf
      rw [Vector.length_toList] at hlength
      simp at hlength
      omega
    have hpos : (multiString drives).length ≠ 0 := by
      have hdrives := List.length_pos_iff.2 hne
      have hle := length_le_multiString drives
      omega
    have hrounds := Nat.le_trans (length_le_multiString drives) hfits
    rw [h.len_eq, if_neg hpos, hbuf]
    exact drivesFrom_append hne h.text [] rest hrounds []

def twoDrives : List (List WChar) := [[65, 58, 92], [67, 58, 92]]

def twoDrivesBuffer : Vector WChar maxPath :=
  ⟨(multiString twoDrives ++ [0] ++ List.replicate 251 0).toArray, by
    rw [List.size_toArray, List.length_append, List.length_replicate]
    rfl⟩

theorem twoDrives_filtered :
    getDrives (fun d => if d = [67, 58, 92] then 3 else 2) 3 8 twoDrivesBuffer =
      some [[67, 58, 92]] :=
  have hfilled : Filled twoDrives 8 twoDrivesBuffer :=
    ⟨by decide, by decide, List.prefix_append _ _⟩
  getDrives_filled hfilled _ 3

theorem leftpad_eq_hexByte (b : UInt8) :
    (Nat.toDigits 16 b.toNat).leftpad 2 '0' = hexByte b :=
  Numeral.leftpad_toDigits (by decide) (by decide) b.toNat_lt

theorem digitChar_ne_colon {d : ℕ} (h : d < 16) : d.digitChar ≠ ':' := by
  revert d
  decide

theorem colon_notMem_hexByte (b : UInt8) : ':' ∉ hexByte b := by
  intro h
  obtain ⟨d, hd, hcolon⟩ := List.mem_map.1 h
  exact digitChar_ne_colon (Numeral.lt_of_mem_digits (by decide) hd) hcolon

theorem eraseColons_intercalate (texts : List (List Char)) (h : ∀ x ∈ texts, ':' ∉ x) :
    eraseColons ([':'].intercalate texts) = texts.flatten := by
  have hkeep : ∀ x ∈ texts, eraseColons x = x := fun x hx =>
    List.filter_eq_self.2 fun c hc => decide_eq_true fun heq => h x hx (heq ▸ hc)
  induction texts with
  | nil => rfl
  | cons x texts ih =>
      have ih := ih (fun y hy => h y (List.mem_cons_of_mem x hy))
        fun y hy => hkeep y (List.mem_cons_of_mem x hy)
      have hx := hkeep x List.mem_cons_self
      cases texts with
      | nil => simpa using hx
      | cons y texts =>
          have hcolon : eraseColons [':'] = [] := rfl
          rw [List.intercalate_cons_cons, eraseColons, List.filter_append, List.filter_append,
            ← eraseColons, ← eraseColons, ← eraseColons, hx, ih, hcolon,
            List.append_nil]
          rfl

theorem eraseColons_printAddress (id : Vector UInt8 6) :
    eraseColons (printAddress id) = id.toList.flatMap hexByte ++ ['\x00'] := by
  have hcolons := eraseColons_intercalate (id.toList.map hexByte) fun x hx => by
    obtain ⟨b, -, rfl⟩ := List.mem_map.1 hx
    exact colon_notMem_hexByte b
  rw [printAddress, eraseColons, List.filter_append, ← eraseColons]
  simp only [leftpad_eq_hexByte]
  rw [hcolons, List.flatMap_def]
  rfl

theorem length_flatMap_hexByte (l : List UInt8) :
    (l.flatMap hexByte).length = 2 * l.length := by
  induction l with
  | nil => rfl
  | cons b l ih =>
      have hb : (hexByte b).length = 2 := by simp [hexByte]
      rw [List.flatMap_cons, List.length_append, hb, ih, List.length_cons]
      omega

theorem flatMap_hexByte_injective : Function.Injective fun l : List UInt8 => l.flatMap hexByte := by
  intro l k h
  have hl := ofHex_flatMap_hexByte l
  have h : l.flatMap hexByte = k.flatMap hexByte := h
  rw [h, ofHex_flatMap_hexByte] at hl
  exact (Option.some.inj hl).symm

/-- The text determines what it is made from, for guids of one length. -/
theorem hashedText_injective {serial serial' : BitVec 32} {guid guid' : List Char}
    {adapters adapters' : Option (List Adapter)} (hlength : guid.length = guid'.length)
    (h : hashedText serial guid adapters = hashedText serial' guid' adapters') :
    serial = serial' ∧ guid = guid' ∧ address adapters = address adapters' := by
  have hmac (id : Vector UInt8 6) : (eraseColons (printAddress id)).length = 13 := by
    rw [eraseColons_printAddress, List.length_append, length_flatMap_hexByte, Vector.length_toList]
    rfl
  obtain ⟨hfront, hback⟩ := List.append_inj' h ((hmac _).trans (hmac _).symm)
  obtain ⟨hserial, hguid⟩ := List.append_inj' hfront hlength
  refine ⟨?_, hguid, ?_⟩
  · have hvalue := congrArg (fun text => Nat.ofDigitChars 10 text 0) hserial
    simp only [Nat.ofDigitChars_ten_toDigits] at hvalue
    exact BitVec.eq_of_toNat_eq hvalue
  · rw [getMac, getMac, eraseColons_printAddress, eraseColons_printAddress] at hback
    have hbytes := flatMap_hexByte_injective (List.append_cancel_right hback)
    exact Vector.toList_inj.1 hbytes

/-- An Ethernet adapter and another one. -/
def wired : Adapter := ⟨ethernet, 6, #v[0x00, 0x1b, 0x63, 0x84, 0x45, 0xe6, 0x00, 0x00]⟩

def wireless : Adapter := ⟨71, 6, #v[0x00, 0x1b, 0x63, 0x84, 0x45, 0xe7, 0x00, 0x00]⟩

/-- Only the first Ethernet adapter counts. -/
theorem hashedText_injective_wired :
    hashedText 5 ['a', 'b'] (some [wireless, wired]) =
        "5ab001b638445e6".toList ++ [Char.ofNat 0] ∧
      (5 : BitVec 32) = 5 ∧ ['a', 'b'] = ['a', 'b'] ∧
      address (some [wireless, wired]) = address (some [wired, wireless]) :=
  ⟨by decide, @hashedText_injective 5 5 ['a', 'b'] ['a', 'b'] (some [wireless, wired])
    (some [wired, wireless]) rfl (by decide)⟩

/-- A digit at the start of the guid may as well be one of the serial number. -/
example (guid : List Char) (adapters : Option (List Adapter)) :
    hashedText 1 ('2' :: guid) adapters = hashedText 12 guid adapters := rfl

end AgentUuid
