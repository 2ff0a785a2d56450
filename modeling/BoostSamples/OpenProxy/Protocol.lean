import Mathlib.Data.BitVec
import BoostSamples.Framing.Delimiter
import BoostSamples.Registry.PairMap

/-!
# The control protocol of openproxy

The control frames are `Event` values in a Boost text archive, each followed by
the delimiter. The archive is known by what it is relied on for: loading the
fields in the order in which they were saved returns them, and its text has no
`@`, the first byte of the delimiter. `plainText` is one such archive.
-/

namespace OpenProxy

open Framing Registry

abbrev Uuid := BitVec 128

def nilUuid : Uuid := 0

abbrev Buff := List UInt8

/-- The delimiter of `Types.h`: `@`, a cyrillic letter in one byte and `hunk`. -/
def delimiter : Buff := [0x40, 0xf1, 0x68, 0x75, 0x6e, 0x6b]

theorem delimiter_ne_nil : delimiter ≠ [] := by decide

theorem delimiter_unbordered : Unbordered delimiter := by decide

inductive StreamType
  | upstream
  | downstream
  | unknown
  deriving DecidableEq, Repr

/-- The half of a pair that a session of the given type takes. -/
def StreamType.side : StreamType → Option Side
  | .downstream => some .down
  | .upstream => some .up
  | .unknown => none

structure Login where
  clientId : Uuid := nilUuid
  sessionId : Uuid := nilUuid
  type : StreamType := .unknown
  hasClientId : Bool := false
  hasSessionId : Bool := false
  hasType : Bool := false
  deriving DecidableEq, Repr

structure Greeting where
  ready : Bool := false
  hasReady : Bool := false
  deriving DecidableEq, Repr

structure Event where
  greeting : Greeting := {}
  login : Login := {}
  hasGreeting : Bool := false
  hasLogin : Bool := false
  deriving DecidableEq, Repr

inductive Field
  | uuid (id : Uuid)
  | stream (type : StreamType)
  | flag (value : Bool)
  deriving DecidableEq, Repr

namespace Field

inductive Kind
  | uuid
  | stream
  | flag
  deriving DecidableEq, Repr

def kind : Field → Kind
  | uuid _ => .uuid
  | stream _ => .stream
  | flag _ => .flag

end Field

structure TextArchive where
  save : List Field → Buff
  load : List Field.Kind → Buff → Option (List Field)
  load_save : ∀ fields, load (fields.map Field.kind) (save fields) = some fields
  at_not_mem : ∀ fields, 0x40 ∉ save fields

namespace Event

/-- `serialize` on saving: the login, the greeting and the two flags. -/
def fields (event : Event) : List Field :=
  [.uuid event.login.clientId, .uuid event.login.sessionId, .stream event.login.type,
    .flag event.login.hasClientId, .flag event.login.hasSessionId,
    .flag event.login.hasType, .flag event.greeting.ready, .flag event.greeting.hasReady,
    .flag event.hasLogin, .flag event.hasGreeting]

/-- What `serialize` asks for on loading. -/
def kinds : List Field.Kind := (fields {}).map Field.kind

/-- `serialize` on loading. -/
def ofFields : List Field → Option Event
  | [.uuid clientId, .uuid sessionId, .stream type, .flag hasClientId, .flag hasSessionId,
      .flag hasType, .flag ready, .flag hasReady, .flag hasLogin, .flag hasGreeting] =>
      some {
        greeting := ⟨ready, hasReady⟩
        login := ⟨clientId, sessionId, type, hasClientId, hasSessionId, hasType⟩
        hasGreeting := hasGreeting
        hasLogin := hasLogin }
  | _ => none

theorem kinds_eq (event : Event) : event.fields.map Field.kind = kinds := rfl

@[simp] theorem ofFields_fields (event : Event) : ofFields event.fields = some event := rfl

/-- `Client::Login`: the event with the login of a client. -/
def ofLogin (clientId sessionId : Uuid) (type : StreamType) : Event where
  login := ⟨clientId, sessionId, type, true, true, true⟩
  hasLogin := true

/-- `Client::SendReady`: the event with the greeting of a client. -/
def ofReady : Event where
  greeting := ⟨true, true⟩
  hasGreeting := true

end Event

namespace TextArchive

variable (A : TextArchive)

def text (event : Event) : Buff := A.save event.fields

/-- `SerializeToBuffer`: the text and the delimiter. -/
def serialize (event : Event) : Buff := frame delimiter (A.text event)

/-- `DeserializeFromBuffer`: the first `bytes` bytes without the delimiter are
loaded; `none` is an exception of the archive. -/
def deserialize (source : Buff) (bytes : Nat) : Option Event :=
  (A.load Event.kinds (source.take (bytes - delimiter.length))).bind Event.ofFields

/-- The text of an event is free of the delimiter. -/
theorem not_infix_text (event : Event) : ¬ delimiter <:+: A.text event := by
  intro h
  exact A.at_not_mem event.fields (h.subset (by simp [delimiter]))

theorem firstEnd_serialize (event : Event) (rest : Buff) :
    firstEnd delimiter (A.serialize event ++ rest) = some (A.serialize event).length := by
  have h := firstEnd_append delimiter_unbordered rest (A.not_infix_text event)
  simpa [serialize, frame] using h

theorem deserialize_serialize (event : Event) (rest : Buff) :
    A.deserialize (A.serialize event ++ rest) (A.serialize event).length = some event := by
  have htake : (A.serialize event ++ rest).take
      ((A.serialize event).length - delimiter.length) = A.text event := by
    simp [serialize, frame]
  rw [deserialize, htake, ← Event.kinds_eq event, text, A.load_save]
  rfl

theorem serialize_ne_nil (event : Event) : A.serialize event ≠ [] := by
  simp [serialize, frame, delimiter_ne_nil]

end TextArchive

def hexDigit (n : Nat) : UInt8 := if n < 10 then .ofNat (48 + n) else .ofNat (87 + n)

def hexValue (c : UInt8) : Nat := if c.toNat < 58 then c.toNat - 48 else c.toNat - 87

/-- The last `width` hexadecimal digits of a number. -/
def hexText : Nat → Nat → Buff
  | 0, _ => []
  | width + 1, n => hexText width (n / 16) ++ [hexDigit (n % 16)]

def ofHexText (text : Buff) : Nat := text.foldl (fun n c => 16 * n + hexValue c) 0

theorem hexValue_hexDigit {n : Nat} (h : n < 16) : hexValue (hexDigit n) = n := by
  revert n
  decide

@[simp] theorem length_hexText (width n : Nat) : (hexText width n).length = width := by
  induction width generalizing n with
  | zero => rfl
  | succ width ih => simp [hexText, ih]

theorem ofHexText_hexText (width n : Nat) : ofHexText (hexText width n) = n % 16 ^ width := by
  induction width generalizing n with
  | zero => simp [hexText, ofHexText, Nat.mod_one]
  | succ width ih =>
      have hdigit := hexValue_hexDigit (Nat.mod_lt n (by decide : 0 < 16))
      have hrec : ofHexText (hexText (width + 1) n) = 16 * (n / 16 % 16 ^ width) + n % 16 := by
        rw [← ih, hexText, ofHexText, List.foldl_append]
        simp [ofHexText, hdigit]
      rw [hrec, Nat.pow_succ', Nat.mod_mul]
      omega

theorem at_not_mem_hexText (width n : Nat) : 0x40 ∉ hexText width n := by
  induction width generalizing n with
  | zero => simp [hexText]
  | succ width ih =>
      have hdigit : ∀ k < 16, (0x40 : UInt8) ≠ hexDigit k := by decide
      simp [hexText, ih, hdigit _ (Nat.mod_lt n (by decide : 0 < 16))]

namespace Field

/-- The text of a primitive in `plainText`. -/
def text : Field → Buff
  | uuid id => hexText 32 id.toNat
  | stream .upstream => [48]
  | stream .downstream => [49]
  | stream .unknown => [50]
  | flag value => [if value then 49 else 48]

def Kind.width : Kind → Nat
  | .uuid => 32
  | .stream => 1
  | .flag => 1

def ofText : Kind → Buff → Option Field
  | .uuid, text => some (uuid (.ofNat 128 (ofHexText text)))
  | .stream, [48] => some (stream .upstream)
  | .stream, [49] => some (stream .downstream)
  | .stream, [50] => some (stream .unknown)
  | .flag, [48] => some (flag false)
  | .flag, [49] => some (flag true)
  | _, _ => none

@[simp] theorem length_text (field : Field) : field.text.length = field.kind.width := by
  rcases field with id | _ | _
  · exact length_hexText 32 id.toNat
  · next type => cases type <;> rfl
  · next value => cases value <;> rfl

theorem ofText_text (field : Field) : ofText field.kind field.text = some field := by
  rcases field with id | _ | _
  · have hid : (BitVec.ofNat 128 (ofHexText (hexText 32 id.toNat))) = id := by
      rw [ofHexText_hexText, Nat.mod_eq_of_lt (by simpa using id.isLt), BitVec.ofNat_toNat,
        BitVec.setWidth_eq]
    simp [ofText, kind, text, hid]
  · next type => cases type <;> rfl
  · next value => cases value <;> rfl

theorem at_not_mem_text (field : Field) : 0x40 ∉ field.text := by
  rcases field with id | _ | _
  · exact at_not_mem_hexText 32 id.toNat
  · next type => cases type <;> decide
  · next value => cases value <;> decide

end Field

def loadFields : List Field.Kind → Buff → Option (List Field)
  | [], [] => some []
  | kind :: kinds, 32 :: source =>
      (Field.ofText kind (source.take kind.width)).bind fun field =>
        (loadFields kinds (source.drop kind.width)).map (field :: ·)
  | _, _ => none

def saveFields (fields : List Field) : Buff := (fields.map fun field => 32 :: field.text).flatten

theorem loadFields_saveFields (fields : List Field) :
    loadFields (fields.map Field.kind) (saveFields fields) = some fields := by
  induction fields with
  | nil => rfl
  | cons field fields ih =>
      have hsave : saveFields (field :: fields) = 32 :: (field.text ++ saveFields fields) := by
        simp [saveFields]
      rw [hsave, List.map_cons, loadFields, ← Field.length_text, List.take_left,
        List.drop_left, Field.ofText_text, ih]
      rfl

/-- The signature at the start of a text archive, `22 serialization::archive`. -/
def signature : Buff :=
  [0x32, 0x32, 0x20, 0x73, 0x65, 0x72, 0x69, 0x61, 0x6c, 0x69, 0x7a, 0x61, 0x74, 0x69,
    0x6f, 0x6e, 0x3a, 0x3a, 0x61, 0x72, 0x63, 0x68, 0x69, 0x76, 0x65]

/-- A text archive: the signature and the primitives. -/
def plainText : TextArchive where
  save fields := signature ++ saveFields fields
  load kinds source :=
    if source.take signature.length = signature then
      loadFields kinds (source.drop signature.length)
    else none
  load_save fields := by
    rw [List.take_left, if_pos rfl, List.drop_left, loadFields_saveFields]
  at_not_mem fields := by
    have hsignature : (0x40 : UInt8) ∉ signature := by decide
    intro h
    rcases List.mem_append.1 h with h | h
    · exact hsignature h
    · obtain ⟨text, htext, hmem⟩ := List.mem_flatten.1 h
      obtain ⟨field, -, rfl⟩ := List.mem_map.1 htext
      rcases List.mem_cons.1 hmem with hblank | hmem
      · exact absurd hblank (by decide)
      · exact field.at_not_mem_text hmem

end OpenProxy
