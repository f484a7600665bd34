import SigningGateway.Error
import SigningGateway.Json.Reader
import SigningGateway.Time.Moment
import SigningGateway.Uuid

/-!
# Decoding JSON

A decoder turns a value into a domain value or tells the first fault in the order of the text.
Records are read by `Record.read` from a list of fields: the members of an object in any order, or
the items of an array in the order of the fields.

    read fields v = .ok f → every field of `fields` that was given a value passes its check
-/

namespace SigningGateway

namespace Json

/-! ## Faults -/

/-- Why a text does not describe a value of the wanted type. -/
inductive DecodeError
  /-- The text is not JSON, or goes beyond what the reader takes. -/
  | malformed
  /-- The text is JSON of another shape. -/
  | unexpected
  | missingField (name : String)
  | duplicateField (name : String)
  /-- A word that is none of the choices. -/
  | unknownVariant (word : String) (choices : List String)
  /-- A string that is not hexadecimal. -/
  | hex (cause : Hex.Error)
  /-- A string that names no node. -/
  | nodeId (cause : NodeId.ParseError)
  deriving DecidableEq, Repr

/-- A name between backticks. -/
def quoted (name : String) : String := "`" ++ name ++ "`"

/-- The wording of a fault.  Faults of the text itself are not told apart. -/
def DecodeError.message : DecodeError → String
  | .malformed => "<json>"
  | .unexpected => "<json>"
  | .missingField name => "missing field " ++ quoted name
  | .duplicateField name => "duplicate field " ++ quoted name
  | .unknownVariant word choices =>
    "unknown variant " ++ quoted word ++ ", expected " ++
      String.intercalate " or " (choices.map quoted)
  | .hex cause => cause.message
  | .nodeId cause => "Bad request: " ++ cause.message

/-- A reader of values of a type. -/
abbrev Decoder (α : Type) := Json → Except DecodeError α

/-- The fault of a value of the wrong kind.  Scalars are read before they are refused. -/
def mismatch : Json → DecodeError
  | .broken => .malformed
  | .string none => .malformed
  | .number n => if n.fitsDouble then .unexpected else .malformed
  | _ => .unexpected

/-! ## Scalars -/

namespace Decode

/-- How many arrays and objects a value may nest that is kept whole. -/
def maxDepth : Nat := 127

/-- Any value that can be kept. -/
def any : Decoder Json := fun v =>
  if v.isStorable maxDepth then .ok v else .error .malformed

def text : Decoder String
  | .string (some s) => .ok s
  | v => .error (mismatch v)

def bool : Decoder Bool
  | .bool b => .ok b
  | v => .error (mismatch v)

/-- A natural number below a bound, written by digits alone. -/
def natBelow (bound : Nat) : Decoder Nat
  | .number n =>
    match n.toNat? with
    | some k => if k < bound then .ok k else .error (mismatch (.number n))
    | none => .error (mismatch (.number n))
  | v => .error (mismatch v)

def word64 : Decoder UInt64 := fun v => do
  let n ← natBelow UInt64.size v
  return UInt64.ofNat n

def word32 : Decoder UInt32 := fun v => do
  let n ← natBelow UInt32.size v
  return UInt32.ofNat n

def hexBytes : Decoder Bytes := fun v => do
  let s ← text v
  match Hex.decode s with
  | .ok bytes => .ok bytes
  | .error cause => .error (.hex cause)

def nodeId : Decoder NodeId := fun v => do
  let s ← text v
  match NodeId.parse s with
  | .ok n => .ok n
  | .error cause => .error (.nodeId cause)

def moment : Decoder Moment := fun v => do
  let s ← text v
  match Moment.parse? s with
  | some m => .ok m
  | none => .error .unexpected

def uuid : Decoder Uuid := fun v => do
  let s ← text v
  match Uuid.parse? s with
  | some u => .ok u
  | none => .error .unexpected

/-! ## Combinations -/

/-- A value that may be null. -/
def nullable {α : Type} (d : Decoder α) : Decoder (Option α)
  | .null => .ok none
  | v => (d v).map some

def list {α : Type} (d : Decoder α) : Decoder (List α)
  | .array items => items.mapM d
  | v => .error (mismatch v)

/-- The word of a list of choices. -/
def choice {α : Type} (choices : List (String × α)) (word : String) : Except DecodeError α :=
  match choices.find? (·.1 = word) with
  | some c => .ok c.2
  | none => .error (.unknownVariant word (choices.map (·.1)))

/-- A word of a list of choices, alone or as the only key of an object that holds null. -/
def oneOf {α : Type} (choices : List (String × α)) : Decoder α
  | .string (some word) => choice choices word
  | .object ((some word, v) :: rest) => do
    let a ← choice choices word
    match v, rest with
    | .null, [] => .ok a
    | .null, _ :: _ => .error .malformed
    | v, _ => .error (mismatch v)
  | _ => .error .malformed

/-- As `oneOf`, for a value that was kept before it is decoded: the object must have one key, and
may hold an empty object. -/
def keptOneOf {α : Type} (choices : List (String × α)) : Decoder α
  | .string (some word) => choice choices word
  | .object [(some word, v)] => do
    let a ← choice choices word
    match v with
    | .null | .object [] => .ok a
    | v => .error (mismatch v)
  | v => .error (mismatch v)

end Decode

/-! ## Records -/

/-- Whether a field must be given. -/
inductive Presence
  | required
  /-- An object may leave the field out. -/
  | optional
  /-- An object may leave the field out, and an array may end before it. -/
  | defaulted
  deriving DecidableEq, Repr

/-- A field of a record and the check its value must pass. -/
structure Field where
  name : String
  presence : Presence
  check : Json → Except DecodeError Unit

/-- A field that must be given. -/
def field {α : Type} (name : String) (d : Decoder α) : Field :=
  ⟨name, .required, fun v => (d v).map fun _ => ()⟩

/-- A field that an object may leave out. -/
def optionalField {α : Type} (name : String) (d : Decoder α) : Field :=
  ⟨name, .optional, fun v => (d v).map fun _ => ()⟩

/-- A field that may be left out everywhere. -/
def defaultedField {α : Type} (name : String) (d : Decoder α) : Field :=
  ⟨name, .defaulted, fun v => (d v).map fun _ => ()⟩

namespace Record

/-- The values of the fields that were given, by name; null for the others. -/
abbrev Values := String → Json

/-- The value of a field among those that were given. -/
def valueOf (given : List (String × Json)) : Values := fun name =>
  match given.find? (·.1 = name) with
  | some g => g.2
  | none => .null

/-- Takes the members that belong to fields.  Other members are passed over. -/
def takeMembers (fields : List Field) :
    List (Option String × Json) → List (String × Json) → Except DecodeError (List (String × Json))
  | [], given => .ok given
  | (none, _) :: _, _ => .error .malformed
  | (some key, v) :: rest, given =>
    match fields.find? (·.name = key) with
    | none => if v.isWhole then takeMembers fields rest given else .error .malformed
    | some f =>
      if given.any (·.1 = key) then .error (.duplicateField key)
      else do
        f.check v
        takeMembers fields rest (given ++ [(key, v)])

/-- Checks that every required field was given. -/
def checkGiven (fields : List Field) (given : List (String × Json)) : Except DecodeError Unit :=
  match fields.find? fun f => f.presence = .required && !given.any (·.1 = f.name) with
  | some f => .error (.missingField f.name)
  | none => .ok ()

/-- Takes the items of an array as the fields in their order. -/
def takeItems : List Field → List Json → Except DecodeError (List (String × Json))
  | [], [] => .ok []
  | [], _ :: _ => .error .malformed
  | f :: fields, [] =>
    if f.presence = .defaulted then takeItems fields [] else .error .unexpected
  | f :: fields, v :: rest => do
    f.check v
    let given ← takeItems fields rest
    return (f.name, v) :: given

def readMembers (fields : List Field) (members : List (Option String × Json)) :
    Except DecodeError Values := do
  let given ← takeMembers fields members []
  checkGiven fields given
  return valueOf given

/-- Reads a record: an object with the fields as members, or an array of their values. -/
def read (fields : List Field) : Json → Except DecodeError Values
  | .object members => readMembers fields members
  | .array items => do
    let given ← takeItems fields items
    return valueOf given
  | v => .error (mismatch v)

/-- How many arrays and objects a kept member may nest. -/
def keptDepth : Nat := 126

/-- Takes the members of `own`, and keeps all others for later. -/
def splitMembers (own : List Field) :
    List (Option String × Json) → List (String × Json) → List (Option String × Json) →
      Except DecodeError (List (String × Json) × List (Option String × Json))
  | [], given, kept => .ok (given, kept)
  | (none, _) :: _, _, _ => .error .malformed
  | (some key, v) :: rest, given, kept =>
    match own.find? (·.name = key) with
    | none =>
      if v.isStorable keptDepth then splitMembers own rest given (kept ++ [(some key, v)])
      else .error .malformed
    | some f =>
      if given.any (·.1 = key) then .error (.duplicateField key)
      else do
        f.check v
        splitMembers own rest (given ++ [(key, v)]) kept

/-- Reads an object that holds the fields of two records side by side.  The fields of `own` are
read in the order of the text, those of `inner` afterwards. -/
def readBeside (own inner : List Field) : Json → Except DecodeError (Values × Values)
  | .object members => do
    let (given, kept) ← splitMembers own members [] []
    checkGiven own given
    let innerValues ← readMembers inner kept
    return (valueOf given, innerValues)
  | v => .error (mismatch v)

/-- The member that tells the variant of a tagged record. -/
def tagName : String := "type"

/-- Reads a tagged record: the variant named by the member `type` or by the first item, and the other
members or items, which are kept until the whole text is read. -/
def readTagged {α : Type} (variants : List (String × α)) : Json → Except DecodeError (α × Json)
  | .object members => do
    let tag := field tagName fun v => do Decode.choice variants (← Decode.text v)
    let (given, kept) ← splitMembers [tag] members [] []
    checkGiven [tag] given
    let variant ← Decode.choice variants (← Decode.text (valueOf given tagName))
    return (variant, .object kept)
  | .array [] => .error (.missingField tagName)
  | .array (v :: rest) => do
    let variant ← Decode.choice variants (← Decode.text v)
    if allStorable keptDepth rest then return (variant, .array rest) else .error .malformed
  | v => .error (mismatch v)

end Record

/-! ## Whole texts -/

/-- Decodes a text that holds one value and nothing else. -/
def Document.decode {α : Type} (d : Decoder α) (doc : Document) : Except DecodeError α := do
  let a ← d doc.value
  if doc.endsThere then .ok a else .error .malformed

def decodeText {α : Type} (d : Decoder α) (text : String) : Except DecodeError α :=
  (Document.ofText text).decode d

def decodeBytes {α : Type} (d : Decoder α) (bytes : Bytes) : Except DecodeError α :=
  (Document.ofBytes bytes).decode d

end Json

def Error.ofDecode (cause : Json.DecodeError) : Error := .badRequest ("JSON error: " ++ cause.message)

end SigningGateway
