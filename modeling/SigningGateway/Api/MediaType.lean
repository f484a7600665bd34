/-!
# Media types

The value of a content type header: a type, a subtype with an optional suffix behind its last `+`,
and parameters.  `MediaType.isJson` tells the ones that announce a JSON body.
-/

namespace SigningGateway

/-- A media type without its parameters, in lower case. -/
structure MediaType where
  type : List Char
  subtype : List Char
  suffix : Option (List Char)
  deriving DecidableEq, Repr

namespace MediaType

/-- The characters of names. -/
def isToken (c : Char) : Bool :=
  c.isAlphanum || c ∈ ['!', '#', '$', '%', '&', '\x27', '*', '+', '-', '.', '^', '_', '\x60', '|', '~']

/-- The characters between quotes. -/
def isQuotable (c : Char) : Bool := 31 < c.toNat && c.toNat ≠ 127

/-! ## Parameters -/

/-- Passes over a value in quotes and the blanks behind it, up to the next parameter.  The first
character between the quotes may be anything quotable, a quote included. -/
def skipQuoted (cs : List Char) : Option (List Char) :=
  match cs with
  | [] => none
  | first :: rest =>
    let body := rest.takeWhile (· ≠ '"')
    if isQuotable first && body.all isQuotable then
      match rest.drop body.length with
      | [] => none
      | _ :: behind =>
        match behind.dropWhile (· = ' ') with
        | [] => some []
        | ';' :: next => some next
        | _ :: _ => none
    else none

/-- Passes over a value, up to the next parameter. -/
def skipValue (cs : List Char) : Option (List Char) :=
  match cs with
  | '"' :: rest => skipQuoted rest
  | _ =>
    let value := cs.takeWhile isToken
    match cs.drop value.length with
    | [] => some []
    | c :: next => if c = ';' && !value.isEmpty then some next else none

/-- Passes over one parameter. -/
def skipParameter (cs : List Char) : Option (List Char) :=
  let name := cs.takeWhile isToken
  match cs.drop name.length with
  | '=' :: value => if name.isEmpty then none else skipValue value
  | _ => none

/-- Whether at most so many parameters follow, and nothing else. -/
def areParameters : Nat → List Char → Bool
  | 0, cs => cs.isEmpty
  | fuel + 1, cs =>
    match cs.dropWhile (· = ' ') with
    | [] => true
    | rest =>
      match skipParameter rest with
      | some next => areParameters fuel next
      | none => false

/-! ## Types -/

/-- Splits a subtype at its last `+`; one in front does not count. -/
def splitSuffix (subtype : List Char) : List Char × Option (List Char) :=
  match subtype with
  | [] => ([], none)
  | first :: rest =>
    if '+' ∈ rest then
      let suffix := (rest.reverse.takeWhile (· ≠ '+')).reverse
      (first :: rest.take (rest.length - suffix.length - 1), some suffix)
    else (subtype, none)

def lower (cs : List Char) : List Char := cs.map Char.toLower

def parse? (text : String) : Option MediaType :=
  let cs := text.toList
  let type := cs.takeWhile isToken
  match cs.drop type.length with
  | '/' :: rest =>
    let subtype := rest.takeWhile isToken
    let behind := rest.drop subtype.length
    let complete :=
      match behind with
      | [] => true
      | ';' :: parameters => !subtype.isEmpty && areParameters parameters.length parameters
      | _ :: _ => false
    let (subtype, suffix) := splitSuffix subtype
    if !type.isEmpty && complete then some ⟨lower type, lower subtype, suffix.map lower⟩ else none
  | _ => none

def isJson (m : MediaType) : Bool :=
  m.type = "application".toList &&
    (m.subtype = "json".toList || m.suffix = some "json".toList)

end MediaType

end SigningGateway
