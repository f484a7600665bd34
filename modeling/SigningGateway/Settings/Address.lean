import SigningGateway.Hex

/-!
# Socket addresses

Addresses of the internet protocol with a port, as text: `127.0.0.1:80`, `[::1]:80`, `[fe80::1%2]:80`.
Of an address of the sixth version the longest run of zero groups is written as `::`, and a fourth
version address mapped into the sixth keeps its dots.
-/

namespace SigningGateway

/-- An address of the internet protocol: four bytes, or eight groups of two. -/
inductive IpAddress
  | v4 (a b c d : UInt8)
  | v6 (groups : { l : List UInt16 // l.length = 8 })
  deriving DecidableEq

/-- An address with a port; the scope tells networks of the sixth version apart. -/
structure SocketAddress where
  ip : IpAddress
  scope : UInt32
  port : UInt16
  deriving DecidableEq

namespace IpAddress

/-- The address that stands for all addresses of the machine. -/
def isUnspecified : IpAddress → Bool
  | v4 a b c d => a = 0 && b = 0 && c = 0 && d = 0
  | v6 groups => groups.val.all (· = 0)

def loopback : IpAddress := v4 127 0 0 1

/-! ## Writing -/

/-- A fourth version address with dots. -/
def dotted (a b c d : UInt8) : String :=
  ".".intercalate ([a, b, c, d].map fun x => toString x.toNat)

/-- A group in lower case hexadecimal digits without leading zeros. -/
def groupText (g : UInt16) : String := String.ofList (Nat.toDigits 16 g.toNat)

def groupsText (gs : List UInt16) : String := ":".intercalate (gs.map groupText)

/-- The number of zero groups in front. -/
def zeroRun (gs : List UInt16) : Nat := (gs.takeWhile (· = 0)).length

/-- The place and length of the longest run of zero groups, the first one of several. -/
def longestZeroRun : List UInt16 → Nat × Nat
  | [] => (0, 0)
  | g :: rest =>
    let here := zeroRun (g :: rest)
    let (place, length) := longestZeroRun rest
    if length ≤ here then (0, here) else (place + 1, length)

/-- Splits a group into its two bytes. -/
def bytesOf (g : UInt16) : UInt8 × UInt8 := ((g >>> 8).toUInt8, g.toUInt8)

def text : IpAddress → String
  | v4 a b c d => dotted a b c d
  | v6 ⟨gs, _⟩ =>
    match gs with
    | [0, 0, 0, 0, 0, 0xffff, g, h] =>
      let (a, b) := bytesOf g
      let (c, d) := bytesOf h
      "::ffff:" ++ dotted a b c d
    | _ =>
      let (place, length) := longestZeroRun gs
      if length ≤ 1 then groupsText gs
      else groupsText (gs.take place) ++ "::" ++ groupsText (gs.drop (place + length))

/-! ## Reading -/

/-- A number in decimal digits, below a bound. -/
def readDecimal (bound : Nat) (cs : List Char) : Option Nat :=
  if cs.isEmpty || !cs.all Char.isDigit then none
  else
    let n := Nat.ofDigitChars 10 cs 0
    if n < bound then some n else none

/-- A byte in decimal digits, without leading zeros. -/
def readByte (cs : List Char) : Option UInt8 :=
  if 1 < cs.length && cs.head? = some '0' then none
  else (readDecimal 256 cs).map UInt8.ofNat

/-- A group of one to four hexadecimal digits. -/
def readGroup (cs : List Char) : Option UInt16 :=
  if cs.isEmpty || 4 < cs.length then none
  else (cs.mapM fun c => Hex.value? c.toNat).map fun values =>
    UInt16.ofNat (values.foldl (fun n value => 16 * n + value) 0)

def split (sep : Char) : List Char → List (List Char)
  | [] => [[]]
  | c :: rest =>
    match split sep rest with
    | [] => []
    | part :: parts => if c = sep then [] :: part :: parts else (c :: part) :: parts

/-- The four bytes of an address with dots. -/
def readDotted (cs : List Char) : Option (UInt8 × UInt8 × UInt8 × UInt8) :=
  match split '.' cs with
  | [a, b, c, d] => do return (← readByte a, ← readByte b, ← readByte c, ← readByte d)
  | _ => none

/-- Joins two bytes into a group. -/
def groupOf (a b : UInt8) : UInt16 := a.toUInt16 <<< 8 ||| b.toUInt16

/-- Groups with colons, of which the last two may be written as a fourth version address. -/
def readParts (dots : Bool) : List (List Char) → Option (List UInt16)
  | [] => some []
  | [part] =>
    match readDotted part with
    | some (a, b, c, d) => if dots then some [groupOf a b, groupOf c d] else none
    | none => (readGroup part).map fun g => [g]
  | part :: parts => do return (← readGroup part) :: (← readParts dots parts)

/-- Groups with colons, or none. -/
def readGroups (dots : Bool) (cs : List Char) : Option (List UInt16) :=
  if cs.isEmpty then some [] else readParts dots (split ':' cs)

/-- Splits a text at the first two colons in a row. -/
def splitAtGap : List Char → Option (List Char × List Char)
  | ':' :: ':' :: rest => some ([], rest)
  | c :: rest => (splitAtGap rest).map fun s => (c :: s.1, s.2)
  | [] => none

/-- The eight groups of an address; a gap stands for one zero group or more. -/
def readV6 (cs : List Char) : Option IpAddress := do
  let groups ←
    match splitAtGap cs with
    | none => readGroups true cs
    | some (front, back) => do
      let front ← readGroups false front
      let back ← readGroups true back
      if 7 < front.length + back.length then none
      else some (front ++ List.replicate (8 - front.length - back.length) 0 ++ back)
  if h : groups.length = 8 then some (v6 ⟨groups, h⟩) else none

def readV4 (cs : List Char) : Option IpAddress :=
  (readDotted cs).map fun (a, b, c, d) => v4 a b c d

end IpAddress

namespace SocketAddress

/-- The scope behind an address, if it matters. -/
def scopeText (scope : UInt32) : String := if scope = 0 then "" else "%" ++ toString scope.toNat

def text (a : SocketAddress) : String :=
  let host :=
    match a.ip with
    | .v4 .. => a.ip.text
    | .v6 _ => "[" ++ a.ip.text ++ scopeText a.scope ++ "]"
  host ++ ":" ++ toString a.port.toNat

def readPort (cs : List Char) : Option UInt16 :=
  (IpAddress.readDecimal UInt16.size cs).map UInt16.ofNat

/-- A sixth version address with an optional scope. -/
def readScoped (cs : List Char) : Option (IpAddress × UInt32) :=
  match IpAddress.split '%' cs with
  | [ip] => do return (← IpAddress.readV6 ip, 0)
  | [ip, scope] => do
    let scope ← IpAddress.readDecimal UInt32.size scope
    return (← IpAddress.readV6 ip, UInt32.ofNat scope)
  | _ => none

def parse? (s : String) : Option SocketAddress :=
  match s.toList with
  | '[' :: rest =>
    match IpAddress.split ']' rest with
    | [host, ':' :: port] => do
      let (ip, scope) ← readScoped host
      return ⟨ip, scope, ← readPort port⟩
    | _ => none
  | cs =>
    match IpAddress.split ':' cs with
    | [host, port] => do return ⟨← IpAddress.readV4 host, 0, ← readPort port⟩
    | _ => none

/-- The URL at which processes of this machine reach a listener. -/
def localUrl (a : SocketAddress) : String :=
  let a := if a.ip.isUnspecified then { a with ip := .loopback, scope := 0 } else a
  "http://" ++ a.text

end SocketAddress

end SigningGateway
