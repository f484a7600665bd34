import SigningGateway.Hex
import SigningGateway.Ed25519.Signature

/-!
# Node identities

A node is known by the 32 bytes of its Ed25519 public key, written as 64 hexadecimal digits.

    parse n.toHex = .ok n                                  (parse_toHex)
-/

namespace SigningGateway

/-- The 32 bytes that name a node. -/
structure NodeId where
  bytes : Bytes
  length_bytes : bytes.length = 32
  deriving DecidableEq

namespace NodeId

/-- Why a text or a byte string names no node. -/
inductive ParseError
  /-- The text is not hexadecimal. -/
  | hex (cause : Hex.Error)
  /-- There are this many bytes instead of 32. -/
  | wrongSize (size : Nat)
  deriving DecidableEq, Repr

def ParseError.message : ParseError → String
  | .hex cause => "Hex error: " ++ cause.message
  | .wrongSize size => "node id must be 32 bytes, got " ++ toString size

/-! ## Reading and writing -/

def ofBytes (bytes : Bytes) : Except ParseError NodeId :=
  if h : bytes.length = 32 then .ok ⟨bytes, h⟩ else .error (.wrongSize bytes.length)

def toHex (n : NodeId) : String := Hex.encode n.bytes

def parse (text : String) : Except ParseError NodeId :=
  match Hex.decode text with
  | .error cause => .error (.hex cause)
  | .ok bytes => ofBytes bytes

/-- The short form for logs: the first twelve digits. -/
def abbreviation (n : NodeId) : String :=
  "NodeId(" ++ Hex.encode (n.bytes.take 6) ++ "...)"

/-- The node whose key belongs to a seed. -/
def ofSeed (seed : Bytes) : NodeId :=
  ⟨Ed25519.publicKey seed, by simp [Ed25519.publicKey, Ed25519.Point.compress]⟩

def isPublicKey (n : NodeId) : Bool := Ed25519.isPublicKey n.bytes

/-! ## Order -/

/-- Byte strings in dictionary order. -/
def bytesBefore : Bytes → Bytes → Bool
  | _, [] => false
  | [], _ :: _ => true
  | a :: as, b :: bs => if a = b then bytesBefore as bs else a.toNat < b.toNat

/-- Nodes are ordered by their bytes. -/
def before (a b : NodeId) : Bool := bytesBefore a.bytes b.bytes

/-- Puts a node into a sorted list that does not hold it yet. -/
def insertSorted (n : NodeId) : List NodeId → List NodeId
  | [] => [n]
  | m :: rest =>
    if n = m then m :: rest
    else if n.before m then n :: m :: rest
    else m :: insertSorted n rest

/-- The nodes of a list in order, each once. -/
def sortUnique (ns : List NodeId) : List NodeId := ns.foldr insertSorted []

/-! ## Lemmas -/

theorem parse_toHex (n : NodeId) : parse n.toHex = .ok n := by
  simp [parse, toHex, Hex.decode_encode, ofBytes, n.length_bytes]

theorem mem_insertSorted (n m : NodeId) (ns : List NodeId) :
    m ∈ insertSorted n ns ↔ m = n ∨ m ∈ ns := by
  induction ns with
  | nil => simp [insertSorted]
  | cons x rest ih =>
    unfold insertSorted
    split
    · next h => subst h; simp
    · split
      · simp
      · simp [ih]; exact or_left_comm

theorem mem_sortUnique (m : NodeId) (ns : List NodeId) : m ∈ sortUnique ns ↔ m ∈ ns := by
  induction ns with
  | nil => simp [sortUnique]
  | cons x rest ih =>
    have h := mem_insertSorted x m (sortUnique rest)
    rw [ih] at h
    simpa [sortUnique] using h

end NodeId

end SigningGateway
