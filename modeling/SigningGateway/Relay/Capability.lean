import SigningGateway.Error
import SigningGateway.Table

/-!
# Capabilities

A capability is a bit of a 64-bit word and stands for a class of signing operations.  Grants are
kept for each node and each database id of the node: the node itself has id zero and holds every
capability, and hands narrower sets to its other ids.
-/

namespace SigningGateway

/-- A set of capabilities; bits without a meaning are kept. -/
structure Capabilities where
  bits : UInt64
  deriving DecidableEq, Repr

namespace Capabilities

def ecdh : Capabilities := ⟨1⟩
def signGossip : Capabilities := ⟨2⟩
def signOnchainTx : Capabilities := ⟨4⟩
def commitmentPoint : Capabilities := ⟨8⟩
def signRemoteTx : Capabilities := ⟨16⟩
def signClosingTx : Capabilities := ⟨32⟩
def signWillFundOffer : Capabilities := ⟨64⟩

/-- The capability to hand out grants. -/
def master : Capabilities := ⟨1024⟩

def none : Capabilities := ⟨0⟩

def union (a b : Capabilities) : Capabilities := ⟨a.bits ||| b.bits⟩

/-- The capabilities with a meaning. -/
def all : Capabilities :=
  [ecdh, signGossip, signOnchainTx, commitmentPoint, signRemoteTx, signClosingTx,
    signWillFundOffer, master].foldl union none

/-- Whether every bit of `b` is set in `a`. -/
def contains (a b : Capabilities) : Bool := a.bits &&& b.bits = b.bits

end Capabilities

/-- The database id of a node itself. -/
def masterDbid : UInt64 := 0

/-- The granted capabilities by node and database id. -/
structure Grants where
  table : Table (NodeId × UInt64) Capabilities

namespace Grants

def empty : Grants := ⟨.empty⟩

def get? (g : Grants) (node : NodeId) (dbid : UInt64) : Option Capabilities :=
  g.table.get? (node, dbid)

/-- Gives a node itself every capability. -/
def openNode (g : Grants) (node : NodeId) : Grants := ⟨g.table.set (node, masterDbid) .all⟩

def masterOf (g : Grants) (node : NodeId) : Capabilities :=
  (g.get? node masterDbid).getD .none

/-- Whether a node may grant capabilities to one of its ids: not to itself, and only what it holds
other than the right to grant. -/
def mayGrant (g : Grants) (node : NodeId) (dbid : UInt64) (caps : Capabilities) : Bool :=
  dbid ≠ masterDbid && (g.masterOf node).contains .master && !caps.contains .master &&
    (g.masterOf node).contains caps

/-- Grants capabilities to an id of a node, in place of an earlier grant. -/
def grant (g : Grants) (node : NodeId) (dbid requested : UInt64) : Except Error Grants :=
  if g.mayGrant node dbid ⟨requested⟩ then .ok ⟨g.table.set (node, dbid) ⟨requested⟩⟩
  else .error (.capabilityViolation dbid requested (g.masterOf node).bits)

/-- Whether an id of a node was granted every requested capability. -/
def allows (g : Grants) (node : NodeId) (dbid requested : UInt64) : Bool :=
  match g.get? node dbid with
  | some granted => granted.contains ⟨requested⟩
  | none => false

def check (g : Grants) (node : NodeId) (dbid requested : UInt64) : Except Error Capabilities :=
  if g.allows node dbid requested then .ok ⟨requested⟩
  else .error (.capabilityViolation dbid requested ((g.get? node dbid).getD .none).bits)

def size (g : Grants) : Nat := g.table.size

end Grants

end SigningGateway
