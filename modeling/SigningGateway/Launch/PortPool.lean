import SigningGateway.NodeId
import SigningGateway.Table

/-!
# Ports for node processes

Every node process listens on a port of its own out of a range.  The pool hands the ports out in
turn: a counter walks through the range and starts over behind its end.  A lease lasts until it is
released.
-/

namespace SigningGateway

/-- The ports from `low` to `high`, and which of them are leased to which node. -/
structure PortPool where
  low : UInt16
  high : UInt16
  /-- The port to try next; it may lie outside the range. -/
  next : UInt16
  leases : Table UInt16 NodeId

namespace PortPool

def start (low high : UInt16) : PortPool := ⟨low, high, low, .empty⟩

def inRange (p : PortPool) (port : UInt16) : Bool := p.low ≤ port && port ≤ p.high

def span (p : PortPool) : Nat := (p.high - p.low).toNat + 1

/-- Takes the next port of the walk, free or not. -/
def walk (p : PortPool) : UInt16 × PortPool :=
  let port := if p.inRange p.next then p.next else p.low
  (port, { p with next := port + 1 })

/-- Leases the first free one among the next so many ports of the walk. -/
def leaseAmong : Nat → PortPool → NodeId → Option UInt16 × PortPool
  | 0, p, _ => (none, p)
  | tries + 1, p, node =>
    let (port, p) := p.walk
    if p.leases.contains port then leaseAmong tries p node
    else (some port, { p with leases := p.leases.set port node })

/-- Leases a free port, if there is one: as many ports are tried as there are. -/
def lease (p : PortPool) (node : NodeId) : Option UInt16 × PortPool := leaseAmong p.span p node

def release (p : PortPool) (port : UInt16) : PortPool := { p with leases := p.leases.erase port }

def inUse (p : PortPool) : Nat := p.leases.size

end PortPool

end SigningGateway
