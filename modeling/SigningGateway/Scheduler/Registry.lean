import SigningGateway.Scheduler.Assignment
import SigningGateway.Table

/-!
# The registry of assignments

Which process runs for which node.  An assignment is cleared only on behalf of the instance that it
names, so the end of an old process does not hide a newer one.
-/

namespace SigningGateway

/-- The assignments by node. -/
structure Registry where
  table : Table NodeId Assignment

namespace Registry

def empty : Registry := ⟨.empty⟩

def get? (r : Registry) (node : NodeId) : Option Assignment := r.table.get? node

/-- Records an assignment in place of an earlier one of its node. -/
def record (r : Registry) (a : Assignment) : Registry := ⟨r.table.set a.node a⟩

/-- Whether the assignment of a node names an instance. -/
def names (r : Registry) (node : NodeId) (instanceId : Uuid) : Bool :=
  match r.get? node with
  | some a => a.instanceId = instanceId
  | none => false

/-- Clears the assignment of a node if it still names an instance, and tells whether it did. -/
def clear (r : Registry) (node : NodeId) (instanceId : Uuid) : Bool × Registry :=
  if r.names node instanceId then (true, ⟨r.table.erase node⟩) else (false, r)

def list (r : Registry) : List Assignment := r.table.values

def size (r : Registry) : Nat := r.table.size

/-! ## Lemmas -/

@[simp] theorem get?_empty (node : NodeId) : empty.get? node = none := rfl

theorem get?_record (r : Registry) (a : Assignment) (node : NodeId) :
    (r.record a).get? node = if node = a.node then some a else r.get? node :=
  Table.get?_set r.table a.node node a

theorem get?_clear (r : Registry) (node node' : NodeId) (instanceId : Uuid) :
    (r.clear node instanceId).2.get? node' =
      if r.names node instanceId = true ∧ node' = node then none else r.get? node' := by
  by_cases h : r.names node instanceId = true
  · simpa [clear, h, get?] using Table.get?_erase r.table node node'
  · simp [clear, h]

end Registry

end SigningGateway
