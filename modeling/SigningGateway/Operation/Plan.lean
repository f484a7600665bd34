import SigningGateway.Scheduler.Basic

/-!
# Planned launches

A launcher that starts no processes: each launch of a node goes as the next plan of that node says.
-/

namespace SigningGateway

/-- How a launch goes: after a delay the process is up or the launcher refuses. -/
structure LaunchPlan where
  delay : Nat
  /-- The endpoint of the process; without one it is named after the node and the launch. -/
  result : Except Error (Option String)

namespace LaunchPlan

/-- The plan of a launch for which there is none: the process is up at once. -/
def default : LaunchPlan := ⟨0, .ok none⟩

/-- The endpoint of a process for which the plan names none. -/
def endpointOf (node : NodeId) (launch : Nat) : String :=
  "http://node-" ++ String.ofList (node.toHex.toList.take 8) ++ "-" ++ toString launch

/-- What the launcher makes of a launch. -/
def outcome (p : LaunchPlan) (node : NodeId) (launch : Nat) : LaunchOutcome :=
  match p.result with
  | .ok endpoint => .up (endpoint.getD (endpointOf node launch))
  | .error cause => .refused cause

end LaunchPlan

/-- The plans of the launches to come, by node. -/
abbrev LaunchPlans := Table NodeId (List LaunchPlan)

def takePlan (plans : LaunchPlans) (node : NodeId) : LaunchPlan × LaunchPlans :=
  match plans.get? node with
  | some (p :: rest) => (p, plans.set node rest)
  | _ => (.default, plans)

end SigningGateway
