/-!
# Routes

The paths of the gateway and the method that each of them answers to.
-/

namespace SigningGateway

/-- What a path stands for. -/
inductive Route
  | health
  | challenge
  | register
  | recover
  | schedule
  | locate
  | nodeSocket
  | signerSocket
  deriving DecidableEq, Repr

namespace Route

def all : List Route :=
  [health, challenge, register, recover, schedule, locate, nodeSocket, signerSocket]

def path : Route → String
  | health => "/health"
  | challenge => "/v1/scheduler/challenge"
  | register => "/v1/scheduler/register"
  | recover => "/v1/scheduler/recover"
  | schedule => "/v1/scheduler/schedule"
  | locate => "/v1/scheduler/node-info"
  | nodeSocket => "/v1/hsm/node"
  | signerSocket => "/v1/hsm/signer"

def method : Route → String
  | health | nodeSocket | signerSocket => "GET"
  | challenge | register | recover | schedule | locate => "POST"

/-- Whether a route answers to a method; what can be got can also be asked for without its body. -/
def takes (r : Route) (m : String) : Bool := m = r.method || (r.method = "GET" && m = "HEAD")

/-- The route of a request, or the status of the refusal. -/
def find (m p : String) : Except Nat Route :=
  match all.find? fun r => r.path = p with
  | none => .error 404
  | some r => if r.takes m then .ok r else .error 405

end Route

end SigningGateway
