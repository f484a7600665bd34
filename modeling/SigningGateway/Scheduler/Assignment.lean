import SigningGateway.Json.Decode
import SigningGateway.Json.Writer

/-!
# Assignments

An assignment says where the process of a node can be reached.  The instance tells successive
processes of one node apart.
-/

namespace SigningGateway

/-- A running process of a node. -/
structure Assignment where
  node : NodeId
  /-- Where the process can be reached. -/
  endpoint : String
  /-- Which of the processes of the node it is. -/
  instanceId : Uuid
  startedAt : Moment
  deriving DecidableEq

namespace Assignment

def toJson (a : Assignment) : Json :=
  .ofFields [("node_id", .text a.node.toHex), ("endpoint", .text a.endpoint),
    ("instance_id", .text a.instanceId.format), ("started_at", .text a.startedAt.format)]

def fields : List Json.Field :=
  [Json.field "node_id" Json.Decode.nodeId, Json.field "endpoint" Json.Decode.text,
    Json.field "instance_id" Json.Decode.uuid, Json.field "started_at" Json.Decode.moment]

def decode : Json.Decoder Assignment := fun v => do
  let values ← Json.Record.read fields v
  let node ← Json.Decode.nodeId (values "node_id")
  let endpoint ← Json.Decode.text (values "endpoint")
  let instanceId ← Json.Decode.uuid (values "instance_id")
  let startedAt ← Json.Decode.moment (values "started_at")
  return { node, endpoint, instanceId, startedAt }

end Assignment

end SigningGateway
