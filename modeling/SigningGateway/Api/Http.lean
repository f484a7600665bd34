import SigningGateway.Api.MediaType
import SigningGateway.Bytes
import SigningGateway.Json.Decode

/-!
# HTTP requests and replies

A request as far as the gateway looks at it, and the replies it gives.  A reply without a body is
one that the gateway gives before a call is understood.
-/

namespace SigningGateway

/-- A request.  The path is without the query; headers stand in the order of the request. -/
structure HttpRequest where
  method : String
  path : String
  headers : List (String × String)
  body : Bytes
  /-- Whether the connection can be turned into a WebSocket. -/
  upgradable : Bool

/-- A reply; its body is JSON if there is one. -/
structure HttpReply where
  status : Nat
  body : Option Json

namespace HttpReply

def ok (body : Json) : HttpReply := ⟨200, some body⟩

def refusal (e : Error) : HttpReply :=
  ⟨e.status, some (.ofFields [("error", .text e.kind), ("message", .text e.message)])⟩

def bare (status : Nat) : HttpReply := ⟨status, none⟩

end HttpReply

namespace HttpRequest

/-- The path in the target of a request: what comes before the query and the fragment. -/
def pathOf (target : String) : String :=
  String.ofList (target.toList.takeWhile fun c => c ≠ '?' && c ≠ '#')

/-! ## Headers -/

def lower (s : String) : String := String.ofList (s.toList.map Char.toLower)

/-- Whether a character may stand in a header value that is taken as text. -/
def isVisible (c : Char) : Bool := (' ' ≤ c && c ≤ '~') || c = '\t'

/-- The first value of a header. -/
def value? (r : HttpRequest) (name : String) : Option String :=
  (r.headers.find? fun h => lower h.1 = lower name).map (·.2)

/-- The first value of a header, if it is text. -/
def header? (r : HttpRequest) (name : String) : Option String :=
  match r.value? name with
  | some v => if v.toList.all isVisible then some v else none
  | none => none

/-- The value of a header that must be there. -/
def header (r : HttpRequest) (name : String) : Except Error String :=
  match r.header? name with
  | some v => .ok v
  | none => .error (.unauthenticated ("missing " ++ name ++ " header"))

/-! ## Bodies -/

/-- Whether the headers announce a JSON body. -/
def hasJsonBody (r : HttpRequest) : Bool :=
  match r.header? "content-type" with
  | some v => ((MediaType.parse? v).map MediaType.isJson).getD false
  | none => false

/-- The largest body in bytes. -/
def maxBody : Nat := 2097152

/-- Reads the body as a record, or gives the status of the refusal: no JSON is announced, the body
is too large, it is not JSON, or it is other JSON.  What follows the record is not looked at. -/
def decodeBody {α : Type} (r : HttpRequest) (d : Json.Decoder α) : Except Nat α :=
  if !r.hasJsonBody then .error 415
  else if maxBody < r.body.length then .error 413
  else
    match d (Json.Document.ofBytes r.body).value with
    | .ok a => .ok a
    | .error .malformed => .error 400
    | .error _ => .error 422

/-! ## Upgrades -/

/-- Whether a header has a value, in any case. -/
def headerIs (r : HttpRequest) (name value : String) : Bool :=
  match r.value? name with
  | some v => lower v = value
  | none => false

/-- Whether a word stands somewhere in the value of a header, in any case. -/
def headerMentions (r : HttpRequest) (name word : String) : Bool :=
  match r.value? name with
  | some v => (lower v).contains word
  | none => false

/-- Checks that a request asks for a WebSocket and may have one, or gives the status of the
refusal. -/
def checkUpgrade (r : HttpRequest) : Except Nat Unit :=
  if r.method ≠ "GET" then .error 405
  else if !r.headerMentions "connection" "upgrade" then .error 400
  else if !r.headerIs "upgrade" "websocket" then .error 400
  else if !r.headerIs "sec-websocket-version" "13" then .error 400
  else if (r.value? "sec-websocket-key").isNone then .error 400
  else if !r.upgradable then .error 426
  else .ok ()

end HttpRequest

end SigningGateway
