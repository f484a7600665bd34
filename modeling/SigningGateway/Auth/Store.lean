import SigningGateway.Auth.Disk
import SigningGateway.Auth.Issuer
import SigningGateway.Auth.Registration
import SigningGateway.Table

/-!
# The credential store

The store keeps the registration of every node and decides whether a presented certificate is
current.  With a data directory each change is written to the disk before it takes effect, so a
failed write changes nothing.
-/

namespace SigningGateway

/-- The registrations by node, with the issuer of their certificates. -/
structure Store where
  issuer : Issuer
  registrations : Table NodeId Registration
  /-- Where the registrations are kept, if they are. -/
  disk : Option Disk

/-- Who presented a valid certificate and a proof for it. -/
structure AuthenticatedNode where
  node : NodeId
  serial : String
  role : Role
  deriving DecidableEq

namespace Store

/-! ## Opening -/

/-- An empty store that keeps nothing. -/
def inMemory (issuer : Issuer) : Store := ⟨issuer, .empty, none⟩

/-- The registrations of a list by node; of two for one node the later counts. -/
def ofRegistrations (registrations : List Registration) : Table NodeId Registration :=
  registrations.foldl (fun t r => t.set r.node r) .empty

def openDisk (issuer : Issuer) (disk : Disk) : Except Error Store :=
  match disk.snapshot with
  | .missing => .ok ⟨issuer, .empty, some disk⟩
  | .directory => .error (.internal Disk.isDirectory)
  | .file content =>
    match Json.decodeBytes decodeSnapshot content with
    | .ok registrations => .ok ⟨issuer, ofRegistrations registrations, some disk⟩
    | .error cause =>
      .error (.config ("corrupt snapshot " ++ disk.snapshotPath ++ ": " ++ cause.message))

/-! ## Reading -/

def registration (s : Store) (node : NodeId) : Option Registration := s.registrations.get? node

def isRegistered (s : Store) (node : NodeId) : Bool := s.registrations.contains node

def registeredNodes (s : Store) : Nat := s.registrations.size

def issuedCertificates (s : Store) : Nat :=
  s.registrations.total Registration.certificateCount

/-- Checks a certificate and the proof of a request at the given time: the issuer signed the
certificate, its key signed the request, and it is current. -/
def authenticate (s : Store) (now : Moment) (c : Certificate) (method path : String)
    (proof : RequestProof) : Except Error AuthenticatedNode := do
  s.issuer.check c
  c.checkRequest method path proof now.seconds
  match s.registration c.body.node with
  | none =>
    throw (.unauthenticated ("node " ++ c.body.node.toHex ++ " is not registered"))
  | some r =>
    if r.holds c.body.role c.body.serial then
      return ⟨c.body.node, c.body.serial, c.body.role⟩
    else throw (.unauthenticated "certificate is not current for this node")

/-! ## Changing -/

/-- Puts what `change` makes of the registration of a node in its place.  With a data directory the
snapshot that holds it is written first; the changed registration stands last in it. -/
def commit (s : Store) (fault : Option WriteFault) (node : NodeId)
    (change : Option Registration → Except Error Registration) : Except Error Store := do
  let registrations := s.registrations.set node (← change (s.registration node))
  match s.disk with
  | none => return { s with registrations }
  | some disk =>
    match disk.replaceSnapshot fault (snapshotBytes registrations.values) with
    | .ok disk => return { s with registrations, disk := some disk }
    | .error reason => throw (.internal reason)

/-- Registers a node, or registers it anew: earlier device certificates are no longer current, the
one of the node process stays. -/
def recordRegistration (s : Store) (fault : Option WriteFault) (now : Moment) (node : NodeId)
    (metadata : Metadata) (c : Certificate) : Except Error Store :=
  s.commit fault node fun current =>
    .ok ⟨node, metadata, now, [.ofCertificate c], current.bind (·.nodeCertificate)⟩

def changeRegistered (node : NodeId) (change : Registration → Registration) :
    Option Registration → Except Error Registration
  | some r => .ok (change r)
  | none => .error (.unknownIdentity node)

/-- Adds a device certificate to a registered node. -/
def recordRecovery (s : Store) (fault : Option WriteFault) (node : NodeId) (c : Certificate) :
    Except Error Store :=
  s.commit fault node <| changeRegistered node fun r =>
    { r with certificates := r.certificates ++ [.ofCertificate c] }

/-- Makes a certificate the current one of the process of a registered node. -/
def recordNodeCertificate (s : Store) (fault : Option WriteFault) (node : NodeId)
    (c : Certificate) : Except Error Store :=
  s.commit fault node <| changeRegistered node fun r =>
    { r with nodeCertificate := some (.ofCertificate c) }

/-- Mints a credential for the process of a node; it is minted even if the node turns out not to be
registered. -/
def issueNodeCredential (s : Store) (fault : Option WriteFault) (now : Moment) (node : NodeId)
    (e : Entropy) : Except Error (Bundle × Store) × Entropy :=
  let ((c, bundle), e) := s.issuer.issue node .node "node" now e
  ((s.recordNodeCertificate fault node c).map fun s => (bundle, s), e)

end Store

end SigningGateway
