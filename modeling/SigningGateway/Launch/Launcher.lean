import SigningGateway.Auth.Store
import SigningGateway.Launch.PortPool
import SigningGateway.Launch.Process

/-!
# The process launcher

The launcher starts one process for a node: it leases a port, has the store issue a credential for
the process, and runs the node binary with both in its environment.  The process is up once it
accepts connections on its port.  What the process does is told to the launcher from outside; each
launch is known by a number and holds its port until the launch fails, is given up, or its process
ends.
-/

namespace SigningGateway

structure LauncherSettings where
  /-- The node binary. -/
  binary : String := "lightningd"
  /-- Arguments passed on as they are. -/
  args : List String := []
  /-- The host that a process binds to and is reached at. -/
  host : String := "127.0.0.1"
  /-- Where a process reaches this gateway. -/
  gatewayUrl : String := "http://127.0.0.1:8080"
  portMin : UInt16 := 19000
  portMax : UInt16 := 19999
  /-- The time between two attempts to connect. -/
  probeInterval : Nat := 100
  deriving DecidableEq

/-- A process that was or is being started. -/
structure NodeProcess where
  node : NodeId
  port : UInt16
  /-- Whether it accepted a connection. -/
  up : Bool

structure Launcher where
  settings : LauncherSettings
  ports : PortPool
  processes : Table Nat NodeProcess
  nextProcess : Nat

namespace Launcher

def start (settings : LauncherSettings) : Launcher :=
  ⟨settings, .start settings.portMin settings.portMax, .empty, 1⟩

/-! ## Errors -/

/-- Every port of the range is leased. -/
def noFreePort : Error := .scheduling "no free node ports"

/-- The store refused a credential for the process. -/
def noCredential (cause : Error) : Error :=
  .scheduling ("cannot issue node credential: " ++ cause.message)

/-- The binary could not be started. -/
def notSpawned (binary reason : String) : Error :=
  .scheduling ("failed to spawn " ++ binary ++ ": " ++ reason)

/-- The process ended before it accepted a connection. -/
def endedEarly (status : ExitStatus) : Error :=
  .scheduling ("node exited during startup: " ++ status.describe)

/-! ## Launches -/

/-- The command of a process.  Its environment holds the node, the port, where the gateway is, and
the credential with which the process opens its stream. -/
def command (settings : LauncherSettings) (node : NodeId) (port : UInt16) (credential : Bundle) :
    Except Error Command := do
  let certificate ← Certificate.ofBytes credential.certificate
  return {
    binary := settings.binary
    args := settings.args
    env := [("KEYHOLE_NODE_ID", node.toHex), ("KEYHOLE_NODE_PORT", toString port.toNat),
      ("KEYHOLE_GATEWAY_URL", settings.gatewayUrl), ("KEYHOLE_NODE_CERT", certificate.toHeader),
      ("KEYHOLE_NODE_KEY", Hex.encode credential.key)] }

/-- Ends a launch or the process it started, and its lease. -/
def release (l : Launcher) (process : Nat) : Launcher :=
  match l.processes.get? process with
  | none => l
  | some p =>
    { l with ports := l.ports.release p.port, processes := l.processes.erase process }

/-- Enters a launch that holds a port. -/
def enter (l : Launcher) (node : NodeId) (port : UInt16) (ports : PortPool) : Nat × Launcher :=
  (l.nextProcess,
    { l with
      ports
      processes := l.processes.set l.nextProcess ⟨node, port, false⟩
      nextProcess := l.nextProcess + 1 })

/-- Begins a launch: leases a port and issues a credential.  A launch that goes on is to run the
command; one that is refused holds no port. -/
def begin (l : Launcher) (store : Store) (fault : Option WriteFault) (now : Moment)
    (node : NodeId) (e : Entropy) :
    (Except Error (Nat × Command) × Launcher × Store) × Entropy :=
  match l.ports.lease node with
  | (none, ports) => ((.error noFreePort, { l with ports }, store), e)
  | (some port, ports) =>
    let (process, l) := l.enter node port ports
    match store.issueNodeCredential fault now node e with
    | (.error cause, e) => ((.error (noCredential cause), l.release process, store), e)
    | (.ok (credential, store), e) =>
      match command l.settings node port credential with
      | .error cause => ((.error cause, l.release process, store), e)
      | .ok c => ((.ok (process, c), l, store), e)

/-- The binary of a launch could not be started. -/
def spawnFailed (l : Launcher) (process : Nat) (reason : String) : Error × Launcher :=
  (notSpawned l.settings.binary reason, l.release process)

/-- The process of a launch ended before it accepted a connection. -/
def exitedEarly (l : Launcher) (process : Nat) (status : ExitStatus) : Error × Launcher :=
  (endedEarly status, l.release process)

def endpoint (settings : LauncherSettings) (port : UInt16) : String :=
  "http://" ++ settings.host ++ ":" ++ toString port.toNat

/-- The process of a launch accepted a connection; the launch ends with where it is reached. -/
def accepted (l : Launcher) (process : Nat) : Option String × Launcher :=
  match l.processes.get? process with
  | none => (none, l)
  | some p =>
    (some (endpoint l.settings p.port),
      { l with processes := l.processes.set process { p with up := true } })

def portsInUse (l : Launcher) : Nat := l.ports.inUse

end Launcher

end SigningGateway
