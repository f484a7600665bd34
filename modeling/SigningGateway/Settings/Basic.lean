import SigningGateway.Auth.Authenticator
import SigningGateway.Launch.Launcher
import SigningGateway.Relay.Basic
import SigningGateway.Scheduler.Basic
import SigningGateway.Settings.Address
import SigningGateway.Text.Blank

/-!
# Settings

What an operator can set, which settings are fit for use, and the settings of the parts of the
gateway that follow from them.

    s.validate = .ok () ↔ s.faults = []                    (validate_eq_ok_iff)
-/

namespace SigningGateway

structure Settings where
  /-- The address to listen on. -/
  listen : SocketAddress := ⟨.v4 0 0 0 0, 0, 8080⟩
  /-- Where processes reach the gateway, if not at the address it listens on. -/
  publicUrl : Option String := none
  logLevel : String := "info"
  /-- Whether the gateway may run without a key file. -/
  devMode : Bool := false
  /-- The directory of the registrations. -/
  dataDir : String := "./data"
  /-- The file with the seed of the issuer. -/
  caKeyFile : Option String := none
  challengeTtlSecs : UInt64 := 300
  nodeInfoMaxWaitSecs : UInt64 := 60
  spawnTimeoutSecs : UInt64 := 30
  requestTimeoutMs : UInt64 := 60000
  sweepIntervalMs : UInt64 := 1000
  nodeBinary : String := "lightningd"
  /-- The arguments of node processes, with commas. -/
  nodeArgs : String := ""
  nodeHost : String := "127.0.0.1"
  nodePortMin : UInt16 := 19000
  nodePortMax : UInt16 := 19999
  deriving DecidableEq

/-- Why settings are not fit for use. -/
inductive SettingsFault
  | noKeyFile
  | emptyPortRange
  /-- A length of time, by the name of its variable, is zero. -/
  | zero (name : String)
  deriving DecidableEq, Repr

def SettingsFault.message : SettingsFault → String
  | noKeyFile => "CA_KEY_FILE is required in production mode"
  | emptyPortRange => "NODE_PORT_MIN must be less than or equal to NODE_PORT_MAX"
  | zero name => name ++ " must be greater than zero"

namespace Settings

/-! ## Validation -/

/-- The lengths of time that must not be zero, by the names of their variables. -/
def durations (s : Settings) : List (String × UInt64) :=
  [("CHALLENGE_TTL_SECS", s.challengeTtlSecs), ("NODE_INFO_MAX_WAIT_SECS", s.nodeInfoMaxWaitSecs),
    ("SPAWN_TIMEOUT_SECS", s.spawnTimeoutSecs), ("REQUEST_TIMEOUT_MS", s.requestTimeoutMs),
    ("SWEEP_INTERVAL_MS", s.sweepIntervalMs)]

/-- All faults of the settings. -/
def faults (s : Settings) : List SettingsFault :=
  (if !s.devMode && s.caKeyFile.isNone then [.noKeyFile] else []) ++
    (if s.nodePortMax < s.nodePortMin then [.emptyPortRange] else []) ++
    (s.durations.filter fun d => d.2 = 0).map fun d => .zero d.1

/-- Accepts settings that are fit for use, or gives their first fault. -/
def validate (s : Settings) : Except SettingsFault Unit :=
  match s.faults with
  | [] => .ok ()
  | fault :: _ => .error fault

theorem validate_eq_ok_iff (s : Settings) : s.validate = .ok () ↔ s.faults = [] := by
  unfold validate
  split <;> simp_all

/-! ## Settings of the parts -/

/-- Seconds in milliseconds. -/
def millis (seconds : UInt64) : Nat := 1000 * seconds.toNat

def auth (s : Settings) : AuthSettings := { challengeTtl := millis s.challengeTtlSecs }

def scheduler (s : Settings) : SchedulerSettings :=
  { spawnTimeout := millis s.spawnTimeoutSecs, maxWait := millis s.nodeInfoMaxWaitSecs }

def relay (s : Settings) : RelaySettings :=
  { requestTimeout := s.requestTimeoutMs.toNat, sweepInterval := s.sweepIntervalMs.toNat }

/-- Text without the slashes at its end. -/
def withoutSlashes (url : String) : String :=
  String.ofList (url.toList.reverse.dropWhile (· = '/')).reverse

/-- The arguments between the commas, without blanks around them; empty ones are left out. -/
def splitArgs (args : String) : List String :=
  ((IpAddress.split ',' args.toList).map fun a => String.ofList (Text.trim a)).filter (· ≠ "")

def launcher (s : Settings) : LauncherSettings :=
  { binary := s.nodeBinary
    args := splitArgs s.nodeArgs
    host := s.nodeHost
    gatewayUrl := (s.publicUrl.map withoutSlashes).getD s.listen.localUrl
    portMin := s.nodePortMin
    portMax := s.nodePortMax }

end Settings

end SigningGateway
