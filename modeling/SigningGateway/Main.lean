import SigningGateway.Api.Gateway
import SigningGateway.Settings.Arguments
import SigningGateway.Settings.Report

/-!
# The start of the gateway

The program reads its settings, checks them, loads the issuer, opens the registrations, and reports
what it found.  It is the outer layer: everything that is decided is decided by the library.
-/

namespace SigningGateway

namespace Start

def usageLine (s : Settings.Setting) : String :=
  "  --" ++ s.name ++ (if s.isSwitch then "" else " <VALUE>") ++ "  [env: " ++ s.variableName ++ "]"

def usage : String :=
  "\n".intercalate ("Usage: gateway [OPTIONS]" :: "" :: "Options:" ::
    Settings.Setting.all.map usageLine)

/-- The reason of an error of the system, in its usual words. -/
def reasonOf : IO.Error → String
  | .noFileOrDirectory .. => Issuer.noSuchFile
  | e => toString e

def contentOf (path : String) : IO (Except String Bytes) := do
  try return .ok (← IO.FS.readBinFile path).toList
  catch e => return .error (reasonOf e)

/-- The issuer in the key file, or one with a random key. -/
def issuerOf (s : Settings) : IO (Except Error Issuer) := do
  match s.caKeyFile with
  | some path => return Issuer.ofFile path (← contentOf path)
  | none => return .ok (.mk (← IO.getRandomBytes 32).toList)

def diskOf (s : Settings) : IO Disk := do
  let disk := Disk.empty s.dataDir
  match ← contentOf disk.snapshotPath with
  | .ok content => return { disk with snapshot := .file content }
  | .error _ => return disk

/-- Loads what the gateway starts from and puts it together. -/
def gatewayOf (s : Settings) : IO (Except Error Gateway) := do
  match ← issuerOf s with
  | .error cause => return .error cause
  | .ok issuer =>
    let disk ← diskOf s
    return (Store.openDisk issuer disk).map fun store =>
      ⟨.start s.auth store Verifier.ed25519, .start s.scheduler, .start s.relay⟩

/-- Starts with the given settings, as far as they are fit for use. -/
def run (s : Settings) : IO UInt32 := do
  IO.println s.toJson.compact
  match s.validate with
  | .error fault =>
    IO.eprintln ("Configuration error: " ++ fault.message)
    return 1
  | .ok () =>
    match ← gatewayOf s with
    | .error cause =>
      IO.eprintln ("Error: " ++ cause.message)
      return 1
    | .ok gateway =>
      IO.println gateway.health.compact
      return 0

end Start

end SigningGateway

open SigningGateway

/-- Reads the arguments and the environment, and starts. -/
def main (args : List String) : IO UInt32 := do
  let env ← Settings.Setting.all.mapM fun s => do
    return (s.variableName, ← IO.getEnv s.variableName)
  match Settings.parse args fun name => (env.lookup name).join with
  | .ok s => Start.run s
  | .error .help =>
    IO.println Start.usage
    return 0
  | .error .usage =>
    IO.eprintln Start.usage
    return 2
