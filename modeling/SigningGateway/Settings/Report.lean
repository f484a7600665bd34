import SigningGateway.Json.Writer
import SigningGateway.Settings.Basic

/-!
# Settings as they are reported

The settings that are in force, as a JSON object for the operator; lengths of time are texts that
hold milliseconds.
-/

namespace SigningGateway

def LauncherSettings.toJson (s : LauncherSettings) : Json :=
  .ofFields [("binary", .text s.binary), ("args", .array (s.args.map .text)), ("host", .text s.host),
    ("gateway_url", .text s.gatewayUrl), ("port_min", .nat s.portMin.toNat),
    ("port_max", .nat s.portMax.toNat),
    ("probe_interval_ms", .text (toString s.probeInterval))]

namespace Settings

/-- The lengths of time that follow from the settings, in milliseconds. -/
def times (s : Settings) : List (String × Nat) :=
  [("challenge_ttl_ms", s.auth.challengeTtl), ("replay_retention_ms", s.auth.replayRetention),
    ("spawn_timeout_ms", s.scheduler.spawnTimeout), ("max_wait_ms", s.scheduler.maxWait),
    ("request_timeout_ms", s.relay.requestTimeout),
    ("sweep_interval_ms", s.relay.sweepInterval)]

/-- What validation says. -/
def verdict (s : Settings) : Json :=
  match s.validate with
  | .ok _ => .text "ok"
  | .error fault => .ofFields [("error", .text fault.message)]

def toJson (s : Settings) : Json :=
  .ofFields ([("listen", .text s.listen.text), ("log_level", .text s.logLevel),
    ("dev_mode", .bool s.devMode), ("data_dir", .text s.dataDir),
    ("ca_key_file", .ofOption .text s.caKeyFile)] ++
    (s.times.map fun t => (t.1, .text (toString t.2))) ++
    [("launcher", s.launcher.toJson), ("validate", s.verdict)])

end Settings

end SigningGateway
