import SigningGateway.Settings.Basic
import SigningGateway.Text.Integer

/-!
# Arguments and variables

Settings are given as arguments, `--name value` or `--name=value`, each at most once, or as variables
of the environment, which count for what the arguments leave open.  The arguments are taken one
after the other, and the first one that is not understood ends the reading.
-/

namespace SigningGateway

namespace Settings

/-- Why there are no settings: help was asked for, or something was not understood. -/
inductive Refusal
  | help
  | usage
  deriving DecidableEq, Repr

/-! ## Values -/

/-- An integer of 64 bits without sign; a plus in front is let pass. -/
def readWord (s : String) : Option UInt64 :=
  let digits :=
    match s.toList with
    | '+' :: rest => rest
    | cs => cs
  if digits = [] then none
  else
    match Text.parseDigits (UInt64.size - 1) .tooLarge digits 0 with
    | .ok n => some (UInt64.ofNat n)
    | .error _ => none

def readPort (s : String) : Option UInt16 :=
  match Text.parseInt64 s.toList with
  | .ok n =>
    if 0 ≤ n.toInt && n.toInt < 65536 then some (UInt16.ofNat n.toInt.toNat) else none
  | .error _ => none

/-- A path, which is not empty. -/
def readPath (s : String) : Option String := if s = "" then none else some s

def readSwitch (s : String) : Option Bool :=
  if s = "true" then some true else if s = "false" then some false else none

/-! ## Options -/

/-- A setting that can be given, by its name. -/
structure Setting where
  name : String
  /-- Whether the argument stands alone and means `true`. -/
  isSwitch : Bool
  /-- Takes a value over into the settings, if it is one. -/
  put : Settings → String → Option Settings

namespace Setting

def ofValue {α : Type} (name : String) (read : String → Option α) (put : Settings → α → Settings) :
    Setting :=
  ⟨name, false, fun s text => (read text).map (put s)⟩

def ofSwitch (name : String) (put : Settings → Bool → Settings) : Setting :=
  ⟨name, true, fun s text => (readSwitch text).map (put s)⟩

/-- The name of the variable of a setting: upper case letters, and `_` for the dashes. -/
def variableName (s : Setting) : String :=
  String.ofList (s.name.toList.map fun c => if c = '-' then '_' else c.toUpper)

def all : List Setting :=
  [ofValue "listen" SocketAddress.parse? fun s v => { s with listen := v },
    ofValue "public-url" some fun s v => { s with publicUrl := some v },
    ofValue "log-level" some fun s v => { s with logLevel := v },
    ofSwitch "dev-mode" fun s v => { s with devMode := v },
    ofValue "data-dir" readPath fun s v => { s with dataDir := v },
    ofValue "ca-key-file" readPath fun s v => { s with caKeyFile := some v },
    ofValue "challenge-ttl-secs" readWord fun s v => { s with challengeTtlSecs := v },
    ofValue "node-info-max-wait-secs" readWord fun s v => { s with nodeInfoMaxWaitSecs := v },
    ofValue "spawn-timeout-secs" readWord fun s v => { s with spawnTimeoutSecs := v },
    ofValue "request-timeout-ms" readWord fun s v => { s with requestTimeoutMs := v },
    ofValue "sweep-interval-ms" readWord fun s v => { s with sweepIntervalMs := v },
    ofValue "node-binary" readPath fun s v => { s with nodeBinary := v },
    ofValue "node-args" some fun s v => { s with nodeArgs := v },
    ofValue "node-host" some fun s v => { s with nodeHost := v },
    ofValue "node-port-min" readPort fun s v => { s with nodePortMin := v },
    ofValue "node-port-max" readPort fun s v => { s with nodePortMax := v }]

def find? (name : String) : Option Setting := all.find? fun s => s.name = name

end Setting

/-! ## Arguments -/

/-- The settings read so far, and the names of those that were given. -/
structure Progress where
  settings : Settings
  given : List String

def Progress.give (p : Progress) (setting : Setting) (value : String) : Except Refusal Progress :=
  if setting.name ∈ p.given then .error .usage
  else
    match setting.put p.settings value with
    | some settings => .ok ⟨settings, setting.name :: p.given⟩
    | none => .error .usage

inductive Argument
  /-- Arguments behind this one are no settings. -/
  | stop
  | help
  /-- A setting, with the value behind the equals sign. -/
  | named (setting : Setting) (value : Option String)
  | other

def Argument.ofText (text : String) : Argument :=
  match text.toList with
  | ['-', '-'] => .stop
  | '-' :: '-' :: cs =>
    let name := String.ofList (cs.takeWhile (· ≠ '='))
    let value :=
      match cs.dropWhile (· ≠ '=') with
      | [] => none
      | _ :: value => some (String.ofList value)
    if name = "help" && value.isNone then .help
    else
      match Setting.find? name with
      | some setting => .named setting value
      | none => .other
  | '-' :: 'h' :: _ => .help
  | _ => .other

/-- Whether an argument can be the value of the one in front of it. -/
def canBeValue (text : String) : Bool := text = "-" || !text.startsWith "-"

def readArguments (p : Progress) : List String → Except Refusal Progress
  | [] => .ok p
  | arg :: rest =>
    match Argument.ofText arg with
    | .stop => if rest = [] then .ok p else .error .usage
    | .help => .error .help
    | .other => .error .usage
    | .named setting (some value) =>
      if setting.isSwitch then .error .usage
      else
        match p.give setting value with
        | .ok p => readArguments p rest
        | .error refusal => .error refusal
    | .named setting none =>
      if setting.isSwitch then
        match p.give setting "true" with
        | .ok p => readArguments p rest
        | .error refusal => .error refusal
      else
        match rest with
        | [] => .error .usage
        | value :: rest =>
          if canBeValue value then
            match p.give setting value with
            | .ok p => readArguments p rest
            | .error refusal => .error refusal
          else .error .usage

/-- Takes a setting that was not given from its variable, if there is one. -/
def readVariable (env : String → Option String) (p : Progress) (setting : Setting) :
    Except Refusal Progress :=
  if setting.name ∈ p.given then .ok p
  else
    match env setting.variableName with
    | some value => p.give setting value
    | none => .ok p

/-- Reads the settings from the arguments and the environment. -/
def parse (args : List String) (env : String → Option String) : Except Refusal Settings := do
  let p ← readArguments ⟨{}, []⟩ args
  return (← Setting.all.foldlM (readVariable env) p).settings

end Settings

end SigningGateway
