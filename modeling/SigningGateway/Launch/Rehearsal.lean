import SigningGateway.Launch.Launcher
import SigningGateway.Launch.Script

/-!
# Rehearsed commands

A launcher hands its command to the operating system, which is not part of this library.  Here stands
what takes its place where a launcher is tried out without processes: the shell and a few binaries
that do next to nothing are known, and anything else cannot be started, for the reason that the system
would give.  The gateway itself does not depend on this module.
-/

namespace SigningGateway

namespace Command

/-- Why a binary cannot be started. -/
inductive SpawnFault
  | notFound
  | notExecutable
  | notDirectory
  | nul
  deriving DecidableEq, Repr

def SpawnFault.message : SpawnFault → String
  | notFound => "No such file or directory (os error 2)"
  | notExecutable => "Permission denied (os error 13)"
  | notDirectory => "Not a directory (os error 20)"
  | nul => "nul byte found in provided data"

/-- The variables that a script sees: its arguments, and those of the environment. -/
def scriptVariables (c : Command) (args : List String) : Script.Variables := fun name =>
  if name = "0" then args.head?.getD c.binary
  else if name = "$" then Script.self
  else if name = "?" then "0"
  else if name = "#" then toString (args.length - 1)
  else if name = "@" || name = "*" then " ".intercalate (args.drop 1)
  else
    match name.toNat? with
    | some n => (args[n]?).getD ""
    | none => (c.env.lookup name).getD ""

def shell (c : Command) : Script.Run :=
  match c.args with
  | "-c" :: script :: args => Script.run (c.scriptVariables args) script
  | [] => ⟨.code 0, []⟩
  | _ => ⟨.code 2, []⟩

/-- The directories of the system that are looked at. -/
def directories : List String :=
  ["", "bin", "dev", "etc", "home", "lib", "proc", "root", "sbin", "sys", "tmp", "usr", "usr/bin",
    "usr/lib", "usr/sbin", "var"]

/-- The files of the system that are looked at and are no programs. -/
def plainFiles : List String := ["dev/null", "etc/group", "etc/hosts", "etc/passwd"]

def shells : List String := ["bin/sh", "bin/bash", "bin/dash"]

/-- The programs that end at once, with their exit codes. -/
def idlePrograms : List (String × Nat) :=
  [("bin/true", 0), ("bin/false", 1), ("bin/echo", 0), ("bin/cat", 0), ("bin/env", 0),
    ("bin/pwd", 0), ("bin/sleep", 0)]

def programs : List String := shells ++ idlePrograms.map (·.1)

/-- The path of the binary below the root; a bare name is looked for among the programs. -/
def path (c : Command) : String :=
  let parts := (c.binary.splitOn "/").filter fun p => p ≠ "" && p ≠ "."
  let parts := if c.binary.contains '/' then parts else "bin" :: parts
  let parts := if parts.take 2 = ["usr", "bin"] && parts.length = 3 then parts.drop 1 else parts
  "/".intercalate parts

/-- Runs a command, or tells why it cannot be started. -/
def rehearse (c : Command) : Except SpawnFault Script.Run :=
  let path := c.path
  let isBelow (file : String) : Bool := path.startsWith (file ++ "/")
  if (c.binary :: c.args).any (·.contains '\x00') then .error .nul
  else if c.binary = "" then .error .notFound
  else if c.binary.endsWith "/" && (programs ++ plainFiles).contains path then .error .notDirectory
  else if path ∈ shells then .ok c.shell
  else
    match idlePrograms.lookup path with
    | some code => .ok ⟨.code code, []⟩
    | none =>
      if path ∈ directories || path ∈ plainFiles then .error .notExecutable
      else if (programs ++ plainFiles).any isBelow then .error .notDirectory
      else .error .notFound

end Command

namespace Launcher

/-- Begins a launch of which the process is only rehearsed. -/
def rehearse (l : Launcher) (store : Store) (now : Moment) (node : NodeId) (e : Entropy) :
    (Except Error (Nat × Script.Run) × Launcher × Store) × Entropy :=
  match l.begin store none now node e with
  | ((.error cause, l, store), e) => ((.error cause, l, store), e)
  | ((.ok (process, command), l, store), e) =>
    match command.rehearse with
    | .ok run => ((.ok (process, run), l, store), e)
    | .error fault =>
      let (cause, l) := l.spawnFailed process fault.message
      ((.error cause, l, store), e)

end Launcher

end SigningGateway
