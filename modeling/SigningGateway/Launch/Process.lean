/-!
# Processes

The command that starts a process, and how a process ends.
-/

namespace SigningGateway

/-- A command with its arguments and the variables added to its environment. -/
structure Command where
  binary : String
  args : List String
  env : List (String × String)
  deriving DecidableEq

inductive ExitStatus
  | code (n : Nat)
  | signal (n : Nat)
  deriving DecidableEq, Repr

namespace ExitStatus

/-- The names of the signals, from signal 1 on. -/
def signalNames : List String :=
  ["SIGHUP", "SIGINT", "SIGQUIT", "SIGILL", "SIGTRAP", "SIGABRT", "SIGBUS", "SIGFPE", "SIGKILL",
    "SIGUSR1", "SIGSEGV", "SIGUSR2", "SIGPIPE", "SIGALRM", "SIGTERM", "SIGSTKFLT", "SIGCHLD",
    "SIGCONT", "SIGSTOP", "SIGTSTP", "SIGTTIN", "SIGTTOU", "SIGURG", "SIGXCPU", "SIGXFSZ",
    "SIGVTALRM", "SIGPROF", "SIGWINCH", "SIGIO", "SIGPWR", "SIGSYS"]

/-- The name of a signal in parentheses, if it has one. -/
def signalSuffix (n : Nat) : String :=
  match n with
  | 0 => ""
  | k + 1 =>
    match signalNames[k]? with
    | some name => " (" ++ name ++ ")"
    | none => ""

def describe : ExitStatus → String
  | code n => "exit status: " ++ toString n
  | signal n => "signal: " ++ toString n ++ signalSuffix n

end ExitStatus

end SigningGateway
