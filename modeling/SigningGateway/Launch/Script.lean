import SigningGateway.Launch.Process

/-!
# Shell scripts

The shell of a rehearsed command, where a start script takes the place of a node.  It knows what such
scripts are made of: words with quotes and variables, commands joined by `;`, `&&` and `||`, and output
sent to a file.  Of the commands those are known that end the script, wait, or print.
-/

namespace SigningGateway

namespace Script

/-! ## Words -/

/-- A script is a list of words and signs. -/
inductive Token
  | word (s : String)
  | sign (s : String)
  deriving DecidableEq, Repr

abbrev Variables := String → String

/-- Whether a character may stand in the name of a variable. -/
def isNameChar (c : Char) : Bool := c.isAlphanum || c = '_'

/-- The variables whose name is one sign. -/
def isSpecial (c : Char) : Bool := c.isDigit || c ∈ ['$', '#', '@', '*', '?']

/-- The value of the variable behind a dollar sign, and how many characters name it. -/
def expand (vars : Variables) : List Char → String × Nat
  | [] => ("$", 0)
  | c :: rest =>
    if c = '\x7b' then
      let name := rest.takeWhile (· ≠ '\x7d')
      (vars (String.ofList name), name.length + 2)
    else if isSpecial c then (vars (String.singleton c), 1)
    else
      let name := (c :: rest).takeWhile isNameChar
      if name.isEmpty then ("$", 0) else (vars (String.ofList name), name.length)

/-- Where in a word the reader is. -/
inductive Quoting
  | bare
  | single
  | double
  deriving DecidableEq

/-- Whether a backslash between double quotes takes the meaning of a character away. -/
def isEscapable (c : Char) : Bool := c ∈ ['"', '\\', '$', '\x60']

/-- The word that was being read, if there is one, before the tokens behind it. -/
def flush (word : Option String) (rest : List Token) : List Token :=
  match word with
  | some w => .word w :: rest
  | none => rest

/-- Adds text to the word that is being read. -/
def extend (word : Option String) (s : String) : Option String := some (word.getD "" ++ s)

def tokens (vars : Variables) (q : Quoting) (word : Option String) : List Char → List Token
  | [] => flush word []
  | '$' :: rest =>
    if q = .single then tokens vars q (extend word "$") rest
    else
      let (value, used) := expand vars rest
      tokens vars q (extend word value) (rest.drop used)
  | '\\' :: c :: rest =>
    match q with
    | .bare => tokens vars q (extend word (String.singleton c)) rest
    | .single => tokens vars q (extend word "\\") (c :: rest)
    | .double =>
      if isEscapable c then tokens vars q (extend word (String.singleton c)) rest
      else tokens vars q (extend word "\\") (c :: rest)
  | c :: rest =>
    match q with
    | .single =>
      if c = '\'' then tokens vars .bare word rest
      else tokens vars q (extend word (String.singleton c)) rest
    | .double =>
      if c = '"' then tokens vars .bare word rest
      else tokens vars q (extend word (String.singleton c)) rest
    | .bare =>
      if c = '\'' then tokens vars .single (extend word "") rest
      else if c = '"' then tokens vars .double (extend word "") rest
      else if c = ' ' || c = '\t' then flush word (tokens vars q none rest)
      else if c = ';' || c = '\n' then flush word (.sign ";" :: tokens vars q none rest)
      else if rest.head? = some c && c ∈ ['>', '&', '|'] then
        flush word (.sign (String.ofList [c, c]) :: tokens vars q none (rest.drop 1))
      else if c = '>' then flush word (.sign ">" :: tokens vars q none rest)
      else tokens vars q (extend word (String.singleton c)) rest
termination_by cs => cs.length
decreasing_by all_goals (simp only [List.length_cons, List.length_drop]; omega)

/-! ## Commands -/

/-- What a command does to its script. -/
inductive Effect
  /-- The script goes on. -/
  | goesOn (code : Nat) (output : String)
  | ends (status : ExitStatus)

/-- The number of a signal that is given by number or name. -/
def signalNumber (s : String) : Nat :=
  match s.toNat? with
  | some n => n
  | none => (ExitStatus.signalNames.findIdx? fun n => n = s || n = "SIG" ++ s).elim 15 (· + 1)

/-- The signal that a script sends to itself. -/
def sendSignal (n : Nat) : Effect := if n = 0 then .goesOn 0 "" else .ends (.signal n)

/-- The process that a script runs in, as a word. -/
def self : String := "$$"

/-- Runs a command, given the exit code of the one before. -/
def command (last : Nat) : List String → Effect
  | [] => .goesOn last ""
  | "exit" :: rest => .ends (.code (((rest.head?.bind String.toNat?).getD last) % 256))
  | ["kill", target] => if target = self then sendSignal 15 else .goesOn 1 ""
  | ["kill", "-s", name, target] =>
    if target = self then sendSignal (signalNumber name) else .goesOn 1 ""
  | ["kill", option, target] =>
    if target = self then sendSignal (signalNumber (option.drop 1).toString) else .goesOn 1 ""
  | "sleep" :: _ | "true" :: _ | ":" :: _ => .goesOn 0 ""
  | "false" :: _ => .goesOn 1 ""
  | "echo" :: "-n" :: rest => .goesOn 0 (" ".intercalate rest)
  | "echo" :: rest => .goesOn 0 (" ".intercalate rest ++ "\n")
  | "printf" :: "%s\\n" :: rest => .goesOn 0 (String.join (rest.map (· ++ "\n")))
  | "printf" :: "%s" :: rest => .goesOn 0 (String.join rest)
  | "printf" :: text :: _ => .goesOn 0 (text.replace "\\n" "\n")
  | _ => .goesOn 127 ""

/-! ## Running -/

/-- How a script ended and the files that it wrote. -/
structure Run where
  status : ExitStatus
  files : List (String × String)
  deriving DecidableEq

/-- Whether a token joins two commands. -/
def isJoint (t : Token) : Bool := t ∈ [.sign ";", .sign "&&", .sign "||"]

/-- Whether a token sends output to a file. -/
def isRedirection (t : Token) : Bool := t ∈ [.sign ">", .sign ">>"]

def Token.word? : Token → Option String
  | .word w => some w
  | .sign _ => none

/-- Writes the output of a command to its file, if it has one. -/
def redirect (files : List (String × String)) (output : String) :
    List Token → List (String × String)
  | .sign ">" :: .word path :: _ => (path, output) :: files.filter fun f => f.1 ≠ path
  | .sign ">>" :: .word path :: _ =>
    (path, (files.lookup path).getD "" ++ output) :: files.filter fun f => f.1 ≠ path
  | _ => files

/-- Runs the commands of a script, given the exit code of the last one. -/
def runFrom (last : Nat) (files : List (String × String)) : Nat → List Token → Run
  | 0, _ | _, [] => ⟨.code last, files⟩
  | fuel + 1, .sign ";" :: rest => runFrom last files fuel rest
  | fuel + 1, .sign "&&" :: rest =>
    runFrom last files fuel (if last = 0 then rest else rest.dropWhile (!isJoint ·))
  | fuel + 1, .sign "||" :: rest =>
    runFrom last files fuel (if last = 0 then rest.dropWhile (!isJoint ·) else rest)
  | fuel + 1, ts =>
    let now := ts.takeWhile (!isJoint ·)
    let words := (now.takeWhile (!isRedirection ·)).filterMap Token.word?
    let replaces := words.head? = some "exec" && words.length ≠ 1
    match command last (if replaces then words.drop 1 else words) with
    | .ends status => ⟨status, files⟩
    | .goesOn code output =>
      let files := redirect files output (now.dropWhile (!isRedirection ·))
      if replaces then ⟨.code code, files⟩
      else runFrom code files fuel (ts.dropWhile (!isJoint ·))

def run (vars : Variables) (script : String) : Run :=
  let ts := tokens vars .bare none script.toList
  runFrom 0 [] (ts.length + 1) ts

end Script

end SigningGateway
