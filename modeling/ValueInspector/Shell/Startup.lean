import ValueInspector.Shell.Evaluation
import ValueInspector.Shell.Utility.Basic

/-! # Starting a shell

How a shell takes its words, what it knows at first, and where it reads its commands from.
-/
namespace ValueInspector.Shell

/-- How a shell is started. -/
structure Startup where
  options : List Char
  /-- The first operand is the text to run. -/
  fromText : Bool
  operands : List Bytes
deriving Repr

namespace Startup

/-- Option letters in one word; `o` takes names from the words after it. -/
def letters (on : Bool) : Bytes → Startup → Except Bytes Startup
  | [], s => .ok s
  | c :: rest, s =>
    let set (c : Char) : Startup :=
      let others := s.options.filter (· ≠ c)
      { s with options := if on then c :: others else others }
    if c = 'c' then letters on rest { s with fromText := true }
    else if c = 'l' then letters on rest s
    else if c = 'o' then
      match s.operands with
      | [] => letters on rest s
      | name :: operands =>
        match Builtin.optionNames.find? fun o => o.1.toList = name with
        | some o => letters on rest { set o.2 with operands }
        | none => .error (bytes "Illegal option -o " ++ name)
    else if Builtin.optionNames.any (·.2 = c) && c ≠ 'L' && c ≠ 'D' then letters on rest (set c)
    else .error (bytes "Illegal option -" ++ [c])

/-- Takes the options in front of the operands. -/
def read : Nat → Startup → Except Bytes Startup
  | 0, s => .ok s
  | n + 1, s =>
    match s.operands with
    | ['-'] :: rest | ['-', '-'] :: rest => .ok { s with operands := rest }
    | (sign :: cs) :: rest =>
      if sign ≠ '-' && sign ≠ '+' then .ok s
      else do read n (← letters (sign = '-') cs { s with operands := rest })
    | _ => .ok s

def ofWords (words : List Bytes) : Except Bytes Startup :=
  read (words.length + 1) ⟨[], false, words⟩

end Startup

/-- The variables of a new shell. -/
def startVariables (i : Invocation) (parent : Nat) : List (Bytes × Variable) :=
  let kept := (i.environment.filter fun v => Bytes.isName v.1).map fun v =>
    (v.1, (⟨some v.2, true, false⟩ : Variable))
  let own : List (Bytes × Bytes) :=
    [(bytes "IFS", [' ', '\t', '\n']), (bytes "OPTIND", ['1']), (bytes "PS1", bytes "# "),
     (bytes "PS2", bytes "> "), (bytes "PS4", bytes "+ "), (bytes "PPID", Bytes.ofNat parent)]
  let all := own.foldl (fun vs v => Table.set v.1 ⟨some v.2, false, false⟩ vs) kept.reverse
  Table.set (bytes "PWD") ⟨some i.directory, true, false⟩ all

def startState (i : Invocation) (name : Bytes) (pid parent : Nat) : ShellState :=
  { name, positional := [], bindings := startVariables i parent, functions := [], aliases := []
    options := [], status := 0, saved := none, substituted := 0, traps := [], caught := []
    scopes := [], loops := 0, depth := 0, line := 0, command := none, directory := i.directory
    processId := pid, lastJob := none, jobs := [], located := [], documents := [], nextDocument := 0
    optionPlace := .start }

open Sh in
/-- Runs what a shell is started for. -/
def startShell (g : Evaluator) (s : Startup) : Sh Unit := do
  modify ({ · with options := s.options })
  if s.fromText then
    match s.operands with
    | [] => fail (bytes "-c requires an argument")
    | text :: rest =>
      match rest with
      | name :: parameters => modify ({ · with name, positional := parameters })
      | [] => pure ()
      runText g false text
  else
    match (if 's' ∈ s.options then none else s.operands.head?) with
    | some file =>
      match ← system (.openFile (← path file) .read) with
      | .error f => fail (openFault false file f)
      | .ok fd =>
        let data ← task (readAll fd repeats [])
        system (.close fd)
        modify ({ · with name := file, positional := s.operands.drop 1 })
        match data with
        | .ok text => runText g false text
        | .error _ => pure ()
    | none =>
      modify ({ · with options := if 's' ∈ s.options then s.options else 's' :: s.options
                       positional := s.operands })
      match ← task (readAll 0 repeats []) with
      | .ok text => runText g false text
      | .error _ => pure ()

def shell (g : Evaluator) : Utility := fun i => do
  let (pid, parent) ← Task.call .identity
  let name := i.arguments.head?.getD (bytes "sh")
  let body : Sh Unit := do
    match Startup.ofWords (i.arguments.drop 1) with
    | .ok s => startShell g s
    | .error message => Sh.fail message
  Sh.life g body (startState i name pid parent)

end ValueInspector.Shell
