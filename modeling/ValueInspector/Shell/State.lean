import ValueInspector.Shell.Script
import ValueInspector.Shell.System

/-! # State of a shell

What a shell remembers between commands, and computations over it that make calls to the system. A
computation may end early: by leaving loops, by returning from a function or by ending the shell.
-/
namespace ValueInspector.Shell

/-- A shell variable. One that is only marked has no value. -/
structure Variable where
  value : Option Bytes
  exported : Bool
  readOnly : Bool
deriving Repr

/-- What a command that is started gets: its words with the name first, the exported variables and
the working directory. -/
structure Invocation where
  arguments : List Bytes
  environment : List (Bytes × Bytes)
  directory : Bytes
deriving Repr

/-- Where options are read next: the number of a word, and how far the word before it was read. -/
structure OptionPlace where
  word : Nat
  offset : Option Nat
deriving Repr

/-- Options are read from the first word on. -/
def OptionPlace.start : OptionPlace := ⟨1, none⟩

/-- Children that were started together in the background. -/
structure Job where
  slot : Nat
  /-- The processes, each with how it ended. -/
  processes : List (Nat × Option ExitStatus)
  waited : Bool
deriving Repr

namespace Job

def isRunning (j : Job) : Bool := j.processes.any (·.2.isNone)

/-- The last process, which stands for the job. -/
def pid (j : Job) : Nat := (j.processes.getLast?.map (·.1)).getD 0

/-- How the last process ended. -/
def ending? (j : Job) : Option ExitStatus := j.processes.getLast?.bind (·.2)

def note (pid : Nat) (status : ExitStatus) (j : Job) : Job :=
  { j with processes := j.processes.map fun e => if e.1 = pid then (pid, some status) else e }

end Job

/-- What a function hides: variables, innermost function first, and options. -/
structure Scope where
  bindings : List (Bytes × Option Variable)
  options : Option (List Char)
deriving Repr

structure ShellState where
  name : Bytes
  positional : List Bytes
  bindings : List (Bytes × Variable)
  functions : List (Bytes × Command)
  aliases : List (Bytes × Bytes)
  /-- The letters of the options that are set. -/
  options : List Char
  status : Nat
  /-- The status with which an exit without a number ends the shell, in a trap. -/
  saved : Option Nat
  /-- The status of the latest substitution in the current command. -/
  substituted : Nat
  traps : List (Nat × Bytes)
  /-- Caught signals whose traps were not run yet. -/
  caught : List Nat
  /-- What is local to the running functions, innermost function first. -/
  scopes : List Scope
  loops : Nat
  /-- How many functions are running. -/
  depth : Nat
  line : Nat
  /-- The built-in command that is running. -/
  command : Option Bytes
  directory : Bytes
  processId : Nat
  lastJob : Option Nat
  /-- Children in the background, the latest first. -/
  jobs : List Job
  /-- Where the programs of names were found. -/
  located : List (Bytes × Bytes)
  documents : List (Nat × Word)
  nextDocument : Nat
  optionPlace : OptionPlace

/-- How a computation ends early. -/
inductive Jump where
  | leave (levels : Nat)
  | again (levels : Nat)
  /-- From a function or a file, with a status of its own or not. -/
  | returned (withStatus : Bool)
  | exit
  /-- An error that ends the shell. -/
  | failed
deriving DecidableEq, Repr

abbrev Sh := ExceptT Jump (StateT ShellState Task)

/-- How a command is run. -/
structure Manner where
  /-- Its status is looked at, so that a failure does not end the shell. -/
  tested : Bool
  /-- The process ends with it. -/
  final : Bool
deriving DecidableEq, Repr

/-- What parts of the shell need of the whole: to run a command, and to become another program. -/
structure Evaluator where
  command : Manner → Command → Sh Unit
  execute : (path : Bytes) → Invocation → Task Nat

namespace Sh

def system (c : Call) : Sh c.Answer := fun s => do return (.ok (← Task.call c), s)

def task {α : Type} (t : Task α) : Sh α := fun s => do return (.ok (← t), s)

/-- The outcome of a computation, early end included. -/
def attempt {α : Type} (x : Sh α) : Sh (Except Jump α) := fun s => do
  let (r, s) ← x s
  return (.ok r, s)

/-- Goes on with an outcome. -/
def resume {α : Type} (r : Except Jump α) : Sh α := fun s => return (r, s)

/-- Starts a child process. -/
def fork (child : ShellState → Program) : Sh Nat := fun s => do
  return (.ok (← Task.fork (child s)), s)

def endless {α : Type} : Sh α := fun _ _ => .endless

/-- Writes to standard error. -/
def complain (message : Bytes) : Sh Unit := do
  let _ ← system (.write 2 (message ++ ['\n']))

/-- A message with the name of the shell, the line and the built-in command. -/
def warn (message : Bytes) : Sh Unit := do
  let s ← get
  let command := match s.command with
    | some c => c ++ bytes ": "
    | none => []
  complain (s.name ++ bytes ": " ++ Bytes.ofNat s.line ++ bytes ": " ++ command ++ message)

/-- Reports an error that ends the shell, or the built-in command that runs. -/
def fail {α : Type} (message : Bytes) : Sh α := do
  warn message
  modify ({ · with status := 2 })
  throw .failed

def option (letter : Char) : Sh Bool := return letter ∈ (← get).options

/-- Writes to standard output, and yields the status. -/
def output (data : Bytes) : Sh Nat := do
  if data.isEmpty then return 0
  else
    match ← system (.write 1 data) with
    | none => return 0
    | some _ =>
      warn (((← get).command.getD []) ++ bytes ": I/O error")
      return 1

/-! ## Variables -/

def marking? (name : Bytes) : Sh (Option Variable) := return (← get).bindings.lookup name

def value? (name : Bytes) : Sh (Option Bytes) :=
  return ((← get).bindings.lookup name).bind (·.value)

def storeVariable (name : Bytes) (v : Option Variable) : Sh Unit := modify fun s =>
  { s with
    bindings := match v with
      | some v => Table.set name v s.bindings
      | none => Table.unset name s.bindings
    located := if name = bytes "PATH" then [] else s.located }

def checkWritable (name : Bytes) : Sh Unit := do
  if ((← marking? name).map (·.readOnly)).getD false then
    fail (name ++ bytes ": is read only")

/-- Gives a variable a value, and marks it for export if asked to. -/
def assign (name value : Bytes) (toExport : Bool) : Sh Unit := do
  checkWritable name
  let exported := ((← marking? name).map (·.exported)).getD false
  let all ← option 'a'
  storeVariable name (some ⟨some value, exported || toExport || all, false⟩)
  if name = bytes "OPTIND" then
    modify ({ · with optionPlace := ⟨max 1 ((Bytes.natural? value).getD 1), none⟩ })

def unassign (name : Bytes) : Sh Unit := do
  checkWritable name
  storeVariable name none

/-- Makes a variable local to the innermost function, with its value kept. -/
def makeLocal (name : Bytes) : Sh Unit := do
  let s ← get
  match s.scopes with
  | [] => pure ()
  | scope :: rest =>
    if scope.bindings.any (·.1 = name) then pure ()
    else
      let bindings := (name, s.bindings.lookup name) :: scope.bindings
      set { s with scopes := { scope with bindings } :: rest }

/-- Makes the options local to the innermost function. -/
def makeOptionsLocal : Sh Unit := modify fun s =>
  match s.scopes with
  | [] => s
  | scope :: rest =>
    { s with scopes := { scope with options := scope.options.or (some s.options) } :: rest }

/-- Runs a computation whose local variables and options are given back at its end. -/
def withLocals {α : Type} (x : Sh α) : Sh α := do
  modify fun s => { s with scopes := ⟨[], none⟩ :: s.scopes }
  let r ← attempt x
  let scope := (← get).scopes.head?.getD ⟨[], none⟩
  modify fun s =>
    { s with scopes := s.scopes.tail, options := scope.options.getD s.options }
  scope.bindings.forM fun v => storeVariable v.1 v.2
  resume r

def isExportedValue (v : Bytes × Variable) : Option (Bytes × Bytes) :=
  if v.2.exported then v.2.value.map (v.1, ·) else none

def environment : Sh (List (Bytes × Bytes)) :=
  return (← get).bindings.reverse.filterMap isExportedValue

/-! ## Files -/

/-- A path as seen from a working directory. -/
def pathFrom (directory path : Bytes) : Bytes :=
  match path with
  | [] | '/' :: _ => path
  | _ => directory ++ '/' :: path

def path (name : Bytes) : Sh Bytes := return pathFrom (← get).directory name

/-- What is at a path, after links. -/
def inspect (name : Bytes) : Sh (Option FileInfo) := do
  return (← system (.inspect true (← path name))).toOption

/-- A bound on repeated calls that no run reaches. -/
def repeats : Nat := 1000000000

/-- Reads to the end, in chunks. -/
def readAll (fd : Nat) : Nat → List Bytes → Task (Except FileFault Bytes)
  | 0, acc => return .ok acc.reverse.flatten
  | n + 1, acc => do
    match ← Task.call (.read fd 65536) with
    | .error f => return .error f
    | .ok [] => return .ok acc.reverse.flatten
    | .ok data => readAll fd n (data :: acc)

/-- Takes the signals that came in since the last time. -/
def collectSignals : Sh Unit := do
  let new ← system .caught
  modify fun s => { s with caught := s.caught ++ new.filter (· ∉ s.caught) }

/-- The first free slot for a job. A job there that has ended and was waited for is forgotten. -/
def freeSlot : Sh Nat := do
  let s ← get
  let taken (k : Nat) : Bool := s.jobs.any fun j => j.slot = k && (j.isRunning || !j.waited)
  let slot := ((List.range (s.jobs.length + 1)).map (· + 1)).find? (fun k => !taken k) |>.getD 1
  set { s with jobs := s.jobs.filter (·.slot ≠ slot) }
  return slot

def statusOf : ExitStatus → Nat
  | .code n => n
  | .signal n => 128 + n

/-- Waits until a child has ended, signals or not. -/
def waitForChild (pid : Nat) : Nat → Sh Nat
  | 0 => endless
  | n + 1 => do
    match ← system (.wait (some pid) true) with
    | .ended _ status =>
      match status with
      | .signal k =>
        unless k = 2 || k = 13 do complain (signalText k)
      | .code _ => pure ()
      return statusOf status
    | .interrupted =>
      collectSignals
      waitForChild pid n
    | .noChild => return 127
    | .running => waitForChild pid n

end Sh
end ValueInspector.Shell
