import ValueInspector.Shell.State

/-! # Programs beside the shell

A utility gets its words, its environment and a working directory, and ends with a status. Here are the
means that utilities share: taking their options apart, writing, complaining, and reading the files
they are given, as a whole or line by line.
-/
namespace ValueInspector.Shell

abbrev Utility := Invocation → Task Nat

/-! ## Options -/

inductive OptionValue where
  | absent
  | required
  /-- Only after an equals sign, or in the same word as the letter. -/
  | possible
deriving DecidableEq, Repr

/-- An option with its letters and names. It goes by the first of them. -/
structure OptionForm where
  letters : List Char
  names : List String
  value : OptionValue
deriving Repr

namespace OptionForm

/-- An option as manuals write it: letters and names between commas, and an equals sign, in brackets if
the value may be missing. -/
def ofText (text : String) : OptionForm :=
  let cs := text.toList
  let (cs, value) :=
    if "[=]".toList.isSuffixOf cs then (cs.take (cs.length - 3), OptionValue.possible)
    else if "=".toList.isSuffixOf cs then (cs.dropLast, .required)
    else (cs, .absent)
  let parts := cs.splitOn ','
  { letters := parts.filterMap fun
      | [c] => some c
      | _ => none
    names := (parts.filter fun p => p.length ≠ 1).map String.ofList
    value }

def key (f : OptionForm) : String :=
  match f.letters with
  | c :: _ => String.ofList [c]
  | [] => f.names.head?.getD ""

end OptionForm

/-- Why words are no options. -/
inductive OptionFault where
  | unknownLetter (c : Char)
  | unknownName (word : Bytes)
  | ambiguousName (word : Bytes) (names : List String)
  | letterWithoutValue (c : Char)
  | nameWithoutValue (name : String)
  | unexpectedValue (name : String)
deriving Repr

def OptionFault.text : OptionFault → Bytes
  | .unknownLetter c => bytes "invalid option -- '" ++ [c, '\x27']
  | .unknownName word => bytes "unrecognized option '" ++ word ++ ['\x27']
  | .ambiguousName word names =>
    bytes "option '" ++ word ++ bytes "' is ambiguous; possibilities:" ++
      (names.map fun n => bytes " '--" ++ bytes n ++ ['\x27']).flatten
  | .letterWithoutValue c => bytes "option requires an argument -- '" ++ [c, '\x27']
  | .nameWithoutValue name => bytes "option '--" ++ bytes name ++ bytes "' requires an argument"
  | .unexpectedValue name => bytes "option '--" ++ bytes name ++ bytes "' doesn't allow an argument"

/-- The options that were given, in order, each with its value. -/
structure Options where
  found : List (String × Bytes)
deriving Repr

namespace Options

def has (o : Options) (key : String) : Bool := o.found.any (·.1 = key)

/-- The latest value of an option. -/
def value? (o : Options) (key : String) : Option Bytes := o.found.reverse.lookup key

def values (o : Options) (key : String) : List Bytes :=
  (o.found.filter (·.1 = key)).map (·.2)

/-- Which of some options was given last. -/
def last? (o : Options) (keys : List String) : Option String :=
  (o.found.reverse.find? fun f => f.1 ∈ keys).map (·.1)

/-- The option that a name, or the start of one, stands for, with its whole name. -/
def byName (forms : List OptionForm) (name word : Bytes) :
    Except OptionFault (OptionForm × String) :=
  let all := forms.flatMap fun f => f.names.map fun n => (f, n)
  match all.find? fun e => e.2.toList = name with
  | some e => .ok e
  | none =>
    match all.filter fun e => name.isPrefixOf e.2.toList with
    | [] => .error (.unknownName word)
    | e :: rest =>
      if rest.all fun r => r.1.key = e.1.key then .ok e
      else .error (.ambiguousName word ((e :: rest).map (·.2)))

/-- Takes options and operands apart. If they are not mixed, the options end at the first operand. -/
def read (forms : List OptionForm) (mixed : Bool) :
    Nat → List Bytes → List (String × Bytes) → List Bytes →
      Except OptionFault (Options × List Bytes)
  | 0, words, found, operands => .ok (⟨found.reverse⟩, operands.reverse ++ words)
  | n + 1, words, found, operands =>
    match words with
    | [] => .ok (⟨found.reverse⟩, operands.reverse)
    | ['-', '-'] :: rest => .ok (⟨found.reverse⟩, operands.reverse ++ rest)
    | ('-' :: '-' :: cs) :: rest => do
      let name := cs.takeWhile (· ≠ '=')
      let given? := match cs.drop name.length with
        | [] => none
        | _ :: v => some v
      let (f, name) ← byName forms name ('-' :: '-' :: name)
      match f.value, given?, rest with
      | .absent, none, _ => read forms mixed n rest ((f.key, []) :: found) operands
      | .absent, some _, _ => .error (.unexpectedValue name)
      | _, some v, _ => read forms mixed n rest ((f.key, v) :: found) operands
      | .possible, none, _ => read forms mixed n rest ((f.key, []) :: found) operands
      | .required, none, v :: rest => read forms mixed n rest ((f.key, v) :: found) operands
      | .required, none, [] => .error (.nameWithoutValue name)
    | ('-' :: c :: cs) :: rest =>
      match forms.find? (c ∈ ·.letters) with
      | none => .error (.unknownLetter c)
      | some f =>
        match f.value, cs, rest with
        | .absent, [], _ => read forms mixed n rest ((f.key, []) :: found) operands
        | .absent, _ :: _, _ => read forms mixed n (('-' :: cs) :: rest) ((f.key, []) :: found) operands
        | .possible, _, _ => read forms mixed n rest ((f.key, cs) :: found) operands
        | .required, _ :: _, _ => read forms mixed n rest ((f.key, cs) :: found) operands
        | .required, [], v :: rest => read forms mixed n rest ((f.key, v) :: found) operands
        | .required, [], [] => .error (.letterWithoutValue c)
    | w :: rest =>
      if mixed then read forms mixed n rest found (w :: operands)
      else .ok (⟨found.reverse⟩, operands.reverse ++ words)

end Options

/-- What a utility says of itself and how its words are understood. -/
structure Manual where
  /-- What follows the name in the first line of the help. -/
  usage : String
  version : String
  options : List String
  /-- Options may stand between and after operands. -/
  mixed : Bool
  /-- The status for words that are not understood. -/
  trouble : Nat

namespace Utility

/-! ## Output -/

/-- The name under which the utility runs. -/
def nameOf (i : Invocation) : Bytes := i.arguments.head?.getD []

def complain (i : Invocation) (message : Bytes) : Task Unit := do
  let _ ← Task.call (.write 2 (nameOf i ++ bytes ": " ++ message ++ ['\n']))

/-- Writes to standard output, and yields the status. -/
def put (i : Invocation) (data : Bytes) : Task Nat := do
  if data.isEmpty then return 0
  else
    match ← Task.call (.write 1 data) with
    | none => return 0
    | some f =>
      complain i (bytes "write error: " ++ f.text)
      return 1

def refuse (i : Invocation) (message : Bytes) (status : Nat) : Task Nat := do
  complain i message
  return status

/-- Refuses, with a hint at the help. -/
def refuseUse (i : Invocation) (message : Bytes) (status : Nat) : Task Nat := do
  complain i message
  let hint := bytes "Try '" ++ nameOf i ++ bytes " --help' for more information.\n"
  let _ ← Task.call (.write 2 hint)
  return status

/-- The words after the name. -/
def operands (i : Invocation) : List Bytes := i.arguments.drop 1

/-- A text in single quotes. -/
def quoted (text : Bytes) : Bytes := '\x27' :: text ++ ['\x27']

/-- A name in quotes if it would be misread without them. -/
def quoteName (name : Bytes) : Bytes :=
  let special (c : Char) : Bool := Bytes.isSpace c || c ∈ "!\"$&'()*;<=>?[\\^\x60\x7b|\x7d~".toList
  if name.isEmpty then bytes "''"
  else if ':' ∈ name || name.any special then
    if '\x27' ∈ name then '"' :: name ++ ['"'] else quoted name
  else name

/-! ## Starting -/

/-- Runs a utility with its options taken apart. -/
def withOptions (m : Manual) (run : Options → List Bytes → Invocation → Task Nat) : Utility :=
  fun i => do
    let forms := m.options.map OptionForm.ofText ++ [⟨[], ["help"], .absent⟩, ⟨[], ["version"], .absent⟩]
    let words := operands i
    match Options.read forms m.mixed (words.flatten.length + words.length + 1) words [] [] with
    | .ok (found, rest) =>
      match found.last? ["help", "version"] with
      | some "help" =>
        put i (bytes "Usage: " ++ nameOf i ++ bytes m.usage ++ ['\n'])
      | some _ => put i (bytes m.version ++ ['\n'])
      | none => run found rest i
    | .error f => refuseUse i f.text m.trouble

/-- The name and version of a utility of the basic collection. -/
def versionOf (name : String) : String := name ++ " (GNU coreutils) 9.4"

/-- The one of some words that a value, or the start of one, stands for; or why there is none. -/
def choose (option : String) (words : List String) (value : Bytes) : Except Bytes String :=
  let fault (kind : String) : Bytes :=
    bytes kind ++ bytes " argument " ++ quoted value ++ bytes " for " ++ quoted (bytes option) ++
      bytes "\nValid arguments are:" ++ (words.map fun w => bytes "\n  - " ++ quoted (bytes w)).flatten
  if value.isEmpty && 1 < words.length then .error (fault "ambiguous")
  else
    match words.find? fun w => w.toList = value with
    | some w => .ok w
    | none =>
      match words.filter fun w => value.isPrefixOf w.toList with
      | [w] => .ok w
      | [] => .error (fault "invalid")
      | _ => .error (fault "ambiguous")

/-! ## Input -/

def pathOf (i : Invocation) (name : Bytes) : Bytes := Sh.pathFrom i.directory name

/-- Opens a file to be read; a dash is standard input. -/
def openInput (i : Invocation) (name : Bytes) : Task (Except FileFault Nat) :=
  if name = ['-'] then pure (.ok 0) else Task.call (.openFile (pathOf i name) .read)

def closeInput (fd : Nat) : Task Unit := if fd = 0 then pure () else Task.call (.close fd)

/-- The contents of a file; a dash stands for standard input. -/
def contents (i : Invocation) (name : Bytes) : Task (Except FileFault Bytes) := do
  match ← openInput i name with
  | .error f => return .error f
  | .ok fd =>
    let data ← Sh.readAll fd Sh.repeats []
    closeInput fd
    return data

/-- The contents of files one after the other, and the status. -/
def allContents (i : Invocation) (names : List Bytes) : Task (List Bytes × Nat) := do
  let names := if names.isEmpty then [['-']] else names
  let rec collect : List Bytes → List Bytes → Nat → Task (List Bytes × Nat)
    | [], acc, status => return (acc.reverse, status)
    | name :: rest, acc, status => do
      match ← contents i name with
      | .ok data => collect rest (data :: acc) status
      | .error f =>
        complain i (quoteName name ++ bytes ": " ++ f.text)
        collect rest acc 1
  collect names [] 0

/-- The lines with a line feed after each. -/
def unlines (ls : List Bytes) : Bytes := (ls.map (· ++ ['\n'])).flatten

/-- The lines of a text, each with its end. -/
def wholeLines (stop : Char) (data : Bytes) : List Bytes :=
  match (data.splitOn stop).reverse with
  | [] :: rest => (rest.map (· ++ [stop])).reverse
  | last :: rest => (last :: rest.map (· ++ [stop])).reverse
  | [] => []

/-! ## Streams -/

/-- Something that takes its input piece by piece: a state, and what a piece does to it and writes. -/
structure Stage (σ : Type) where
  /-- The state after a piece, the output, and whether no more input is wanted. -/
  step : σ → Bytes → σ × Bytes × Bool
  /-- The output at the end of all input. -/
  finish : σ → Bytes

/-- What is left of the lines of a stream: its state, and a line that was not ended so far. -/
structure LineState (σ : Type) where
  inner : σ
  /-- The start of a line, in chunks, the latest first. -/
  pending : List Bytes

/-- Passes lines, each with whether its end was there, to a function of the state. -/
def throughLines {σ : Type} (f : σ → Bytes → Bool → σ × Bytes × Bool) :
    List Bytes → LineState σ → List Bytes → LineState σ × Bytes × Bool
  | [], s, out => (s, out.reverse.flatten, false)
  | [last], s, out =>
    ({ s with pending := if last.isEmpty then s.pending else last :: s.pending },
      out.reverse.flatten, false)
  | l :: rest, s, out =>
    let line := if s.pending.isEmpty then l else (l :: s.pending).reverse.flatten
    let (inner, written, ended) := f s.inner line true
    if ended then (⟨inner, []⟩, (written :: out).reverse.flatten, true)
    else throughLines f rest ⟨inner, []⟩ (written :: out)

/-- A stage that works on lines. -/
def lineStage {σ : Type} (stop : Char) (f : σ → Bytes → Bool → σ × Bytes × Bool)
    (finish : σ → Bytes) : Stage (LineState σ) where
  step s data := throughLines f (data.splitOn stop) s []
  finish s :=
    if s.pending.isEmpty then finish s.inner
    else
      let (inner, written, _) := f s.inner s.pending.reverse.flatten false
      written ++ finish inner

/-- Passes what a descriptor yields through a stage. Yields the state, the status and whether no more is
wanted. -/
def pour {σ : Type} (i : Invocation) (stage : Stage σ) (fd : Nat) :
    Nat → σ → Task (Except FileFault (σ × Nat × Bool))
  | 0, s => return .ok (s, 0, true)
  | n + 1, s => do
    match ← Task.call (.read fd 65536) with
    | .error f => return .error f
    | .ok [] => return .ok (s, 0, false)
    | .ok data =>
      let (s, out, ended) := stage.step s data
      let status ← put i out
      if status ≠ 0 then return .ok (s, status, true)
      else if ended then return .ok (s, 0, true)
      else pour i stage fd n s

/-- Runs a stage over files, one after the other, as if they were one. -/
def stream {σ : Type} (i : Invocation) (names : List Bytes) (stage : Stage σ) (start : σ) :
    Task Nat := do
  let rec each : List Bytes → σ → Nat → Task (σ × Nat)
    | [], s, status => return (s, status)
    | name :: rest, s, status => do
      let failed (f : FileFault) : Task Unit := complain i (quoteName name ++ bytes ": " ++ f.text)
      match ← openInput i name with
      | .error f =>
        failed f
        each rest s 1
      | .ok fd =>
        let poured ← pour i stage fd Sh.repeats s
        closeInput fd
        match poured with
        | .error f =>
          failed f
          each rest s 1
        | .ok (s, k, ended) => if ended then return (s, max status k) else each rest s (max status k)
  let (s, status) ← each (if names.isEmpty then [['-']] else names) start 0
  return max status (← put i (stage.finish s))

/-- Passes lines through a function, each with its end or without it. -/
def mapLines (i : Invocation) (names : List Bytes) (f : Bytes → Bytes) : Task Nat :=
  let step (_ : Unit) (line : Bytes) (ended : Bool) : Unit × Bytes × Bool :=
    ((), if ended then f line ++ ['\n'] else f line, false)
  stream i names (lineStage '\n' step fun _ => []) ⟨(), []⟩

/-! ## Numbers -/

/-- Digits and a suffix for a power of 1024 or of 1000. -/
def size? (w : Bytes) : Option Nat := do
  let digits := w.takeWhile Char.isDigit
  let n ← Bytes.natural? digits
  let power (c : Char) : Option Nat := do
    let k := "KMGTPEZY".toList.findIdx (· = c.toUpper)
    if k < 8 then some (k + 1) else none
  match w.drop digits.length with
  | [] => some n
  | ['b'] => some (512 * n)
  | [c] => return n * Nat.pow 1024 (← power c)
  | [c, 'B'] => return n * Nat.pow 1000 (← power c)
  | [c, 'i', 'B'] => return n * Nat.pow 1024 (← power c)
  | _ => none

end Utility
end ValueInspector.Shell
