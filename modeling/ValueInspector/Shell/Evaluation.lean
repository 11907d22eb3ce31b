import ValueInspector.Shell.Builtin

/-! # Evaluation of commands

What each form of command does, given an evaluator for the commands inside it. The status of a command
is left in the state of the shell.
-/
namespace ValueInspector.Shell.Sh

def setStatus (n : Nat) : Sh Unit := modify ({ · with status := n })

/-- The time that every command takes. -/
def tick : Sh Unit := system (.compute 1)

/-! ## Programs -/

/-- The places where a name without a slash may name a program. -/
def places (name : Bytes) : Sh (List Bytes) := do
  let all := ((← value? (bytes "PATH")).getD []).splitOn ':'
  all.mapM fun place => path (if place.isEmpty then name else place ++ '/' :: name)

def isProgram (p : Bytes) : Sh Bool := do
  return (← system (.inspect true p)).toOption.any (·.isProgram)

/-- Where the program of a name is, which is remembered. One with a slash is looked for only when it is
started. -/
def findProgram? (name : Bytes) : Sh (Option Bytes) := do
  if '/' ∈ name then return some (← path name)
  else if let some p := (← get).located.lookup name then return some p
  else
    let rec search : List Bytes → Sh (Option Bytes)
      | [] => return none
      | p :: rest => do
        if ← isProgram p then
          modify fun s => { s with located := (name, p) :: s.located }
          return some p
        else search rest
    search (← places name)

/-- Without a name, it is a directory that is found. -/
def notFound (name : Bytes) : Sh Nat := do
  warn (name ++ bytes (if name.isEmpty then ": Permission denied" else ": not found"))
  return 127

/-- Becomes the program at a path, or ends the process. -/
def startProgram {α : Type} (g : Evaluator) (p : Bytes) (words : List Bytes) : Sh α := do
  let name := words.head?.getD []
  let refuse (status : Nat) (reason : String) : Sh α := do
    warn (name ++ bytes reason)
    setStatus status
    throw .exit
  match ← system (.inspect true p) with
  | .error .notDirectory => refuse 127 ": not found"
  | .error _ => refuse 127 ": not found"
  | .ok info =>
    if info.isProgram then become g p ⟨words, ← environment, (← get).directory⟩
    else refuse 126 ": Permission denied"

/-- Runs a program in a child process, or in place of the shell if that ends with it. -/
def runProgram (g : Evaluator) (m : Manner) (words : List Bytes) : Sh Nat := do
  let name := words.head?.getD []
  match ← findProgram? name with
  | none => notFound name
  | some p =>
    if m.final && (← get).traps.all (·.2.isEmpty) then startProgram g p words
    else
      let _ ← freeSlot
      let pid ← forkChild g false (startProgram g p words)
      waitForChild pid repeats

/-! ## Simple commands -/

section Simple
variable (g : Evaluator) (n : Nat)

/-- The arguments that a word becomes. An assignment as an argument is not split. -/
def argument (assigning : Bool) (w : Word) : Sh (List Bytes) := do
  match (if assigning then Word.assignment? w else none) with
  | some (name, value) => return [name ++ '=' :: (← Word.value g n value)]
  | none => w.fields g n

/-- The fields of words up to the first that has any. -/
def firstFields : List Word → Sh (List Bytes × List Word)
  | [] => return ([], [])
  | w :: rest => do
    match ← w.fields g n with
    | [] => firstFields rest
    | fields => return (fields, rest)

def expandWords (words : List Word) : Sh (List Bytes) := do
  let (fields, rest) ← firstFields g n words
  let assigning := fields.head?.any fun name =>
    Builtin.assigns (if name = bytes "command" then (fields.drop 1).head?.getD [] else name)
  return fields ++ (← rest.mapM (argument g n assigning)).flatten

/-- Shows a command before it is run, if that is asked for. -/
def trace (assignments : List (Bytes × Bytes)) (words : List Bytes) : Sh Unit := do
  if ← option 'x' then
    let mark := (← value? (bytes "PS4")).getD []
    let all := assignments.map (fun (name, value) => name ++ '=' :: value) ++ words
    complain (mark ++ Bytes.join [' '] all)

/-- A text of so many bytes is made in no time. Beyond them, so many take a moment. -/
def freeText : Nat := 1024
def momentText : Nat := 256

/-- The longest text that there is room for. -/
def roomForText : Nat := 16777216

/-- The time that it takes to make a text. One that there is no room for is never made. -/
def weigh (w : Bytes) : Sh Unit := do
  let beyond := (w.drop freeText).length
  if momentText ≤ beyond then
    system (.compute (beyond / momentText))
    if roomForText < beyond then task fun _ => .endless

/-- Carries out assignments. Local ones are taken back after the command. -/
def assignAll (toExport temporary : Bool) (assignments : List (Bytes × Word)) :
    Sh (List (Bytes × Bytes)) :=
  assignments.mapM fun (name, w) => do
    let value ← Word.value g n w
    weigh value
    if temporary then makeLocal name
    assign name value toExport
    return (name, value)

/-- Removes `command` in front, unless it is to describe a command. -/
def stripCommand : Nat → List Bytes → Bool × List Bytes
  | 0, words => (false, words)
  | k + 1, words =>
    match words with
    | name :: rest =>
      if name ≠ bytes "command" then (false, words)
      else
        let rest := match rest with
          | ['-', 'p'] :: rest => rest
          | _ => rest
        match rest with
        | ['-', '-'] :: next :: rest => (true, (stripCommand k (next :: rest)).2)
        | next :: rest =>
          if next.head? = some '-' && 1 < next.length then (false, words)
          else (true, (stripCommand k (next :: rest)).2)
        | [] => (false, words)
    | [] => (false, [])

/-- Calls a function. Its parameters stand in for those of the shell. -/
def callFunction (m : Manner) (body : Command) (args : List Bytes) : Sh Nat := do
  let before ← get
  if 1000 ≤ before.depth then fail (bytes "Maximum function recursion depth (1000) reached")
  else
    set
      { before with
        positional := args, optionPlace := .start, loops := 0, depth := before.depth + 1 }
    let r ← attempt (withLocals (g.command ⟨m.tested, false⟩ body))
    tick
    modify ({ · with
      positional := before.positional, optionPlace := before.optionPlace
      loops := before.loops, depth := before.depth })
    match r with
    | .ok () | .error (.returned _) => return (← get).status
    | .error j => throw j

/-- Runs a built-in command under its name. Unless it is special, its errors are its status. -/
def callBuiltin (special : Bool) (name : Bytes) (x : Sh Nat) : Sh Nat := do
  let before := (← get).command
  modify ({ · with command := some name })
  let r ← attempt x
  modify ({ · with command := before })
  match r with
  | .error .failed => if special then throw .failed else return (← get).status
  | r => resume r

/-- How a command name is understood, in the words of the shell; `none` for none. -/
def describe (name : Bytes) (brief : Bool) : Sh (Option Bytes) := do
  let s ← get
  let tell (what : String) : Option Bytes :=
    some (if brief then name else name ++ bytes what)
  if (reservedWords.lookup name).isSome then return tell " is a shell keyword"
  else
    match s.aliases.lookup name with
    | some value =>
      return some
        (if brief then bytes "alias " ++ name ++ '=' :: Builtin.quote value
        else name ++ bytes " is an alias for " ++ value)
    | none =>
      if Builtin.isSpecial name then return tell " is a special shell builtin"
      else if (s.functions.lookup name).isSome then return tell " is a shell function"
      else if Builtin.isBuiltin name then return tell " is a shell builtin"
      else
        match ← findProgram? name with
        | none => return none
        | some p =>
          if ← isProgram p then
            let known := (s.located.lookup name).isSome
            return some
              (if brief then p
              else name ++ bytes (if known then " is a tracked alias for " else " is ") ++ p)
          else return none

def describeAll (names : List Bytes) : Sh Nat := do
  let statuses ← names.mapM fun name => do
    match ← describe name false with
    | some text => output (text ++ ['\n'])
    | none =>
      let _ ← output (name ++ bytes ": not found\n")
      return 127
  return statuses.foldl max 0

/-- The place of a name in the table of located programs. -/
def bucket (name : Bytes) : Nat :=
  (name.foldl (fun n c => n + c.toNat) ((name.head?.getD (Char.ofNat 0)).toNat * 16)) % 32768 % 31

/-- Lists where programs were found, or looks for more. -/
def locate (args : List Bytes) : Sh Nat := do
  let (letters, names) ← Builtin.takeOptions "r" args
  if 'r' ∈ letters then
    modify ({ · with located := [] })
    return 0
  else if names.isEmpty then
    let all := (← get).located.reverse
    let ordered := (List.range 31).flatMap fun k => all.filter fun e => bucket e.1 = k
    output (Builtin.unlines (ordered.map (·.2)))
  else
    let statuses ← names.mapM fun name => do
      let s ← get
      if Builtin.isBuiltin name || (s.functions.lookup name).isSome then return 0
      else
        match ← findProgram? name with
        | some _ => return 0
        | none =>
          warn (name ++ bytes ": not found")
          return 1
    return statuses.foldl max 0

/-- The command `command` when it describes. -/
def commandBuiltin (args : List Bytes) : Sh Nat := do
  let (letters, names) ← Builtin.takeOptions "pvV" args
  match names with
  | [] => return 0
  | name :: _ =>
    if 'V' ∈ letters then describeAll [name]
    else
      match ← describe name true with
      | some text => output (text ++ ['\n'])
      | none => return 127

/-- Runs the lines of a file. -/
def source (m : Manner) (args : List Bytes) : Sh Nat := do
  match ← Builtin.operands args with
  | [] => return 0
  | name :: _ =>
    let file ← if '/' ∈ name then path name
      else do
        let rec search : List Bytes → Sh Bytes
          | [] => fail (name ++ bytes ": not found")
          | p :: rest => do
            match ← system (.inspect true p) with
            | .ok info => if info.isDirectory then search rest else return p
            | .error _ => search rest
        search (← places name)
    match ← system (.openFile file .read) with
    | .error f => fail (openFault false name f)
    | .ok fd =>
      let data ← task (readAll fd repeats [])
      system (.close fd)
      let text := match data with
        | .ok text => text
        | .error _ => []
      let before := (← get).command
      modify ({ · with command := none })
      let r ← attempt (runText g m.tested text)
      modify ({ · with command := before })
      match r with
      | .ok () | .error (.returned _) => return (← get).status
      | .error j => throw j

def evalText (m : Manner) (args : List Bytes) : Sh Nat := do
  runText g m.tested (Bytes.join [' '] args)
  return (← get).status

/-- The built-in command of a name, with those that run other commands. -/
def builtin? (m : Manner) (name : Bytes) (args : List Bytes) : Option (Sh Nat) :=
  if name = bytes "eval" then some (evalText g m args)
  else if name = ['.'] then some (source g m args)
  else if name = bytes "command" then some (commandBuiltin args)
  else if name = bytes "type" then some (describeAll args)
  else if name = bytes "hash" then some (locate args)
  else (Builtin.lookup? name).map fun b => b args

/-- Becomes a program, under redirections that stay even without one. -/
def exec (words : List Bytes) (assignments : List (Bytes × Word))
    (redirections : List Redirection) : Sh Nat := do
  let args := words.drop 1
  redirectForGood g n redirections
  let assigned ← assignAll g n (!args.isEmpty) false assignments
  trace assigned words
  callBuiltin true (bytes "exec") do
    match ← Builtin.operands args with
    | [] => return 0
    | name :: rest =>
      match ← findProgram? name with
      | some p => startProgram g p (name :: rest)
      | none =>
        setStatus (← notFound name)
        throw .exit

/-- Runs a command whose words are expanded. -/
def invoke (m : Manner) (plain : Bool) (special : Bool) (words : List Bytes) : Sh Nat := do
  match words with
  | [] => return 0
  | name :: args =>
    let s ← get
    let function? := if plain then s.functions.lookup name else none
    if Builtin.isSpecial name then
      match builtin? g m name args with
      | some x => callBuiltin special name x
      | none => notFound name
    else
      match function? with
      | some body => callFunction g m body args
      | none =>
        match builtin? g m name args with
        | some x => callBuiltin special name x
        | none => runProgram g m words

def simple (m : Manner) (line : Nat) (assignments : List (Bytes × Word)) (words : List Word)
    (redirections : List Redirection) : Sh Unit := do
  tick
  modify ({ · with line, substituted := 0 })
  let words ← expandWords g n words
  let (stripped, command) := stripCommand words.length words
  let name := command.head?.getD []
  let special := !stripped && Builtin.isSpecial name
  let status ←
    if name = bytes "exec" then exec g n command assignments redirections
    else
      let onFailure : Sh Nat := if special then throw .failed else do return (← get).status
      let temporary := !special && !command.isEmpty
      let body := withRedirections g n redirections onFailure do
        let assigned ← assignAll g n temporary temporary assignments
        trace assigned words
        if command.isEmpty then return (← get).substituted
        else invoke g m (!stripped) special command
      if temporary && !assignments.isEmpty then withLocals body else body
  setStatus status

end Simple

/-! ## Compound commands -/

section Compound
variable (g : Evaluator) (n : Nat)

/-- Remembers where the program of a command is, if its name stands there as it is. -/
def remember (c : Command) : Sh Unit := do
  match c with
  | .simple _ _ (word :: _) _ =>
    match Word.literal? word with
    | some name =>
      if Bytes.isName name && !Builtin.isBuiltin name && ((← get).functions.lookup name).isNone then
        let _ ← findProgram? name
    | none => return ()
  | _ => return ()

/-- Starts the commands of a pipeline, each reading what the one before it writes. -/
def startPipeline (m : Manner) (background : Bool) : Option Nat → List Command → Sh (List Nat)
  | _, [] => return []
  | input, c :: rest => do
    remember c
    let last := rest.isEmpty
    let ends ← if last then pure none else some <$> system .pipe
    let pid ← forkChild g (background && input.isNone) do
      match ends with
      | some (out, _) => system (.close out)
      | none => pure ()
      match input with
      | some fd => move fd 0
      | none => pure ()
      match ends with
      | some (_, inn) => move inn 1
      | none => pure ()
      g.command ⟨m.tested, true⟩ c
    match input with
    | some fd => system (.close fd)
    | none => pure ()
    match ends with
    | some (_, inn) => system (.close inn)
    | none => pure ()
    return pid :: (← startPipeline m background (ends.map (·.1)) rest)

def pipeline (m : Manner) (parts : List Command) : Sh Unit := do
  let _ ← freeSlot
  let pids ← startPipeline g m false none parts
  let statuses ← pids.mapM fun pid => waitForChild pid repeats
  setStatus (statuses.getLast?.getD 0)

def addJob (slot : Nat) (pids : List Nat) : Sh Unit := modify fun s =>
  { s with
    lastJob := pids.getLast?, jobs := ⟨slot, pids.map (·, none), false⟩ :: s.jobs, status := 0 }

/-- Runs a command in a child process that is not waited for. -/
def background (c : Command) : Sh Unit := do
  let slot ← freeSlot
  match c with
  | .pipeline parts => addJob slot (← startPipeline g ⟨false, false⟩ true none parts)
  | .redirected line c rs =>
    modify ({ · with line })
    let pid ← forkChild g true do
      redirectForGood g n rs
      g.command ⟨false, true⟩ c
    addJob slot [pid]
  | c => addJob slot [← forkChild g true (g.command ⟨false, true⟩ c)]

def subshell (m : Manner) (c : Command) (rs : List Redirection) : Sh Unit := do
  let body (tested : Bool) : Sh Unit := do
    redirectForGood g n rs
    g.command ⟨tested, true⟩ c
  if m.final && (← get).traps.all (·.2.isEmpty) then body m.tested
  else
    let _ ← freeSlot
    let pid ← forkChild g false (body m.tested)
    setStatus (← waitForChild pid repeats)

/-- How a command in a loop ends: by itself, by going on with the loop, or by leaving it. -/
inductive Pass where
  | through
  | again
  | left
deriving DecidableEq, Repr

/-- Runs a command in a loop. -/
def pass (x : Sh Unit) : Sh Pass := do
  match ← attempt x with
  | .ok () => return .through
  | .error (.leave levels) => if levels ≤ 1 then return .left else throw (.leave (levels - 1))
  | .error (.again levels) => if levels ≤ 1 then return .again else throw (.again (levels - 1))
  | .error j => throw j

/-- Runs loops inside of one more loop. -/
def inLoop {α : Type} (x : Sh α) : Sh α := do
  modify fun s => { s with loops := s.loops + 1 }
  let r ← attempt x
  modify fun s => { s with loops := s.loops - 1 }
  resume r

/-- Repeats a body as long as its test holds. The status is that of the latest body. -/
def loopWhile (m : Manner) (untilTrue : Bool) (test body : Command) : Nat → Nat → Sh Nat
  | 0, status => return status
  | k + 1, status => do
    tick
    match ← pass (g.command ⟨true, false⟩ test) with
    | .left => return status
    | .again => loopWhile m untilTrue test body k status
    | .through =>
      let held : Bool := (← get).status = 0
      if held = untilTrue then return status
      else
        let passed ← pass (g.command ⟨m.tested, false⟩ body)
        let status := (← get).status
        if passed = .left then return status else loopWhile m untilTrue test body k status

def loopEach (m : Manner) (name : Bytes) (body : Command) : List Bytes → Nat → Sh Nat
  | [], status => return status
  | value :: rest, _ => do
    tick
    assign name value false
    let passed ← pass (g.command ⟨m.tested, false⟩ body)
    let status := (← get).status
    if passed = .left then return status else loopEach m name body rest status

/-- The first clause with a pattern that fits. -/
def selectClause (text : Bytes) : List (List Word × Option Command) → Sh (Option Command)
  | [] => return none
  | (patterns, body) :: rest => do
    let rec fitsAny : List Word → Sh Bool
      | [] => return false
      | w :: more => do
        let p := Pattern.ofMarked (← Word.single g n w)
        if p.fits text then return true else fitsAny more
    if ← fitsAny patterns then return body else selectClause text rest

/-- Runs a command by its form. -/
def form (m : Manner) (c : Command) : Sh Unit := do
  match c with
  | .simple line assignments words redirections =>
    simple g n m line assignments words redirections
  | .pipeline parts => pipeline g m parts
  | .not c =>
    g.command ⟨true, false⟩ c
    setStatus (if (← get).status = 0 then 1 else 0)
  | .and first second =>
    g.command ⟨true, false⟩ first
    if (← get).status = 0 then g.command m second
  | .or first second =>
    g.command ⟨true, false⟩ first
    if (← get).status ≠ 0 then g.command m second
  | .sequence first second =>
    g.command ⟨m.tested, false⟩ first
    g.command m second
  | .background c => background g n c
  | .redirected line c rs =>
    modify ({ · with line })
    withRedirections g n rs (pure ()) (g.command ⟨m.tested, false⟩ c)
  | .subshell line c rs =>
    modify ({ · with line })
    subshell g n m c rs
  | .choice test yes no =>
    g.command ⟨true, false⟩ test
    if (← get).status = 0 then g.command m yes
    else
      match no with
      | some c => g.command m c
      | none => setStatus 0
  | .loop untilTrue test body =>
    setStatus (← inLoop (loopWhile g m untilTrue test body repeats 0))
  | .each line name words body =>
    modify ({ · with line })
    let values ← match words with
      | some ws => List.flatten <$> ws.mapM (Word.fields g n)
      | none => pure (← get).positional
    setStatus (← inLoop (loopEach g m name body values 0))
  | .select line w clauses =>
    modify ({ · with line })
    let text := Marked.text (← Word.single g n w)
    match ← selectClause g n text clauses with
    | some c => g.command m c
    | none => setStatus 0
  | .define name body =>
    modify fun s => { s with
      functions := Table.set name body s.functions, located := Table.unset name s.located, status := 0 }

/-- Forms whose failure ends a shell that is to end at failures. -/
def isChecked : Command → Bool
  | .simple .. | .pipeline _ | .subshell .. => true
  | _ => false

/-- Runs a command and the traps that are due after it. -/
def run (m : Manner) (c : Command) : Sh Unit := do
  if ← option 'n' then pure ()
  else
    form g n m c
    runTraps g
    if (← option 'e') && !m.tested && isChecked c && (← get).status ≠ 0 then throw .exit

end Compound
end ValueInspector.Shell.Sh
