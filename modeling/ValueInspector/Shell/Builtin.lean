import ValueInspector.Shell.Condition
import ValueInspector.Shell.Permissions
import ValueInspector.Shell.Redirect

/-! # Built-in commands

Commands that work on the shell itself, or are too common to be programs. Each takes its arguments
and yields a status. Those that run other commands are with the evaluation.
-/
namespace ValueInspector.Shell

abbrev Builtin := List Bytes → Sh Nat

namespace Builtin
open Sh

/-! ## Arguments -/

/-- The options in front of the arguments, letters of which some take a value, and the rest. -/
def options (letters : String) : Nat → List Bytes → List (Char × Bytes) →
    Sh (List (Char × Bytes) × List Bytes)
  | 0, args, acc => return (acc.reverse, args)
  | n + 1, args, acc => do
    match args with
    | ['-', '-'] :: rest => return (acc.reverse, rest)
    | ('-' :: c :: more) :: rest =>
      let known := letters.toList.dropWhile (· ≠ c)
      if c = ':' || known.isEmpty then fail (bytes "Illegal option -" ++ [c])
      else if (known.drop 1).head? = some ':' then
        match more, rest with
        | _ :: _, _ => options letters n rest ((c, more) :: acc)
        | [], value :: rest => options letters n rest ((c, value) :: acc)
        | [], [] => fail (bytes "No arg for -" ++ [c] ++ bytes " option")
      else if more.isEmpty then options letters n rest ((c, []) :: acc)
      else options letters n (('-' :: more) :: rest) ((c, []) :: acc)
    | _ => return (acc.reverse, args)

def takeOptions (letters : String) (args : List Bytes) : Sh (List Char × List Bytes) := do
  let bound := args.flatten.length + args.length + 1
  let (found, rest) ← options letters bound args []
  return (found.map (·.1), rest)

/-- The arguments of a command without options. -/
def operands (args : List Bytes) : Sh (List Bytes) := return (← takeOptions "" args).2

def illegalNumber {α : Type} (w : Bytes) : Sh α := fail (bytes "Illegal number: " ++ w)

/-- A number that fits into 31 bits. -/
def number (w : Bytes) : Sh Nat := do
  match Bytes.natural? w with
  | some n => if n ≤ 2147483647 then return n else illegalNumber w
  | none => illegalNumber w

/-- A text in single quotes; quotes in it stand in double quotes. -/
def quoteFrom : Nat → Bytes → Bytes
  | 0, _ => []
  | n + 1, cs =>
    let text := cs.takeWhile (· ≠ '\x27')
    let rest := cs.drop text.length
    let quotes := rest.takeWhile (· = '\x27')
    let start := '\x27' :: text ++ ['\x27']
    if quotes.isEmpty then start
    else
      let after := rest.drop quotes.length
      start ++ '"' :: quotes ++ '"' :: (if after.isEmpty then [] else quoteFrom n after)

def quote (cs : Bytes) : Bytes := quoteFrom (cs.length + 1) cs

def unlines (ls : List Bytes) : Bytes := (ls.map (· ++ ['\n'])).flatten

/-! ## Output -/

/-- The words with blanks between them and a line feed at the end. An escape may end the output. -/
def echoText : List Bytes → Bytes × Bool
  | [] => ([], false)
  | [w] => Escape.decode w
  | w :: rest =>
    let (out, ended) := Escape.decode w
    if ended then (out, true)
    else
      let (more, ended) := echoText rest
      (out ++ ' ' :: more, ended)

def echo : Builtin := fun args => do
  let (silent, args) := match args with
    | ['-', 'n'] :: rest => (true, rest)
    | _ => (false, args)
  let (out, ended) := echoText args
  output (if silent || ended then out else out ++ ['\n'])

def printf : Builtin := fun args => do
  match ← operands args with
  | [] => fail (bytes "usage: printf format [arg ...]")
  | format :: arguments =>
    let finish (p : Printing) (x : Sh Nat) : Sh Nat := do
      p.warnings.reverse.forM warn
      let r ← attempt x
      let written ← output p.chunks.reverse.flatten
      return max (← resume r) written
    match Printing.all format arguments with
    | .again p | .stopped p => finish p (return if p.warnings.isEmpty then 0 else 1)
    | .failed p message => finish p (fail message)

/-! ## Conditions -/

def ofBool (b : Bool) : Nat := if b then 0 else 1

def test : Builtin := fun args => do
  return ofBool (← Condition.evaluate (args.length + 1) false args)

def bracket : Builtin := fun args => do
  if args.getLast? = some [']'] then test args.dropLast else fail (bytes "missing ]")

/-! ## Loops, functions and the end -/

/-- Leaves loops or goes on with them, as many as given. -/
def skipLoops (jump : Nat → Jump) : Builtin := fun args => do
  let levels ← match args with
    | w :: _ => do
      let n ← number w
      if n = 0 then illegalNumber w else pure n
    | [] => pure 1
  let levels := min levels (← get).loops
  if levels = 0 then return 0
  else
    modify ({ · with status := 0 })
    throw (jump levels)

def returnFrom : Builtin := fun args => do
  match args with
  | w :: _ =>
    let n ← number w
    modify ({ · with status := n })
    throw (.returned true)
  | [] => throw (.returned false)

def exit : Builtin := fun args => do
  match args with
  | w :: _ =>
    let n ← number w
    modify ({ · with saved := some n })
  | [] => pure ()
  throw .exit

/-! ## Parameters and variables -/

def shift : Builtin := fun args => do
  let n ← match args with
    | w :: _ => number w
    | [] => pure 1
  let s ← get
  if s.positional.length < n then fail (bytes "can't shift that many")
  else
    set { s with positional := s.positional.drop n, optionPlace := .start }
    return 0

/-- Variables with values as the commands that set them again, in order. -/
def listing (before : Bytes) (test : Variable → Bool) : Sh Nat := do
  let found := (← get).bindings.filter fun v => test v.2
  let sorted := found.mergeSort fun a b => Bytes.isAtMost a.1 b.1
  output (unlines (sorted.map fun v =>
    before ++ v.1 ++ match v.2.value with
      | some value => '=' :: quote value
      | none => []))

/-- The option that each name stands for, in the order in which they are listed. -/
def optionNames : List (String × Char) :=
  [("errexit", 'e'), ("noglob", 'f'), ("ignoreeof", 'I'), ("interactive", 'i'), ("monitor", 'm'),
   ("noexec", 'n'), ("stdin", 's'), ("xtrace", 'x'), ("verbose", 'v'), ("vi", 'V'), ("emacs", 'E'),
   ("noclobber", 'C'), ("allexport", 'a'), ("notify", 'b'), ("nounset", 'u'),
   ("privileged", 'p'), ("nolog", 'L'),
   ("debug", 'D')]

def setOption (on : Bool) (letter : Char) : Sh Unit := modify fun s =>
  let others := s.options.filter (· ≠ letter)
  { s with options := if on then letter :: others else others }

def listOptions (on : Bool) : Sh Unit := do
  let s ← get
  let line (o : String × Char) : Bytes :=
    let set := o.2 ∈ s.options
    if on then
      bytes o.1 ++ List.replicate (16 - o.1.length) ' ' ++ bytes (if set then "on" else "off")
    else bytes (if set then "set -o " else "set +o ") ++ bytes o.1
  let lines := optionNames.map line
  let _ ← output (unlines (if on then bytes "Current option settings" :: lines else lines))

/-- Letters of options in one word. -/
def setLetters (on : Bool) : Bytes → Sh Unit
  | [] => pure ()
  | c :: rest => do
    if optionNames.any (·.2 = c) && c ≠ 'L' && c ≠ 'D' then
      setOption on c
      setLetters on rest
    else fail (bytes "Illegal option -" ++ [c])

/-- Options in front of the parameters; `none` if there are no parameters to set. -/
def setFrom : Nat → List Bytes → Sh (Option (List Bytes))
  | 0, _ => return none
  | n + 1, args => do
    match args with
    | [] => return none
    | ['-', '-'] :: rest => return some rest
    | ['-'] :: rest =>
      setOption false 'x'
      setOption false 'v'
      return if rest.isEmpty then none else some rest
    | (sign :: letters) :: rest =>
      if sign ≠ '-' && sign ≠ '+' then return some args
      else
        let on := sign = '-'
        if letters.getLast? = some 'o' then
          setLetters on letters.dropLast
          match rest with
          | [] =>
            listOptions on
            return none
          | name :: rest =>
            match optionNames.find? fun o => o.1.toList = name with
            | some o =>
              setOption on o.2
              setFrom n rest
            | none => fail (bytes "Illegal option -o " ++ name)
        else
          setLetters on letters
          setFrom n rest
    | [] :: _ => return some args

def setParameters : Builtin := fun args => do
  if args.isEmpty then listing [] (·.value.isSome)
  else
    match ← setFrom (args.length + 1) args with
    | some ps => modify ({ · with positional := ps, optionPlace := .start })
    | none => pure ()
    return 0

/-- A name, with a value if there is an equals sign. -/
def binding (w : Bytes) : Bytes × Option Bytes :=
  let name := w.takeWhile (· ≠ '=')
  match w.drop name.length with
  | _ :: value => (name, some value)
  | [] => (name, none)

def checkName (name : Bytes) : Sh Unit := do
  unless Bytes.isName name do fail (name ++ bytes ": bad variable name")

/-- Gives values to variables and marks them. -/
def mark (toExport readOnly : Bool) (args : List Bytes) : Sh Nat := do
  args.forM fun w => do
    let (name, value) := binding w
    checkName name
    match value with
    | some value => assign name value toExport
    | none => pure ()
    let old := (← marking? name).getD ⟨none, false, false⟩
    storeVariable name
      (some { old with exported := old.exported || toExport, readOnly := old.readOnly || readOnly })
  return 0

def exportVariables : Builtin := fun args => do
  let (_, names) ← takeOptions "p" args
  if names.isEmpty then listing (bytes "export ") (·.exported) else mark true false names

def readOnlyVariables : Builtin := fun args => do
  let (_, names) ← takeOptions "p" args
  if names.isEmpty then listing (bytes "readonly ") (·.readOnly) else mark false true names

def localVariables : Builtin := fun args => do
  if (← get).scopes.isEmpty then fail (bytes "not in a function")
  else
    args.forM fun w => do
      if w = ['-'] then makeOptionsLocal
      else
        let (name, value) := binding w
        checkName name
        makeLocal name
        match value with
        | some value => assign name value false
        | none => pure ()
    return 0

def unset : Builtin := fun args => do
  let (letters, names) ← takeOptions "vf" args
  names.forM fun name => do
    if letters.getLast? = some 'f' then
      modify fun s => { s with functions := Table.unset name s.functions }
    else
      checkName name
      if (← marking? name).isSome then unassign name
      else if letters.isEmpty then
        modify fun s => { s with functions := Table.unset name s.functions }
  return 0

/-- What is known of an option letter: whether it takes a value; `none` for a letter that is not
listed. -/
def optionKind? (letter : Char) : Bytes → Option Bool
  | [] => none
  | [c] => if c = letter then some false else none
  | c :: d :: rest =>
    if c = letter then some (d = ':')
    else if d = ':' then optionKind? letter rest
    else optionKind? letter (d :: rest)

/-- The rest of the options in the word that is being read, and the number of the word after it; or
`none` at the end of the options. -/
def optionText (words : List Bytes) (place : OptionPlace) : Option Bytes × Nat :=
  let current := match place.offset, words[place.word - 2]? with
    | some offset, some w => if 1 < place.word then w.drop offset else []
    | _, _ => []
  if !current.isEmpty then (some current, place.word)
  else
    match words[place.word - 1]? with
    | some ['-', '-'] => (none, place.word + 1)
    | some ('-' :: c :: cs) => (some (c :: cs), place.word + 1)
    | _ => (none, place.word)

def getopts : Builtin := fun args => do
  match args with
  | letters :: name :: rest =>
    let s ← get
    let words := if rest.isEmpty then s.positional else rest
    let place := if words.length + 1 < s.optionPlace.word then .start else s.optionPlace
    let silent := letters.head? = some ':'
    let finish (answer : Char) (word : Nat) (left : Bytes) (status : Nat) : Sh Nat := do
      let read := (words[word - 2]?.getD []).length - left.length
      assign (bytes "OPTIND") (Bytes.ofNat word) false
      assign name [answer] false
      modify ({ · with optionPlace := ⟨word, if left.isEmpty then none else some read⟩ })
      return status
    match optionText words place with
    | (none, word) => finish '?' word [] 1
    | (some [], word) => finish '?' word [] 1
    | (some (c :: left), word) =>
      match optionKind? c letters with
      | none =>
        if silent then assign (bytes "OPTARG") [c] false
        else
          complain (bytes "Illegal option -" ++ [c])
          unassign (bytes "OPTARG")
        finish '?' word left 0
      | some false =>
        assign (bytes "OPTARG") [] false
        finish c word left 0
      | some true =>
        match left, words[word - 1]? with
        | _ :: _, _ =>
          assign (bytes "OPTARG") left false
          finish c word [] 0
        | [], some value =>
          assign (bytes "OPTARG") value false
          finish c (word + 1) [] 0
        | [], none =>
          if silent then
            assign (bytes "OPTARG") [c] false
            finish ':' word [] 0
          else
            complain (bytes "No arg for -" ++ [c] ++ bytes " option")
            unassign (bytes "OPTARG")
            finish '?' word [] 0
  | _ => fail (bytes "Usage: getopts optstring var [arg...]")

/-! ## Input -/

/-- A line, each byte with whether a backslash stood before it, in reverse; and whether it ended with a
line feed. -/
def readLine (raw : Bool) : Nat → Bool → List Marked → Sh (List Marked × Bool)
  | 0, _, _ => endless
  | n + 1, afterBackslash, acc => do
    match ← system (.read 0 1) with
    | .ok (c :: _) =>
      if afterBackslash then
        if c = '\n' then readLine raw n false acc else readLine raw n false (⟨c, true⟩ :: acc)
      else if c = '\n' then return (acc, true)
      else if c = '\\' && !raw then readLine raw n true acc
      else if c = fieldMark then readLine raw n false acc
      else readLine raw n false (⟨c, false⟩ :: acc)
    | _ => return (acc, false)

def read : Builtin := fun args => do
  let (letters, names) ← takeOptions "rp:" args
  if names.isEmpty then fail (bytes "arg count")
  else
    let (line, ended) ← readLine ('r' ∈ letters) repeats false []
    let as := line.reverse.map fun m => Atom.byte m.char m.quoted !m.quoted
    let fields := (Atom.split (← separators) (some names.length) as).map Marked.text
    (names.zip (fields ++ names.map fun _ => [])).forM fun (name, value) => do
      checkName name
      assign name value false
    return ofBool ended

/-! ## Directories -/

/-- The steps of a path, with dots worked out as they are written. -/
def tidySteps : List Bytes → List Bytes → List Bytes
  | [], acc => acc.reverse
  | step :: rest, acc =>
    if step = [] || step = ['.'] then tidySteps rest acc
    else if step = ['.', '.'] then tidySteps rest acc.tail
    else tidySteps rest (step :: acc)

def tidy (path : Bytes) : Bytes := '/' :: Bytes.join ['/'] (tidySteps (path.splitOn '/') [])

/-- Goes to a directory, and yields its path as the shell shows it. -/
def enter (physical : Bool) (goal : Bytes) : Sh (Option Bytes) := do
  let s ← get
  let full := pathFrom s.directory goal
  let shown := if physical then full else tidy full
  match ← system (.inspect true shown) with
  | .error _ => return none
  | .ok info =>
    if !info.isDirectory then return none
    else
      let canonical ← system (.resolve full)
      let shown := if physical then canonical.toOption.getD shown else shown
      modify ({ · with directory := shown })
      assign (bytes "OLDPWD") s.directory false
      assign (bytes "PWD") shown false
      return some shown

/-- The directories where the goal of a change is looked for, each with whether the change is shown. -/
def searched (goal : Bytes) : Sh (List (Bytes × Bool)) := do
  let first := (goal.splitOn '/').head?.getD []
  if first = [] || first = ['.'] || first = ['.', '.'] then return [(goal, false)]
  else
    match ← value? (bytes "CDPATH") with
    | none => return [(goal, false)]
    | some places =>
      let all := (places.splitOn ':').map fun place =>
        if place.isEmpty then (goal, false) else (place ++ '/' :: goal, true)
      return all ++ [(goal, false)]

def changeDirectory : Builtin := fun args => do
  let (letters, rest) ← takeOptions "LP" args
  let s ← get
  let back := rest.head? = some ['-']
  let goal ← match rest with
    | [] => pure ((← value? (bytes "HOME")).getD [])
    | w :: _ => if back then pure ((← value? (bytes "OLDPWD")).getD s.directory) else pure w
  let goal := if goal.isEmpty then ['.'] else goal
  let rec first : List (Bytes × Bool) → Sh Nat
    | [] => fail (bytes "can't cd to " ++ goal)
    | (place, shows) :: more => do
      match ← enter (letters.getLast? = some 'P') place with
      | some shown => if back || shows then output (shown ++ ['\n']) else return 0
      | none => first more
  first (← searched goal)

def printDirectory : Builtin := fun args => do
  let (letters, _) ← takeOptions "LP" args
  let directory := (← get).directory
  if letters.getLast? = some 'P' then
    output ((← system (.resolve directory)).toOption.getD directory ++ ['\n'])
  else output (directory ++ ['\n'])

/-! ## Signals -/

def killUsage : Bytes :=
  bytes "Usage: kill [-s sigspec | -signum | -sigspec] [pid | job]... or\nkill -l [exitstatus]"

def signalList : Bytes :=
  unlines (['0'] :: (List.range' 1 (signalCount - 1)).map signalName)

/-- The job that a percent sign and its number or a sign stand for. -/
def jobOf (w : Bytes) : Sh Job := do
  let jobs := (← get).jobs
  let unknown {α : Type} : Sh α := fail (bytes "No such job: " ++ w)
  let found (j? : Option Job) (otherwise : String) : Sh Job :=
    match j? with
    | some j => return j
    | none => fail (bytes otherwise)
  match w with
  | ['%'] | ['%', '%'] | ['%', '+'] => found jobs.head? "No current job"
  | ['%', '-'] => found (jobs.drop 1).head? "No previous job"
  | '%' :: digits =>
    match (Bytes.natural? digits).bind fun n => jobs.find? (·.slot = n) with
    | some j => return j
    | none => unknown
  | _ => unknown

/-- The process, or the group after a minus sign or of a job, that signals go to. -/
def targetOf (w : Bytes) : Sh Int := do
  match w with
  | '%' :: _ => return -((((← jobOf w).processes.head?.map (·.1)).getD 0 : Nat) : Int)
  | '-' :: rest => return -((← number rest : Nat) : Int)
  | _ => return (← number w : Nat)

def kill : Builtin := fun args => do
  let send (signal : Nat) (targets : List Bytes) : Sh Nat := do
    if targets.isEmpty then fail killUsage
    else
      let failures ← targets.filterM fun w => do
        let sent ← system (.kill (← targetOf w) signal)
        unless sent do warn (bytes "No such process\n")
        return !sent
      return ofBool failures.isEmpty
  match args with
  | [] => fail killUsage
  | w :: rest =>
    match w with
    | '-' :: spec =>
      match (if spec = ['0'] then some 0 else if spec.isEmpty then none else signalOf? spec) with
      | some signal => send signal rest
      | none =>
        let bound := args.flatten.length + args.length + 1
        let (found, rest) ← options "ls:" bound args []
        match found.getLast? with
        | some ('s', name) =>
          match signalOf? name with
          | some signal => send signal rest
          | none => fail (bytes "invalid signal number or name: " ++ name)
        | some _ =>
          match rest with
          | [] => output signalList
          | w :: _ =>
            let n ← number w
            let n := if 128 < n then n - 128 else n
            if 0 < n && n < signalCount then output (signalName n ++ ['\n'])
            else fail (bytes "invalid signal number or exit status: " ++ w)
        | none => send 15 rest
    | _ => send 15 args

/-- Sets what is done when signals come. -/
def setTraps (action : Option Bytes) : List Bytes → Sh Nat
  | [] => return 0
  | w :: rest => do
    match signalOf? w with
    | none =>
      complain (bytes "trap: " ++ w ++ bytes ": bad trap")
      return 1
    | some signal =>
      modify fun s =>
        { s with traps := match action with
          | none => Table.unset signal s.traps
          | some a => Table.set signal a s.traps }
      unless signal = 0 do
        system (.handle signal (action.map fun a => if a.isEmpty then .ignored else .caught))
      setTraps action rest

def trap : Builtin := fun args => do
  match ← operands args with
  | [] =>
    let traps := (← get).traps.mergeSort fun a b => a.1 ≤ b.1
    output (unlines (traps.map fun t =>
      bytes "trap -- " ++ quote t.2 ++ ' ' :: signalName t.1))
  | w :: rest =>
    if rest.isEmpty || (Bytes.natural? w).isSome then setTraps none (w :: rest)
    else setTraps (if w = ['-'] then none else some w) rest

/-! ## Names of commands -/

def nameAliases : Builtin := fun args => do
  let line (a : Bytes × Bytes) : Bytes := a.1 ++ '=' :: quote a.2 ++ ['\n']
  if args.isEmpty then
    output (((← get).aliases.mergeSort fun a b => Bytes.isAtMost a.1 b.1).map line).flatten
  else
    let statuses ← args.mapM fun w => do
      match binding w with
      | (name, some value) =>
        modify fun s => { s with aliases := Table.set name value s.aliases }
        return 0
      | (name, none) =>
        match (← get).aliases.lookup name with
        | some value => output (line (name, value))
        | none =>
          complain (bytes "alias: " ++ name ++ bytes " not found")
          return 1
    return statuses.foldl max 0

def dropAliases : Builtin := fun args => do
  let (letters, names) ← takeOptions "a" args
  if 'a' ∈ letters then
    modify ({ · with aliases := [] })
    return 0
  else
    let statuses ← names.mapM fun name => do
      let s ← get
      if (s.aliases.lookup name).isSome then
        modify fun s => { s with aliases := Table.unset name s.aliases }
        return 0
      else
        complain (bytes "unalias: " ++ name ++ bytes " not found")
        return 1
    return statuses.foldl max 0

/-! ## Children -/

def noteEnd (pid : Nat) (status : ExitStatus) : Sh Unit := modify fun s =>
  { s with jobs := s.jobs.map (Job.note pid status) }

def markWaited (slots : List Nat) : Sh Unit := modify fun s =>
  { s with jobs := s.jobs.map fun j => if j.slot ∈ slots then { j with waited := true } else j }

/-- Waits until a job has ended, unless a trap comes first. -/
def waitForJob (slot : Nat) : Nat → Sh Nat
  | 0 => endless
  | n + 1 => do
    match (← get).jobs.find? (·.slot = slot) with
    | none => return 127
    | some j =>
      match j.processes.find? (·.2.isNone) with
      | none =>
        markWaited [slot]
        return (j.ending?.map statusOf).getD 0
      | some (pid, _) =>
        match ← system (.wait (some pid) true) with
        | .ended _ status =>
          match status with
          | .signal k => unless k = 2 || k = 13 do complain (signalText k)
          | .code _ => pure ()
          noteEnd pid status
          waitForJob slot n
        | .interrupted =>
          collectSignals
          return 128 + ((← get).caught.head?.getD 0)
        | .noChild => return 127
        | .running => waitForJob slot n

/-- Waits for all children, unless a trap comes first. -/
def waitForAll : Nat → Sh Nat
  | 0 => endless
  | n + 1 => do
    match ← system (.wait none true) with
    | .ended pid status =>
      noteEnd pid status
      waitForAll n
    | .interrupted =>
      collectSignals
      return 128 + ((← get).caught.head?.getD 0)
    | .noChild | .running =>
      markWaited ((← get).jobs.map (·.slot))
      return 0

def wait : Builtin := fun args => do
  let targets ← operands args
  if targets.isEmpty then waitForAll repeats
  else
    let statuses ← targets.mapM fun w => do
      if w.head? = some '%' then waitForJob (← jobOf w).slot repeats
      else
        let pid ← number w
        match (← get).jobs.find? (·.pid = pid) with
        | some j => waitForJob j.slot repeats
        | none => return 127
    return statuses.getLast?.getD 0

/-- Notes which children have ended meanwhile. -/
def noteEnds : Nat → Sh Unit
  | 0 => endless
  | n + 1 => do
    match ← system (.wait none false) with
    | .ended pid status =>
      noteEnd pid status
      noteEnds n
    | _ => pure ()

def endingText : ExitStatus → Bytes
  | .code 0 => bytes "Done"
  | .code n => bytes "Done(" ++ Bytes.ofNat n ++ [')']
  | .signal k => signalText k

/-- How a job is listed, with the ids of its processes if asked for. -/
def jobText (mark : Char) (withIds : Bool) (j : Job) : Bytes :=
  let number := bytes "[" ++ Bytes.ofNat j.slot ++ bytes "] " ++ [mark, ' ']
  let fill (width : Nat) : Bytes := List.replicate (max 1 (33 - width)) ' '
  let state := if j.isRunning then bytes "Running" else (j.ending?.map endingText).getD []
  let id (pid : Nat) : Bytes := if withIds then Bytes.ofNat pid ++ [' '] else []
  let first := number ++ id ((j.processes.head?.map (·.1)).getD 0) ++ state
  let rest := (j.processes.drop 1).map fun (pid, _) =>
    let line := List.replicate number.length ' ' ++ id pid
    bytes "|\n" ++ line ++ fill line.length
  first ++ fill first.length ++ (if withIds then rest.flatten else []) ++ ['\n']

/-- Lists jobs. Those that have ended are listed once. -/
def listJobs : Builtin := fun args => do
  let (letters, names) ← takeOptions "lp" args
  noteEnds repeats
  let all := (← get).jobs
  let chosen ← if names.isEmpty then pure all else names.mapM jobOf
  let lines := chosen.map fun j =>
    let mark := if all.head?.any (·.slot = j.slot) then '+'
      else if (all.drop 1).head?.any (·.slot = j.slot) then '-' else ' '
    if letters.getLast? = some 'p' then
      Bytes.ofNat ((j.processes.head?.map (·.1)).getD 0) ++ ['\n']
    else jobText mark (letters.getLast? = some 'l') j
  let status ← output lines.flatten
  unless letters.getLast? = some 'p' do
    let gone := (chosen.filter (!·.isRunning)).map (·.slot)
    modify fun s => { s with jobs := s.jobs.filter (·.slot ∉ gone) }
  return status

/-- Jobs are never brought to the front, as none has a terminal. -/
def noJob : Builtin := fun args => do
  match args with
  | [] =>
    let _ ← jobOf ['%']
    fail (bytes "job (null) not created under job control")
  | w :: _ =>
    let _ ← jobOf w
    fail (bytes "job " ++ w ++ bytes " not created under job control")

/-! ## The rest -/

/-- The permissions that a mask leaves, for owner, group and others. -/
def permissions (mask : Nat) : Bytes :=
  let rights (bits : Nat) : Bytes :=
    (if bits / 4 % 2 = 0 then ['r'] else []) ++ (if bits / 2 % 2 = 0 then ['w'] else []) ++
      (if bits % 2 = 0 then ['x'] else [])
  bytes "u=" ++ rights (mask / 64 % 8) ++ bytes ",g=" ++ rights (mask / 8 % 8) ++ bytes ",o=" ++
    rights (mask % 8)

/-- The mask for the permissions of new files. -/
def umask : Builtin := fun args => do
  let (letters, rest) ← takeOptions "S" args
  let mask ← system (.mask none)
  let change (new : Nat) : Sh Nat := do
    let _ ← system (.mask (some (new % 512)))
    return 0
  match rest with
  | [] =>
    if 'S' ∈ letters then output (permissions mask ++ ['\n'])
    else
      let digits := Nat.toDigits 8 mask
      output (List.replicate (4 - digits.length) '0' ++ digits ++ ['\n'])
  | w :: _ =>
    if w.head?.any Char.isDigit then
      match Text.readDigits? 8 w with
      | some n => change n
      | none => illegalNumber w
    else
      match Permissions.changed 0 (511 - mask) (w.length + 1) 0 (511 - mask) w with
      | some mode => change (511 - mode)
      | none => fail (bytes "Illegal mode: " ++ w)

/-- A bound in the unit of a resource. -/
def boundText (unit : Nat) (bound : Option Nat) : Bytes :=
  match bound with
  | some n => Bytes.ofNat (n / unit)
  | none => bytes "unlimited"

/-- Shows limits, or sets one. Without a choice, both the soft and the hard limit are set, and the soft one
is shown. -/
def ulimit : Builtin := fun args => do
  let (letters, rest) ← takeOptions "HSatfdscmlpnvwr" args
  let ways := letters.filter fun c => c = 'H' || c = 'S'
  let hardOnly := ways.getLast? = some 'H'
  let softOnly := ways.getLast? = some 'S'
  let shown (l : Limit) : Option Nat := if hardOnly then l.hard else l.soft
  let kinds := letters.filter fun c => c ≠ 'H' && c ≠ 'S' && c ≠ 'a'
  let all := 'a' ∈ letters
  let kind := kinds.getLast?.getD 'f'
  match rest, resourceForms.find? (·.letter = kind) with
  | [], some f =>
    if all then
      let lines ← resourceForms.mapM fun f => do
        let l ← system (.limit f.resource)
        let fill := List.replicate (20 - f.name.length) ' '
        return bytes f.name ++ fill ++ ' ' :: boundText f.unit (shown l) ++ ['\n']
      output lines.flatten
    else
      let l ← system (.limit f.resource)
      output (boundText f.unit (shown l) ++ ['\n'])
  | [w], some f =>
    if all then fail (bytes "too many arguments")
    else
      let bound ←
        if w = bytes "unlimited" then pure none
        else if w.all Char.isDigit then pure (some (f.unit * (Bytes.natural? w).getD 0))
        else fail (bytes "bad number")
      let old ← system (.limit f.resource)
      let new : Limit :=
        { soft := if hardOnly then old.soft else bound, hard := if softOnly then old.hard else bound }
      match ← system (.setLimit f.resource new) with
      | none => return 0
      | some fault => fail (bytes "error setting limit (" ++ fault.text ++ [')'])
  | _, _ => fail (bytes "too many arguments")

def times : Builtin := fun _ =>
  output (bytes "0m0.000000s 0m0.000000s\n0m0.000000s 0m0.000000s\n")

def succeed : Builtin := fun _ => return 0

/-- Commands with their names as bytes. -/
def named (table : List (String × Builtin)) : List (Bytes × Builtin) :=
  table.map fun b => (bytes b.1, b.2)

/-- Commands whose errors end the shell, and before which assignments stay. -/
def special : List (Bytes × Builtin) :=
  named [(":", succeed), ("break", skipLoops .leave), ("continue", skipLoops .again), ("exit", exit),
   ("export", exportVariables), ("readonly", readOnlyVariables), ("return", returnFrom),
   ("set", setParameters), ("shift", shift), ("times", times), ("trap", trap), ("unset", unset),
   ("local", localVariables)]

def regular : List (Bytes × Builtin) :=
  named [("echo", echo), ("printf", printf), ("test", test), ("[", bracket), ("true", succeed),
   ("false", fun _ => return 1), ("getopts", getopts), ("read", read), ("cd", changeDirectory),
   ("chdir", changeDirectory), ("pwd", printDirectory), ("kill", kill), ("alias", nameAliases),
   ("unalias", dropAliases), ("wait", wait), ("umask", umask), ("ulimit", ulimit),
   ("jobs", listJobs), ("fg", noJob), ("bg", noJob)]

/-- Special commands that run other commands. -/
def specialRunners : List Bytes := [".", "eval", "exec"].map bytes

def regularRunners : List Bytes := ["command", "type", "hash"].map bytes

def isSpecial (name : Bytes) : Bool := Bytes.isAmong name specialRunners || (special.lookup name).isSome

def isBuiltin (name : Bytes) : Bool :=
  isSpecial name || (regular.lookup name).isSome || Bytes.isAmong name regularRunners

/-- Commands whose arguments are assignments. -/
def assignNames : List Bytes := ["export", "readonly", "local", "alias"].map bytes

def assigns (name : Bytes) : Bool := Bytes.isAmong name assignNames

def lookup? (name : Bytes) : Option Builtin := (special ++ regular).lookup name

end Builtin
end ValueInspector.Shell
