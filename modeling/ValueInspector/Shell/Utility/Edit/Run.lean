import ValueInspector.Shell.Growing
import ValueInspector.Shell.Utility.Edit.Reader
import ValueInspector.Shell.Utility.Process

/-! # Running scripts of the stream editor

Lines come in one after the other, a script changes each of them, and what is left goes out. A line
whose end was missing goes out without one, until something follows it.
-/
namespace ValueInspector.Shell.Edit

/-! ## State -/

/-- Lines that are still to come. -/
structure Input where
  waiting : List Bytes
  /-- The open file and its name. -/
  current : Option (Nat × Bytes)
  /-- Whole lines, each with whether its end was there. -/
  lines : List (Bytes × Bool)
  /-- The start of a line, in chunks, the latest first. -/
  pending : List Bytes

/-- A place where lines go. -/
structure Sink where
  /-- Without a descriptor, what comes is kept. -/
  descriptor : Option Nat
  /-- What was not written so far, in chunks, the latest first. -/
  chunks : List Bytes
  size : Nat
  /-- The last line lacks its end. -/
  unfinished : Bool

inductive Queued where
  | text (t : Bytes)
  | file (name : Bytes)

inductive RangeState where
  /-- The line where the range ends, if that is known. -/
  | inside (stop : Option Nat)
  | outside
deriving DecidableEq

structure State where
  input : Input
  /-- Where lines go, by name; the first one, without a name, takes what is not sent elsewhere. -/
  sinks : List (Bytes × Sink)
  /-- Lines of files that are read line by line, by name. -/
  sources : List (Bytes × List Bytes)
  line : Growing
  ended : Bool
  kept : Growing
  keptEnded : Bool
  number : Nat
  name : Bytes
  replaced : Bool
  /-- What comes out at the end of the cycle, the latest first. -/
  queue : List Queued
  ranges : List (Nat × RangeState)
  latest : Option Search
  status : Nat

/-- What does not change in a run. -/
structure Config where
  invocation : Invocation
  starter : Utility.Starter
  script : Script
  silent : Bool
  separate : Bool
  /-- Files are changed in place, and the old ones are kept under a name with this ending. -/
  inPlace : Option Bytes
  stop : Char
  unbuffered : Bool
  width : Nat

/-- A run ends early with a status. -/
abbrev Run := ExceptT Nat (StateT State Task)

def task {α : Type} (t : Task α) : Run α := ExceptT.lift (StateT.lift t)

def system (c : Call) : Run c.Answer := task (Task.call c)

/-- Ends the run with a complaint. -/
def fail {α : Type} (c : Config) (message : Bytes) (status : Nat) : Run α := do
  task (Utility.complain c.invocation message)
  throw status

/-! ## Output -/

/-- Output is held back up to this size. -/
def bufferSize : Nat := 4096

def flush (c : Config) (name : Bytes) : Run Unit := do
  match (← get).sinks.lookup name with
  | some ⟨some fd, chunks, _, unfinished⟩ =>
    modify fun s => { s with sinks := Table.set name ⟨some fd, [], 0, unfinished⟩ s.sinks }
    let data := chunks.reverse.flatten
    if !data.isEmpty then
      match ← system (.write fd data) with
      | none => pure ()
      | some f => fail c (bytes "couldn't write to output: " ++ f.text) 4
  | _ => pure ()

/-- Writes to a sink, after the end of a line that lacked it. -/
def write (c : Config) (name data : Bytes) (unfinished : Bool) : Run Unit := do
  match (← get).sinks.lookup name with
  | none => pure ()
  | some sink =>
    let data := if sink.unfinished then c.stop :: data else data
    let sink := { sink with
      chunks := data :: sink.chunks, size := sink.size + data.length, unfinished }
    modify fun s => { s with sinks := Table.set name sink s.sinks }
    if c.unbuffered || bufferSize ≤ sink.size || !name.isEmpty then flush c name

def writeLine (c : Config) (name line : Bytes) (ended : Bool) : Run Unit :=
  write c name (if ended then line ++ [c.stop] else line) (!ended)

/-- What was queued comes out. -/
def emptyQueue (c : Config) : Run Unit := do
  let queue := (← get).queue.reverse
  modify fun s => { s with queue := [] }
  queue.forM fun q => do
    match q with
    | .text t => write c [] t false
    | .file name =>
      match ← task (Utility.contents c.invocation (if name = ['-'] then bytes "./-" else name)) with
      | .ok data => if data.isEmpty then pure () else write c [] data false
      | .error _ => pure ()

/-! ## Input -/

/-- Puts what was collected for a file in its place. -/
def finishFile (c : Config) : Run Unit := do
  match c.inPlace, (← get).sinks.lookup [] with
  | some ending, some ⟨none, chunks, _, _⟩ =>
    let name := (← get).name
    let path := Utility.pathOf c.invocation name
    let mode := ((← system (.inspect true path)).toOption.map FileInfo.mode).getD 420
    if !ending.isEmpty then
      let base := (name.reverse.takeWhile (· ≠ '/')).reverse
      let front := name.take (name.length - base.length)
      let kept := if '*' ∈ ending then ending.flatMap fun e => if e = '*' then base else [e]
        else base ++ ending
      let kept := if '/' ∈ kept then kept else front ++ kept
      let _ ← system (.change (.rename path (Utility.pathOf c.invocation kept)))
    match ← system (.openFile path .write) with
    | .ok fd =>
      let _ ← system (.write fd chunks.reverse.flatten)
      system (.close fd)
      let _ ← system (.change (.mode path mode))
    | .error f => fail c (bytes "couldn't open temporary file: " ++ f.text) 4
    modify fun s => { s with sinks := Table.set [] ⟨some 1, [], 0, false⟩ s.sinks }
  | _, _ => pure ()

/-- Opens the next file. -/
def openNext (c : Config) (name : Bytes) : Run Unit := do
  let refuse (message : Bytes) (status : Nat) : Run Unit := do
    task (Utility.complain c.invocation message)
    modify fun s => { s with status }
  let path := Utility.pathOf c.invocation name
  let stdin := name = ['-'] && c.inPlace.isNone
  match ← (if stdin then pure (.ok 0) else system (.openFile path .read)) with
  | .error f => refuse (bytes "can't read " ++ name ++ bytes ": " ++ f.text) 2
  | .ok fd =>
    let regular := match ← system (.inspect true path) with
      | .ok info => info.kind = .regular
      | .error _ => false
    if c.inPlace.isSome && !regular then
      system (.close fd)
      refuse (bytes "couldn't edit " ++ name ++ bytes ": not a regular file") 4
    else
      modify fun s =>
        { s with
          input := { s.input with current := some (fd, name) }
          name
          number := if c.separate then 0 else s.number
          ranges := if c.separate then [] else s.ranges
          sinks := if c.inPlace.isSome then Table.set [] ⟨none, [], 0, false⟩ s.sinks else s.sinks }

/-- Sees to it that a line is there, if one is left. Without `beyond`, other files are not looked at. -/
def fill (c : Config) (beyond : Bool) : Nat → Run Bool
  | 0 => return false
  | n + 1 => do
    let input := (← get).input
    match input.lines, input.current, input.waiting with
    | _ :: _, _, _ => return true
    | [], none, [] =>
      if beyond then finishFile c
      return false
    | [], none, name :: rest =>
      if beyond then
        finishFile c
        modify fun s => { s with input := { s.input with waiting := rest } }
        openNext c name
        fill c beyond n
      else return false
    | [], some (fd, name), _ =>
      match ← system (.read fd bufferSize) with
      | .error f => fail c (bytes "read error on " ++ name ++ bytes ": " ++ f.text) 4
      | .ok [] =>
        task (Utility.closeInput fd)
        let lines := if input.pending.isEmpty then []
          else [(input.pending.reverse.flatten, false)]
        modify fun s => { s with input := { s.input with current := none, lines, pending := [] } }
        fill c beyond n
      | .ok data =>
        let parts := data.splitOn c.stop
        let input := match parts with
          | first :: rest@(_ :: _) =>
            let all := (first :: input.pending).reverse.flatten :: rest
            { input with
              lines := all.dropLast.map (·, true)
              pending := (all.getLast?.toList).filter (!·.isEmpty) }
          | _ => { input with pending := data :: input.pending }
        modify fun s => { s with input }
        fill c beyond n

/-- Whether the line is the last one. -/
def isLast (c : Config) : Run Bool := return !(← fill c (!c.separate) Sh.repeats)

/-- Reads the next line; with `append` it is added to the one that is there. -/
def readLine (c : Config) (append : Bool) : Run Bool := do
  emptyQueue c
  modify fun s => { s with replaced := false }
  if ← fill c true Sh.repeats then
    modify fun s =>
      match s.input.lines with
      | [] => s
      | (line, ended) :: lines =>
        { s with
          input := { s.input with lines }
          line := if append then s.line.append (.ofBytes (c.stop :: line)) else .ofBytes line
          ended, number := s.number + 1 }
    return true
  else return false

/-- The line as a whole. -/
def lineText : Run Bytes := do
  let w := (← get).line.toBytes
  modify ({ · with line := .ofBytes w })
  return w

/-- A text of this length is copied in no time. -/
def freeLength : Nat := 1000000

/-- A text with another one as a line after it. -/
def grown (c : Config) (g h : Growing) : Run Growing := do
  if freeLength < h.size then system (.compute (h.size - freeLength))
  return (g.append (.ofBytes [c.stop])).append h

/-! ## Addresses -/

/-- The expression that is meant, which is then the latest one. -/
def searchFor (c : Config) (s : Option Search) : Run Search := do
  match s.or (← get).latest with
  | some s =>
    modify ({ · with latest := some s })
    return s
  | none => fail c (bytes "no previous regular expression") 1

def fits (c : Config) : Address → Run Bool
  | .line n => return (← get).number = n
  | .steps first step => return first ≤ (← get).number && ((← get).number - first) % step = 0
  | .last => isLast c
  | .fits s => do
    let s ← searchFor c s
    return s.regex.occursIn s.mode (← lineText)

/-- The line where a range that starts here ends, if that is known. It is never before this line. -/
def rangeStop (number : Nat) : Bound → Option Nat
  | .at (.line n) => some (max n number)
  | .after k => some (number + k)
  | .multiple 0 => some number
  | .multiple m => some ((number / m + 1) * m)
  | .at _ => none

/-- Whether a step is for the line that is there, and whether the line is within its range and not at
the end of it. -/
def applies (c : Config) (position : Nat) (step : Step) : Run (Bool × Bool) := do
  let note (r : RangeState) : Run Unit := modify fun s => { s with ranges := Table.set position r s.ranges }
  match step.first, step.second with
  | none, _ => return (true, false)
  | some a, none => return (← fits c a, false)
  | some a, some b =>
    let number := (← get).number
    let begun := match a with
      | .line 0 => RangeState.inside none
      | _ => .outside
    match ((← get).ranges.lookup position).getD begun with
    | .inside (some stop) =>
      if stop ≤ number then note .outside
      return (number ≤ stop, number < stop)
    | .inside none =>
      let ends ← match b with
        | .at a => fits c a
        | _ => pure true
      note (if ends then .outside else .inside none)
      return (true, !ends)
    | .outside =>
      if ← fits c a then
        let stop := rangeStop number b
        let ends ← match stop, b with
          | some n, _ => pure (decide (n ≤ number))
          | none, .at .last => isLast c
          | none, _ => pure false
        note (if ends then .outside else .inside stop)
        return (true, !ends)
      else return (false, false)

/-! ## Changes -/

def LetterCase.apply : LetterCase → Char → Char
  | .lower => Char.toLower
  | .upper => Char.toUpper

def Recasing.apply (r : Recasing) (text : Bytes) : Bytes :=
  let others (cs : Bytes) : Bytes := match r.rest with
    | some l => cs.map l.apply
    | none => cs
  match r.first, text with
  | some l, c :: rest => l.apply c :: others rest
  | _, _ => others text

/-- The text for a match. A change of a first letter that met an empty group waits for the next part. -/
def expand (whole : Bytes) (groups : List (Nat × Bytes)) :
    Option LetterCase → List ReplacePart → Bytes
  | _, [] => []
  | waiting, p :: rest =>
    let recasing := if p.recasing.first.isSome then p.recasing
      else { p.recasing with first := waiting }
    let text := recasing.apply p.text
    let after := if p.text.isEmpty then recasing else { recasing with first := none }
    match p.group with
    | none => text ++ expand whole groups none rest
    | some k =>
      let found := if k = 0 then whole else (groups.lookup k).getD []
      let waiting := if found.isEmpty && p.recasing.first.isSome then after.first else none
      text ++ after.apply found ++ expand whole groups waiting rest

/-- A line with matches replaced. `count` matches were found so far, and the last one ended at `last`;
an empty match there does not count. -/
def replaceFrom (s : Search) (sub : Substitution) :
    Nat → Nat → Option Nat → Regex.Place → List Bytes → Bool → Bytes × Bool
  | 0, _, _, p, acc, done => (acc.reverse.flatten ++ p.ahead, done)
  | n + 1, count, last, p, acc, done =>
    match s.regex.search? s.mode p with
    | none => (acc.reverse.flatten ++ p.ahead, done)
    | some (start, stop) =>
      let acc := p.between start :: acc
      let whole := start.between stop
      let isEmpty := whole.isEmpty
      let forward (count : Nat) (acc : List Bytes) (done : Bool) : Bytes × Bool :=
        if isEmpty then
          match start.step with
          | some (c, q) => replaceFrom s sub n count none q ([c] :: acc) done
          | none => (acc.reverse.flatten, done)
        else replaceFrom s sub n count (some stop.index) stop acc done
      if isEmpty && last = some start.index then forward count acc done
      else if count + 1 < sub.nth then forward (count + 1) (whole :: acc) done
      else
        let acc := expand whole stop.groups none sub.parts :: acc
        if sub.everywhere then forward (count + 1) acc true
        else (acc.reverse.flatten ++ stop.ahead, true)

/-- A line in a form that shows every byte, with lines of at most so many places. -/
def shown (width : Nat) (line : Bytes) : Bytes :=
  let piece (c : Char) : Bytes :=
    match List.lookup c
        [('\\', '\\'), (Char.ofNat 7, 'a'), (Char.ofNat 8, 'b'), (Char.ofNat 12, 'f'), ('\n', 'n'),
         ('\r', 'r'), ('\t', 't'), (Char.ofNat 11, 'v')] with
    | some l => ['\\', l]
    | none =>
      if 32 ≤ c.toNat && c.toNat < 127 then [c]
      else
        let digits := Nat.toDigits 8 c.toNat
        '\\' :: (List.replicate (3 - digits.length) '0' ++ digits)
  let (chunks, _) := line.foldl
    (fun ((chunks, used) : List Bytes × Nat) c =>
      let p := piece c
      if 0 < width && width - 1 < used + p.length then (p :: ['\\', '\n'] :: chunks, p.length)
      else (p :: chunks, used + p.length))
    ([], 0)
  chunks.reverse.flatten ++ ['$']

/-- The output of a shell command. -/
def outputOf (c : Config) (command : Bytes) : Run Bytes := do
  flush c []
  let (out, inn) ← system .pipe
  let child : Task Nat := do
    let _ ← Task.call (.copy inn 1)
    Task.call (.close inn)
    Task.call (.close out)
    c.starter.execute (bytes "/bin/sh") { c.invocation with arguments := [bytes "sh", bytes "-c", command] }
  let pid ← task (Task.fork child.program)
  system (.close inn)
  let data ← task (Sh.readAll out Sh.repeats [])
  system (.close out)
  let _ ← task (Utility.awaitStatus pid Sh.repeats)
  return data.toOption.getD []

/-- Runs the line as a command; its output is the new line. -/
def evaluate (c : Config) : Run Unit := do
  let data ← outputOf c (← lineText)
  let line := if data.getLast? = some c.stop then data.dropLast else data
  modify ({ · with line := .ofBytes line })

def substitute (c : Config) (sub : Substitution) : Run Unit := do
  let s ← searchFor c sub.search
  let line ← lineText
  let (new, done) := replaceFrom s sub (2 * line.length + 4) 0 none (.ofText line) [] false
  if done then
    modify ({ · with line := .ofBytes new, replaced := true })
    if sub.evaluates then evaluate c
    let state ← get
    if sub.prints then writeLine c [] state.line.toBytes state.ended
    match sub.file with
    | some name => writeLine c name state.line.toBytes state.ended
    | none => pure ()

/-- The next line of a file that is read line by line. -/
def nextOf (c : Config) (name : Bytes) : Run (Option Bytes) := do
  let lines ← match (← get).sources.lookup name with
    | some lines => pure lines
    | none =>
      match ← task (Utility.contents c.invocation name) with
      | .ok data => pure (Utility.wholeLines c.stop data)
      | .error _ => pure []
  modify fun s => { s with sources := Table.set name (lines.drop 1) s.sources }
  return lines.head?

/-! ## The script -/

/-- How a pass over the script ends. -/
inductive Outcome where
  | finished
  | deleted
  /-- The script starts again with what is left of the line. -/
  | again
  | quit (status : Nat)

/-- What comes after a step. -/
inductive Next where
  | step
  | at (position : Nat)
  | out (o : Outcome)

/-- The part of a line up to its first end. -/
def firstLine (c : Config) (line : Bytes) : Bytes := line.takeWhile (· ≠ c.stop)

/-- The sink that a file name means. -/
def sinkName (c : Config) (name : Bytes) : Bytes :=
  if name = bytes "/dev/stdout" && c.inPlace.isNone then [] else name

def carryOut (c : Config) (inRange : Bool) (a : Action) : Run Next := do
  let s ← get
  let queue (q : Queued) : Run Next := do
    modify fun s => { s with queue := q :: s.queue }
    return .step
  match a with
  | .nothing | .block _ => return .step
  | .print first =>
    if first then writeLine c [] (firstLine c s.line.toBytes) true else writeLine c [] s.line.toBytes s.ended
    return .step
  | .delete first =>
    if first && c.stop ∈ s.line.toBytes then
      let line := s.line.toBytes
      set { s with line := .ofBytes (line.drop ((firstLine c line).length + 1)) }
      return .out .again
    else return .out .deleted
  | .next append =>
    if ← isLast c then return .out .finished
    else
      if !append && !c.silent then writeLine c [] s.line.toBytes s.ended
      let _ ← readLine c append
      return .step
  | .fetch append =>
    let line ← if append then grown c s.line s.kept else pure s.kept
    set { s with line, ended := s.keptEnded }
    return .step
  | .keep append =>
    let kept ← if append then grown c s.kept s.line else pure s.line
    set { s with kept, keptEnded := s.ended }
    return .step
  | .exchange =>
    set { s with line := s.kept, ended := s.keptEnded, kept := s.line, keptEnded := s.ended }
    return .step
  | .clear =>
    set { s with line := .empty }
    return .step
  | .lineNumber =>
    write c [] (Bytes.ofNat s.number ++ [c.stop]) false
    return .step
  | .fileName =>
    write c [] (s.name ++ [c.stop]) false
    return .step
  | .list width =>
    write c [] (shown (width.getD c.width) s.line.toBytes ++ [c.stop]) false
    return .step
  | .substitute sub =>
    substitute c { sub with file := sub.file.map (sinkName c) }
    return .step
  | .exchangeChars table =>
    set { s with line := .ofBytes ((← lineText).map fun d => (table.lookup d).getD d) }
    return .step
  | .append text => queue (.text text)
  | .insert text =>
    write c [] text false
    return .step
  | .change text =>
    if !inRange then write c [] text false
    return .out .deleted
  | .readFile name => queue (.file name)
  | .readLine name =>
    match ← nextOf c name with
    | some line => queue (.text line)
    | none => return .step
  | .write name first =>
    if first then writeLine c (sinkName c name) (firstLine c s.line.toBytes) true
    else writeLine c (sinkName c name) s.line.toBytes s.ended
    return .step
  | .branch condition target =>
    let taken := match condition with
      | .always => true
      | .replaced => s.replaced
      | .unchanged => !s.replaced
    if condition ≠ .always then modify ({ · with replaced := false })
    return if taken then .at target else .step
  | .quit status prints =>
    if prints then
      if !c.silent then writeLine c [] s.line.toBytes s.ended
      emptyQueue c
      write c [] [] false
    return .out (.quit status)
  | .run (some command) =>
    let data ← outputOf c command
    write c [] data false
    return .step
  | .run none =>
    evaluate c
    return .step

/-- More steps than a pass that ends takes, and how many of them go by between looks at the clock. -/
def passSteps : Nat := 3000001
def passStretch : Nat := 20

/-- One pass over the script. A pass that takes more steps never ends. -/
def pass (c : Config) : Nat → Nat → Run Outcome
  | 0, _ => task fun _ => .endless
  | n + 1, position => do
    if n % passStretch = 0 && n + 1 < passSteps then
      system (.compute (passStretch + (← get).line.front.length / 2))
    match c.script.steps[position]? with
    | none => return .finished
    | some step =>
      let (found, inRange) ← applies c position step
      if found = step.negated then
        match step.action with
        | .block past => pass c n past
        | _ => pass c n (position + 1)
      else
        match ← carryOut c inRange step.action with
        | .step => pass c n (position + 1)
        | .at target => pass c n target
        | .out o => return o

/-- Runs the script for one line after the other, and yields the status. -/
def cycles (c : Config) : Nat → Bool → Run Nat
  | 0, _ => return 0
  | n + 1, reading => do
    let there ← if reading then readLine c false else do
      emptyQueue c
      pure true
    if !there then return (← get).status
    else
      match ← pass c passSteps 0 with
      | .quit status =>
        let s ← get
        return if status = 0 then s.status else status
      | .again => cycles c n false
      | .deleted => cycles c n true
      | .finished =>
        let s ← get
        if !c.silent then writeLine c [] s.line.toBytes s.ended
        cycles c n true

/-! ## The utility -/

/-- The files that a script writes. -/
def filesOf (script : Script) : List Bytes :=
  (script.steps.toList.filterMap fun step => match step.action with
    | .write name _ => some name
    | .substitute s => s.file
    | _ => none).eraseDups

/-- Opens the files that a script writes. -/
def openSinks (c : Config) : List Bytes → Run Unit
  | [] => pure ()
  | name :: rest => do
    let opened ← if name = bytes "/dev/stdout" then pure (.ok 1)
      else if name = bytes "/dev/stderr" then pure (.ok 2)
      else system (.openFile (Utility.pathOf c.invocation name) .write)
    match opened with
    | .ok fd =>
      modify fun s => { s with sinks := Table.set (sinkName c name) ⟨some fd, [], 0, false⟩ s.sinks }
      openSinks c rest
    | .error f => fail c (bytes "couldn't open file " ++ name ++ bytes ": " ++ f.text) 4

/-- Runs a script over files. What was read too much is given back. -/
def runScript (c : Config) (names : List Bytes) : Task Nat := do
  let start : State :=
    { input := ⟨names, none, [], []⟩, sinks := [([], ⟨some 1, [], 0, false⟩)], sources := []
      line := .empty, ended := true, kept := .empty, keptEnded := true, number := 0, name := ['-']
      replaced := false, queue := [], ranges := [], latest := none, status := 0 }
  let run : Run Nat := do
    openSinks c (filesOf c.script)
    cycles c Sh.repeats true
  let (outcome, s) ← run.run.run start
  let (written, s) ← (flush c []).run.run s
  let unread := s.input.lines.foldl (fun k l => k + l.1.length + if l.2 then 1 else 0) 0 +
    s.input.pending.flatten.length
  match s.input.current with
  | some (0, _) => if 0 < unread then Task.call (.rewind 0 unread)
  | _ => pure ()
  match outcome, written with
  | .ok status, .ok _ | .error status, _ | .ok _, .error status => return status

/-- A part of a script: an option's value, or a file. -/
structure Part where
  file : Option Bytes
  text : Bytes

/-- Where in the parts of a script something was found when so much was left. -/
def location (parts : List Part) (left : Option Nat) : Bytes :=
  let total := parts.foldl (fun k p => k + p.text.length + 1) 0 - 1
  let rec go : List Part → Nat → Nat → Bytes
    | [], _, _ => []
    | p :: rest, number, position =>
      let number := if p.file.isNone then number + 1 else number
      if position ≤ p.text.length + 1 || rest.isEmpty then
        match p.file with
        | some name =>
          let line := (p.text.take (position - 1)).count '\n' + 1
          bytes "file " ++ name ++ bytes " line " ++ Bytes.ofNat line ++ bytes ": "
        | none =>
          bytes "-e expression #" ++ Bytes.ofNat number ++ bytes ", char " ++
            Bytes.ofNat (min position p.text.length) ++ bytes ": "
      else go rest number (position - p.text.length - 1)
  match left with
  | some k => go parts 0 (total - k)
  | none =>
    bytes "-e expression #" ++ Bytes.ofNat (parts.filter (·.file.isNone)).length ++ bytes ", char 0: "

def manual : Manual :=
  { usage := " [OPTION]... \x7bscript-only-if-no-other-script\x7d [input-file]..."
    version := "sed (GNU sed) 4.9"
    options :=
      ["n,quiet,silent", "e,expression=", "f,file=", "E,r,regexp-extended", "i,in-place[=]",
       "l,line-length=", "s,separate", "u,unbuffered", "z,null-data,zero-terminated", "b,binary",
       "posix", "debug", "sandbox", "follow-symlinks"]
    mixed := true, trouble := 1 }

/-- The parts of a script that options give. -/
def partsOf (i : Invocation) (o : Options) : Task (Except Bytes (List Part)) := do
  let rec collect : List (String × Bytes) → List Part → Task (Except Bytes (List Part))
    | [], acc => return .ok acc.reverse
    | (key, value) :: rest, acc => do
      if key = "e" then collect rest (⟨none, value⟩ :: acc)
      else if key = "f" then
        match ← Utility.contents i value with
        | .ok text =>
          collect rest (⟨some value, if text.getLast? = some '\n' then text.dropLast else text⟩ :: acc)
        | .error f => return .error (bytes "couldn't open file " ++ value ++ bytes ": " ++ f.text)
      else collect rest acc
  collect o.found []

end ValueInspector.Shell.Edit

namespace ValueInspector.Shell

open Edit in
/-- The stream editor. -/
def Utility.sed (s : Utility.Starter) : Utility :=
  Utility.withOptions manual fun o rest i => do
    match ← partsOf i o with
    | .error message => Utility.refuse i message 4
    | .ok given =>
      let (parts, names) : List Part × List Bytes := match given, rest with
        | [], text :: names => ([⟨none, text⟩], names)
        | _, _ => (given, rest)
      if parts.isEmpty then
        let usage := bytes "Usage: " ++ Utility.nameOf i ++ bytes manual.usage ++ ['\n']
        let _ ← Task.call (.write 2 usage)
        return 1
      else
        let text := Bytes.join ['\n'] (parts.map Part.text)
        match Script.ofText (o.has "E") text with
        | .error m =>
          let place := match m.fault with
            | .unknownLabel _ | .regex .classBrackets => []
            | _ => location parts m.left
          Utility.refuse i (place ++ m.fault.text) m.fault.status
        | .ok script =>
          let inPlace := o.value? "i"
          if inPlace.isSome && names.isEmpty then Utility.refuse i (bytes "no input files") 4
          else
            let config : Config :=
              { invocation := i, starter := s, script, silent := o.has "n" || script.silent
                separate := o.has "s" || inPlace.isSome, inPlace
                stop := if o.has "z" then Char.ofNat 0 else '\n'
                unbuffered := o.has "u"
                width := ((o.value? "l").bind Bytes.natural?).getD 70 }
            runScript config (if names.isEmpty then [['-']] else names)

end ValueInspector.Shell
