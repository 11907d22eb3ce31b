import ValueInspector.Shell.Utility.Process

/-! # Arguments out of input

`xargs` reads words, adds them to a command, and runs the command whenever it has enough of them. Words
stand between blanks, where quotes and backslashes work, or between bytes of one kind.
-/
namespace ValueInspector.Shell.Utility

namespace Arguments

/-! ## Words -/

inductive LexMode where
  | blank
  | word
  | quote (c : Char)
  | escaped
deriving DecidableEq

/-- A word that is being read. -/
structure Lexer where
  mode : LexMode
  /-- Its bytes, the latest first. -/
  text : Bytes
  size : Nat
  /-- It has begun, even if it is still empty. -/
  begun : Bool
  previous : Option Char

namespace Lexer

def start : Lexer := ⟨.blank, [], 0, false, none⟩

end Lexer

/-- How words stand in the input. -/
structure Form where
  /-- The byte that ends words; without one, blanks and line ends do. -/
  stop : Option Char
  /-- A line is one word. -/
  lines : Bool
  /-- More bytes than this are no word. -/
  limit : Nat

inductive LexEvent where
  /-- All bytes are used up. -/
  | more (l : Lexer)
  /-- A word, whether a line ends with it, and whether that line counts. -/
  | found (w : Bytes) (line counts : Bool)
  | openQuote (c : Char)
  | tooLong

/-- Reads bytes up to the next event. -/
def lex (f : Form) : Lexer → Bytes → LexEvent × Bytes
  | l, [] => (.more l, [])
  | l, c :: rest =>
    let add (c : Char) : Lexer := { l with text := c :: l.text, size := l.size + 1, previous := some c }
    match f.stop with
    | some stop =>
      if c = stop then (.found l.text.reverse true true, rest)
      else if f.limit ≤ l.size then (.tooLong, rest)
      else lex f (add c) rest
    | none =>
      match l.mode with
      | .quote q =>
        if c = '\n' then (.openQuote q, rest)
        else if c = q then lex f { l with mode := .word, begun := true, previous := some c } rest
        else if f.limit ≤ l.size then (.tooLong, rest)
        else lex f (add c) rest
      | .escaped =>
        if f.limit ≤ l.size then (.tooLong, rest) else lex f { add c with mode := .word } rest
      | mode =>
        if mode = .blank && Bytes.isSpace c then lex f { l with previous := some c } rest
        else
          let l := { l with mode := .word, begun := l.begun || decide (mode = LexMode.blank) }
          if c = '\n' then
            if l.text.isEmpty && !l.begun then lex f { l with mode := .blank, previous := some c } rest
            else (.found l.text.reverse true (!l.previous.any Bytes.isBlank), rest)
          else if !f.lines && Bytes.isBlank c then (.found l.text.reverse false false, rest)
          else
            match c with
            | '\\' => lex f { l with mode := .escaped, begun := true, previous := some c } rest
            | '\x27' | '"' => lex f { l with mode := .quote c, begun := true, previous := some c } rest
            | c =>
              if f.limit ≤ l.size then (.tooLong, rest)
              else
                lex f
                  { l with text := c :: l.text, size := l.size + 1, begun := true, previous := some c }
                  rest

/-! ## Runs -/

/-- What does not change. -/
structure Config where
  invocation : Invocation
  starter : Starter
  form : Form
  /-- The command with its first arguments. -/
  command : List Bytes
  replaced : Option Bytes
  perCommand : Option Nat
  linesPerCommand : Option Nat
  endWord : Option Bytes
  atOnce : Nat
  sizeLimit : Nat
  strict : Bool
  shown : Bool
  runsEmpty : Bool
  source : Nat

structure State where
  buffer : Bytes
  /-- There was the word that ends all. -/
  ended : Bool
  lines : Nat
  /-- Words for the next command, the latest first, with their number and size. -/
  words : List Bytes
  count : Nat
  size : Nat
  /-- The command was run. -/
  ran : Bool
  failed : Bool
  running : List Nat

/-- A run ends early with a status. -/
abbrev Run := ExceptT Nat (StateT State Task)

def task {α : Type} (t : Task α) : Run α := ExceptT.lift (StateT.lift t)

def fail {α : Type} (c : Config) (message : Bytes) (status : Nat) : Run α := do
  task (complain c.invocation message)
  throw status

def commandSize (words : List Bytes) : Nat := words.foldl (fun n w => n + w.length + 1) 0

/-- Takes note of how a command ended. -/
def judge (c : Config) (status : ExitStatus) : Run Unit := do
  let name := c.command.head?.getD []
  match status with
  | .code 0 => pure ()
  | .code 255 => fail c (name ++ bytes ": exited with status 255; aborting") 124
  | .code _ => modify fun s => { s with failed := true }
  | .signal k => fail c (name ++ bytes ": terminated by signal " ++ Bytes.ofNat k) 125

/-- Waits until fewer commands run. -/
def settle (c : Config) (most : Nat) : Nat → Run Unit
  | 0 => pure ()
  | n + 1 => do
    if (← get).running.length ≤ most then pure ()
    else
      match ← task (Task.call (.wait none true)) with
      | .ended pid status =>
        modify fun s => { s with running := s.running.filter (· ≠ pid) }
        judge c status
        settle c most n
      | .noChild => modify fun s => { s with running := [] }
      | _ => settle c most n

/-- Starts a command. Its standard input is empty. -/
def start (c : Config) (words : List Bytes) : Run Unit := do
  if c.atOnce ≠ 0 then settle c (c.atOnce - 1) Sh.repeats
  let i := c.invocation
  let name := words.head?.getD []
  if c.shown then
    let _ ← task (Task.call (.write 2 (Bytes.join [' '] words ++ ['\n'])))
  match ← task (Starter.find i name) with
  | .error f => fail c (name ++ bytes ": " ++ f.text) (if f = .missing then 127 else 126)
  | .ok path =>
    let child : Task Nat := do
      if c.source = 0 then
        Task.call (.close 0)
        let _ ← Task.call (.openFile (bytes "/dev/null") .read)
      else Task.call (.close c.source)
      c.starter.execute path { i with arguments := words }
    let pid ← task (Task.fork child.program)
    modify fun s => { s with running := pid :: s.running, ran := true }

/-- Runs the command with the words that there are. -/
def runBatch (c : Config) : Run Unit := do
  let s ← get
  set { s with words := [], count := 0, size := commandSize c.command, lines := 0 }
  start c (c.command ++ s.words.reverse)

/-- Adds a word, before or after a run of the command. -/
def add (c : Config) (w : Bytes) : Run Unit := do
  let s ← get
  if c.sizeLimit < s.size + w.length + 1 then
    if s.count = 0 then fail c (bytes "cannot fit single argument within argument list size limit") 1
    else if c.strict && (c.perCommand.isSome || c.linesPerCommand.isSome) then
      fail c (bytes "argument list too long") 1
    else runBatch c
  modify fun s => { s with words := w :: s.words, count := s.count + 1, size := s.size + w.length + 1 }
  if c.perCommand = some (← get).count then runBatch c

/-- Puts a word in the place of each mark. -/
def insert (mark w : Bytes) : Nat → Bytes → Bytes
  | 0, text => text
  | n + 1, text =>
    match text with
    | [] => []
    | c :: rest =>
      match Bytes.after? mark text with
      | some after => if mark.isEmpty then text else w ++ insert mark w n after
      | none => c :: insert mark w n rest

/-- What a word leads to. -/
def take (c : Config) (w : Bytes) (line counts : Bool) : Run Unit := do
  let s ← get
  if c.form.stop.isNone && c.endWord = some w then set { s with ended := true }
  else
    match c.replaced with
    | some mark =>
      let words := match c.command with
        | name :: rest => name :: rest.map fun a => insert mark w (a.length + 1) a
        | [] => []
      if c.sizeLimit < commandSize words then fail c (bytes "argument list too long") 1
      else start c words
    | none =>
      add c w
      if line && counts then modify fun s => { s with lines := s.lines + 1 }
      match c.linesPerCommand with
      | some k => if line && k ≤ (← get).lines && (← get).count ≠ 0 then runBatch c
      | none => pure ()

/-- If there are words, runs the command before the run fails. -/
def runRest (c : Config) : Run Unit := do
  if (← get).count ≠ 0 then runBatch c

def openQuote {α : Type} (c : Config) (quote : Char) : Run α := do
  runRest c
  fail c (bytes "unmatched " ++ bytes (if quote = '"' then "double" else "single") ++
    bytes " quote; by default quotes are special to xargs unless you use the -0 option") 1

/-- Reads all words. -/
def readWords (c : Config) : Nat → Lexer → Run Unit
  | 0, _ => pure ()
  | n + 1, l => do
    let s ← get
    if s.ended then pure ()
    else
      let (event, rest) := lex c.form l s.buffer
      set { s with buffer := rest }
      match event with
      | .found w line counts =>
        take c w line counts
        readWords c n .start
      | .openQuote q => openQuote c q
      | .tooLong =>
        runRest c
        fail c (bytes "argument line too long") 1
      | .more l =>
        match ← task (Task.call (.read c.source 4096)) with
        | .ok [] | .error _ =>
          match l.mode with
          | .quote q => if l.text.isEmpty then pure () else openQuote c q
          | _ => if l.text.isEmpty then pure () else take c l.text.reverse true false
        | .ok data =>
          modify fun s => { s with buffer := data }
          readWords c n l

/-- The whole run. -/
def all (c : Config) : Run Unit := do
  readWords c Sh.repeats .start
  let s ← get
  if c.replaced.isNone && (s.count ≠ 0 || (c.runsEmpty && !s.ran)) then runBatch c
  settle c 0 Sh.repeats

/-- The byte that an option names: itself, or as an escape sequence. -/
def delimiter? (w : Bytes) : Except Bytes Char :=
  match w with
  | [c] => .ok c
  | '\\' :: c :: rest =>
    let number (base : Nat) (digits : Bytes) : Except Bytes Char :=
      match Text.readDigits? base digits with
      | some n => if n < 256 then .ok (Char.ofNat n) else .error (bytes "out of range")
      | none => .error (bytes "no number")
    match rest, List.lookup c
        [('a', 7), ('b', 8), ('f', 12), ('n', 10), ('r', 13), ('t', 9), ('v', 11), ('\\', 92)] with
    | [], some n => .ok (Char.ofNat n)
    | _, _ =>
      if c = 'x' then number 16 rest
      else if c.isDigit then number 8 (c :: rest)
      else .error (bytes "Invalid escape sequence " ++ w ++ bytes " in input delimiter specification.")
  | _ =>
    .error (bytes "Invalid input delimiter specification " ++ w ++
      bytes ": the delimiter must be either a single character or an escape sequence starting with \\.")

/-- Of the ways to tell how much a command takes, the latest one counts, but a command for each word
is what replacing means anyway. -/
def measures (o : Options) : Option Bytes × Option Bytes × Option Bytes :=
  o.found.foldl
    (fun (replaced, words, lines) f =>
      match f.1 with
      | "I" => (some f.2, none, none)
      | "i" => (some (if f.2.isEmpty then bytes "\x7b\x7d" else f.2), none, none)
      | "n" => if f.2 = ['1'] && replaced.isSome then (replaced, none, none) else (none, some f.2, none)
      | "L" => (none, none, some f.2)
      | "l" => (none, none, some (if f.2.isEmpty then ['1'] else f.2))
      | _ => (replaced, words, lines))
    (none, none, none)

end Arguments

open Arguments in
/-- Runs a command with words from the input as arguments. -/
def xargs (starter : Starter) : Utility :=
  let manual : Manual :=
    { usage := " [OPTION]... COMMAND [INITIAL-ARGS]...", version := "xargs (GNU findutils) 4.9.0"
      options :=
        ["0,null", "a,arg-file=", "d,delimiter=", "E=", "e,eof[=]", "I=", "i,replace[=]", "L=",
         "l,max-lines[=]", "n,max-args=", "o,open-tty", "p,interactive", "P,max-procs=",
         "process-slot-var=", "r,no-run-if-empty", "s,max-chars=", "show-limits", "t,verbose", "x,exit"]
      mixed := false, trouble := 1 }
  withOptions manual fun o rest i => do
    let (replaced, words, lines) := measures o
    let numbers : List (String × Bytes × Nat) :=
      ["n", "L", "l", "s", "P"].flatMap fun key =>
        (o.values key).filterMap fun w =>
          if w.isEmpty && key = "l" then none else some (key, w, if key = "P" then 0 else 1)
    let isNumber (w : Bytes) : Bool :=
      (Bytes.natural? (if w.head? = some '-' || w.head? = some '+' then w.drop 1 else w)).isSome
    let isLow (w : Bytes) (least : Nat) : Bool :=
      w.head? = some '-' || ((Bytes.natural? w).getD 0) < least
    match numbers.find? fun e => !isNumber e.2.1 || isLow e.2.1 e.2.2 with
    | some (key, w, least) =>
      let letter := bytes (" for -" ++ key ++ " option")
      if !isNumber w then refuseUse i (bytes "invalid number \"" ++ w ++ bytes "\"" ++ letter) 1
      else
        refuseUse i (bytes "value " ++ w ++ letter ++ bytes " should be >= " ++ Bytes.ofNat least) 1
    | none =>
      let stop : Except Bytes (Option Char) :=
        match o.last? ["0", "d"] with
        | some "d" => (delimiter? ((o.value? "d").getD [])).map some
        | some _ => .ok (some (Char.ofNat 0))
        | none => .ok none
      match stop with
      | .error message => refuse i message 1
      | .ok stop =>
        if o.has "p" then
          refuse i (bytes "failed to open /dev/tty for reading: No such device or address") 1
        else
          let source ← match o.value? "a" with
            | none => pure (Except.ok 0)
            | some name => openInput i name
          match source with
          | .error f =>
            refuse i (bytes "Cannot open input file " ++ quoted ((o.value? "a").getD []) ++ bytes ": " ++
              f.text) 1
          | .ok source =>
            let number (w? : Option Bytes) : Option Nat := w?.bind Bytes.natural?
            let command := if rest.isEmpty then [bytes "echo"] else rest
            let sizeLimit := (number (o.value? "s")).getD 131072
            let endWord := match o.last? ["E", "e"] with
              | some key => o.value? key
              | none => none
            let c : Config :=
              { invocation := i, starter, command, replaced
                form :=
                  { stop, lines := replaced.isSome
                    limit := sizeLimit - commandSize (if replaced.isSome then [] else command) - 1 }
                perCommand := number words
                linesPerCommand := number lines
                endWord := if endWord = some [] then none else endWord
                atOnce := (number (o.value? "P")).getD 1
                sizeLimit, strict := o.has "x" || lines.isSome, shown := o.has "t"
                runsEmpty := !o.has "r", source }
            let s : State :=
              { buffer := [], ended := false, lines := 0, words := [], count := 0, size := commandSize command, ran := false, failed := false, running := [] }
            let (outcome, s) ← (all c).run.run s
            match outcome with
            | .ok () => return if s.failed then 123 else 0
            | .error status =>
              let _ ← (settle c 0 Sh.repeats).run.run s
              return status

end ValueInspector.Shell.Utility
