import ValueInspector.Shell.Format
import ValueInspector.Shell.Utility.Basic

/-! # Utilities about processes

Those that wait, that start other programs, or that tell about the system.
-/
namespace ValueInspector.Shell.Utility

/-! ## Waiting -/

/-- A time such as `0.5` or `2m` in microseconds. -/
def duration? (w : Bytes) : Option Nat := do
  let (x, rest) ← Numeric.float? w
  let factor ← match rest with
    | [] | ['s'] => some 1.0
    | ['m'] => some 60.0
    | ['h'] => some 3600.0
    | ['d'] => some 86400.0
    | _ => none
  if x.isNaN || x < 0.0 || w.head?.any Bytes.isSpace then none
  else
    let micros := x * factor * 1000000.0
    some (if micros < 1.0e15 then micros.ceil.toUInt64.toNat else 1000000000000000)

def sleep : Utility :=
  withOptions ⟨" NUMBER[SUFFIX]...", versionOf "sleep", [], false, 1⟩ fun _ rest i => do
    if rest.isEmpty then refuseUse i (bytes "missing operand") 1
    else
      match rest.filter fun w => (duration? w).isNone with
      | [] =>
        Task.call (.sleep (rest.foldl (fun t w => t + (duration? w).getD 0) 0))
        return 0
      | wrong =>
        let messages := wrong.map fun w => bytes "invalid time interval " ++ quoted w
        messages.dropLast.forM (complain i)
        refuseUse i (messages.getLast?.getD []) 1

/-! ## Starting programs -/

/-- Becomes the program at a path, or tells why that is impossible. -/
structure Starter where
  execute : (path : Bytes) → Invocation → Task Nat

namespace Starter

/-- Where a program is, as found in the places that an environment lists. -/
def find (i : Invocation) (name : Bytes) : Task (Except FileFault Bytes) := do
  let search := ((i.environment.lookup (bytes "PATH")).getD (bytes "/bin:/usr/bin")).splitOn ':'
  let candidates :=
    if name.isEmpty then []
    else if '/' ∈ name then [pathOf i name]
    else search.map fun place => pathOf i (if place.isEmpty then name else place ++ '/' :: name)
  let rec first : List Bytes → FileFault → Task (Except FileFault Bytes)
    | [], fault => return .error fault
    | p :: rest, fault => do
      match ← Task.call (.inspect true p) with
      | .ok info => if info.isProgram then return .ok p else first rest .denied
      | .error f => first rest (if fault = .denied then fault else f)
  first candidates .missing

/-- Becomes the program that the words name. If that fails, the words of the message stand before the
name. -/
def start (s : Starter) (i : Invocation) (before : String) (words : List Bytes) : Task Nat := do
  let name := words.head?.getD []
  match ← find i name with
  | .error f =>
    let status := if f = .missing then 127 else 126
    refuse i (bytes before ++ quoted name ++ bytes ": " ++ f.text) status
  | .ok p => s.execute p { i with arguments := words }

end Starter

/-- Waits for a child. -/
def awaitStatus (pid : Nat) : Nat → Task ExitStatus
  | 0 => fun _ => .endless
  | n + 1 => do
    match ← Task.call (.wait (some pid) true) with
    | .ended _ status => return status
    | _ => awaitStatus pid n

def setVariable (environment : List (Bytes × Bytes)) (w : Bytes) : List (Bytes × Bytes) :=
  let name := w.takeWhile (· ≠ '=')
  let value := w.drop (name.length + 1)
  if environment.any (·.1 = name) then
    environment.map fun v => if v.1 = name then (name, value) else v
  else environment ++ [(name, value)]

/-- Words of a text, with quotes and backslashes. -/
def splitWords : Nat → Option Bytes → Bytes → List Bytes → List Bytes
  | 0, _, _, acc => acc.reverse
  | n + 1, current, cs, acc =>
    match cs with
    | [] => ((current.map List.reverse).toList ++ acc).reverse
    | c :: rest =>
      if Bytes.isSpace c then splitWords n none rest ((current.map List.reverse).toList ++ acc)
      else if c = '\x27' || c = '"' then
        let inside := rest.takeWhile (· ≠ c)
        splitWords n (some (inside.reverse ++ current.getD [])) (rest.drop (inside.length + 1)) acc
      else if c = '\\' then
        splitWords n (some (rest.take 1 ++ current.getD [])) (rest.drop 1) acc
      else splitWords n (some (c :: current.getD [])) rest acc

/-- Sets variables for a program, or lists them. -/
def env (s : Starter) : Utility :=
  let manual : Manual :=
    { usage := " [OPTION]... [-] [NAME=VALUE]... [COMMAND [ARG]...]", version := versionOf "env"
      options :=
        ["i,ignore-environment", "0,null", "u,unset=", "C,chdir=", "S,split-string=", "v,debug",
         "block-signal[=]", "default-signal[=]", "ignore-signal[=]", "list-signal-handling"]
      mixed := false, trouble := 125 }
  withOptions manual fun o rest i => do
    let rest := match o.value? "S" with
      | some text => splitWords (text.length + 1) none text [] ++ rest
      | none => rest
    let (empty, rest) := if rest.head? = some ['-'] then (true, rest.drop 1) else (false, rest)
    let start := if empty || o.has "i" then [] else i.environment
    let kept := start.filter fun v => !Bytes.isAmong v.1 (o.values "u")
    let bindings := rest.takeWhile ('=' ∈ ·)
    let environment := bindings.foldl setVariable kept
    let stop := if o.has "0" then [Char.ofNat 0] else ['\n']
    match rest.drop bindings.length, o.value? "C" with
    | [], some _ => refuseUse i (bytes "must specify command with --chdir (-C)") 125
    | [], none => put i (environment.map fun v => v.1 ++ '=' :: v.2 ++ stop).flatten
    | words, directory? =>
      if o.has "0" then refuseUse i (bytes "cannot specify --null (-0) with command") 125
      else
        let directory := (directory?.map (pathOf i)).getD i.directory
        match ← Task.call (.inspect true directory) with
        | .ok info =>
          if info.isDirectory then s.start { i with environment, directory } "" words
          else
            refuse i (bytes "cannot change directory to " ++ quoted (directory?.getD []) ++ bytes ": " ++
              FileFault.notDirectory.text) 125
        | .error f =>
          refuse i (bytes "cannot change directory to " ++ quoted (directory?.getD []) ++ bytes ": " ++
            f.text) 125

def printenv : Utility :=
  withOptions ⟨" [OPTION]... [VARIABLE]...", versionOf "printenv", ["0,null"], false, 2⟩
    fun o rest i => do
      let stop := if o.has "0" then [Char.ofNat 0] else ['\n']
      if rest.isEmpty then put i (i.environment.map fun v => v.1 ++ '=' :: v.2 ++ stop).flatten
      else
        let found := rest.filterMap fun name => i.environment.lookup name
        let status ← put i (found.map (· ++ stop)).flatten
        return if found.length < rest.length then 1 else status

/-- How a program is started by a utility that does nothing but that. -/
structure Wrapping where
  name : String
  manual : Manual
  before : String
  /-- The status without a program. -/
  missing : Nat

/-- Runs the program that its words name, options left out. -/
def wrapper (w : Wrapping) (prepare : Task Unit) (s : Starter) : Utility :=
  withOptions w.manual fun _ rest i => do
    if rest.isEmpty then refuseUse i (bytes "missing operand") w.missing
    else
      prepare
      s.start i w.before rest

def nohup : Starter → Utility :=
  wrapper
    ⟨"nohup", ⟨" COMMAND [ARG]...", versionOf "nohup", [], false, 125⟩, "failed to run command ", 125⟩
    (Task.call (.handle 1 (some .ignored)))

def stdbuf : Starter → Utility :=
  wrapper
    ⟨"stdbuf", ⟨" OPTION... COMMAND", versionOf "stdbuf", ["i,input=", "o,output=", "e,error="], false,
      125⟩, "failed to run command ", 125⟩
    (pure ())

def setsid : Starter → Utility :=
  wrapper
    ⟨"setsid", ⟨" [options] <program> [arguments ...]", "setsid from util-linux 2.39.3",
      ["c,ctty", "f,fork", "w,wait"], false, 1⟩, "failed to execute ", 1⟩
    (Task.call .lead)

def nice (s : Starter) : Utility :=
  let manual : Manual :=
    ⟨" [OPTION] [COMMAND [ARG]...]", versionOf "nice", ["n,adjustment="], false, 125⟩
  fun i =>
    let isNumber (w : Bytes) : Bool := match w with
      | '-' :: '-' :: c :: cs | '-' :: '+' :: c :: cs | '-' :: c :: cs => (c :: cs).all Char.isDigit
      | _ => false
    let i := { i with arguments := i.arguments.take 1 ++ (i.arguments.drop 1).dropWhile isNumber }
    withOptions manual (fun o rest i => do
      if rest.isEmpty then
        if o.has "n" then refuseUse i (bytes "a command must be given with an adjustment") 125
        else put i (bytes "0\n")
      else s.start i "" rest) i

/-- Runs a program, and ends it when the time is up. -/
def timeout (s : Starter) : Utility :=
  let manual : Manual :=
    { usage := " [OPTION] DURATION COMMAND [ARG]...", version := versionOf "timeout"
      options := ["k,kill-after=", "s,signal=", "v,verbose", "foreground", "preserve-status"]
      mixed := false, trouble := 125 }
  withOptions manual fun o rest i => do
    let interval (w : Bytes) : Task Nat :=
      refuseUse i (bytes "invalid time interval " ++ quoted w) 125
    match rest with
    | limit :: words@(_ :: _) =>
      let patience? := o.value? "k"
      match duration? limit, patience?.map duration?, (o.value? "s").map signal? with
      | _, _, some none => refuseUse i ((o.value? "s").getD [] ++ bytes ": invalid signal") 125
      | _, some none, _ => interval (patience?.getD [])
      | none, _, _ => interval limit
      | some t, patience, signal =>
        let signal := (signal.bind id).getD 15
        unless o.has "foreground" do Task.call .lead
        let begun ← Task.call .clock
        let pid ← Task.fork (Task.program (s.start i "failed to run command " words))
        let (own, _) ← Task.call .identity
        let send (k : Nat) : Task Unit := do
          let _ ← Task.call (.kill pid k)
          unless o.has "foreground" || k = 9 do
            Task.call (.handle k (some .ignored))
            let _ ← Task.call (.kill (-(own : Int)) k)
          if k = 9 && !o.has "foreground" then
            let _ ← Task.call (.kill (-(own : Int)) 9)
        let watch : Task Nat := do
          Task.call (.sleep t)
          send signal
          match patience.bind id with
          | some more =>
            Task.call (.sleep more)
            send 9
          | none => pure ()
          return 0
        Task.call (.handle signal (if signal = 9 then none else some .ignored))
        let watcher ← if t = 0 then pure none else some <$> Task.fork watch.program
        let status ← awaitStatus pid Sh.repeats
        match watcher with
        | some w =>
          let _ ← Task.call (.kill w 9)
        | none => pure ()
        let late := t ≠ 0 && begun + t ≤ (← Task.call .clock)
        match status with
        | .code n => return if late && !o.has "preserve-status" then 124 else n
        | .signal k =>
          if late then return if o.has "preserve-status" || k = 9 then 128 + k else 124
          else
            let _ ← Task.call (.handle k none)
            let _ ← Task.call (.kill own k)
            return 128 + k
    | _ => refuseUse i (bytes "missing operand") 125
where
  signal? (name : Bytes) : Option Nat := signalOf? ((Bytes.after? (bytes "SIG") name).getD name)

/-! ## Telling about the system -/

def killUtility : Utility := fun i => do
  match operands i with
  | ['-', 'l'] :: _ =>
    put i (Bytes.join [' '] ((List.range' 1 31).map signalName) ++ ['\n'])
  | ['-', 's'] :: name :: targets => send i ((signalOf? name).getD 15) targets
  | ('-' :: spec) :: targets =>
    match signalOf? ((Bytes.after? (bytes "SIG") spec).getD spec) with
    | some k => send i k targets
    | none => send i 15 (operands i)
  | targets => send i 15 targets
where
  send (i : Invocation) (signal : Nat) (targets : List Bytes) : Task Nat := do
    let targets := if targets.head? = some ['-', '-'] then targets.drop 1 else targets
    match targets with
    | [] => refuse i (bytes "not enough arguments") 1
    | targets =>
      let statuses ← targets.mapM fun w => do
        let target : Option Int := match w with
          | '-' :: digits => (Bytes.natural? digits).map fun n => -(n : Int)
          | digits => (Bytes.natural? digits).map fun n => (n : Int)
        match target with
        | none => refuse i (bytes "failed to parse argument: " ++ quoted w) 1
        | some t =>
          if ← Task.call (.kill t signal) then return 0
          else refuse i (bytes "sending signal to " ++ w ++ bytes " failed: No such process") 1
      return statuses.foldl max 0

/-- The places where programs are found. -/
def which : Utility := fun i => do
  let words := operands i
  let letters := (words.takeWhile fun w => w.head? = some '-' && 1 < w.length)
  let names := words.drop letters.length
  if letters.any fun w => (w.drop 1).any fun c => c ≠ 'a' && c ≠ 's' && c ≠ '-' then
    let _ ← put i (bytes "Usage: " ++ nameOf i ++ bytes " [-as] args\n")
    return 2
  else
    let found ← names.filterMapM fun name => return (← Starter.find i name).toOption
    let silent := letters.any ('s' ∈ ·)
    let written ← if silent then pure 0 else put i (unlines found)
    return if names.isEmpty || found.length < names.length then 1 else written

/-- A utility that always writes the same and takes no operands. -/
def fixed (name text : String) (status : Nat) : Utility :=
  withOptions ⟨" [OPTION]...", versionOf name, [], true, 1⟩ fun _ rest i => do
    match rest with
    | w :: _ => refuseUse i (bytes "extra operand " ++ quoted w) 1
    | [] =>
      let written ← put i (bytes text)
      return max status written

/-- Ends with a status, whatever its words are. -/
def constant (name : String) (status : Nat) : Utility := fun i => do
  match operands i with
  | [w] =>
    if w = bytes "--help" then
      let written ← put i (bytes "Usage: " ++ nameOf i ++ bytes " [ignored command line arguments]\n")
      return max status written
    else if w = bytes "--version" then
      let written ← put i (bytes (versionOf name) ++ ['\n'])
      return max status written
    else return status
  | _ => return status

def uname : Utility :=
  let parts : List (String × String) :=
    [("s", "Linux"), ("n", "localhost"), ("r", "6.1.0"), ("v", "#1 SMP"), ("m", "x86_64"),
     ("p", "x86_64"), ("i", "x86_64"), ("o", "GNU/Linux")]
  let manual : Manual :=
    { usage := " [OPTION]...", version := versionOf "uname"
      options :=
        ["a,all", "s,kernel-name,sysname", "n,nodename", "r,kernel-release,release", "v,kernel-version",
         "m,machine", "p,processor", "i,hardware-platform", "o,operating-system"]
      mixed := true, trouble := 1 }
  withOptions manual fun o rest i => do
    match rest with
    | w :: _ => refuseUse i (bytes "extra operand " ++ quoted w) 1
    | [] =>
      let chosen := parts.filter fun p =>
        o.has p.1 || o.has "a" || (o.found.isEmpty && p.1 = "s")
      put i (Bytes.join [' '] (chosen.map fun p => bytes p.2) ++ ['\n'])

/-- Who the user is. -/
def id : Utility :=
  let manual : Manual :=
    { usage := " [OPTION]... [USER]...", version := versionOf "id"
      options := ["a", "g,group", "G,groups", "n,name", "r,real", "u,user", "z,zero", "Z,context"]
      mixed := true, trouble := 1 }
  withOptions manual fun o rest i => do
    let own := rest.all fun w => w = bytes "root" || w = ['0']
    if !own then refuse i (quoted (rest.head?.getD []) ++ bytes ": no such user") 1
    else
      let single := o.has "u" || o.has "g" || o.has "G"
      if o.has "n" && !single then
        refuse i (bytes "cannot print only names or real IDs in default format") 1
      else put i (if !single then bytes "uid=0(root) gid=0(root) groups=0(root)\n"
        else if o.has "n" then bytes "root\n" else bytes "0\n")

def tty : Utility :=
  withOptions ⟨" [OPTION]...", versionOf "tty", ["s,silent,quiet"], true, 2⟩ fun o rest i => do
    match rest with
    | w :: _ => refuseUse i (bytes "extra operand " ++ quoted w) 2
    | [] =>
      let written ← if o.has "s" then pure 0 else put i (bytes "not a tty\n")
      return max 1 written

def pwd : Utility :=
  withOptions ⟨" [OPTION]...", versionOf "pwd", ["L,logical", "P,physical"], true, 1⟩ fun o _ i => do
    let canonical ← Task.call (.resolve i.directory)
    let shown := if o.last? ["L", "P"] = some "L" then
        (i.environment.lookup (bytes "PWD")).getD i.directory
      else canonical.toOption.getD i.directory
    put i (shown ++ ['\n'])

end ValueInspector.Shell.Utility
