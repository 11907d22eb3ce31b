import ValueInspector.Shell.Startup
import ValueInspector.Shell.Utility.Arguments
import ValueInspector.Shell.Utility.Checksum
import ValueInspector.Shell.Utility.Clock
import ValueInspector.Shell.Utility.Columns
import ValueInspector.Shell.Utility.Dump
import ValueInspector.Shell.Utility.Edit.Run
import ValueInspector.Shell.Utility.Encoding
import ValueInspector.Shell.Utility.Expression
import ValueInspector.Shell.Utility.Factor
import ValueInspector.Shell.Utility.File
import ValueInspector.Shell.Utility.Listing
import ValueInspector.Shell.Utility.Order
import ValueInspector.Shell.Utility.Path
import ValueInspector.Shell.Utility.Print
import ValueInspector.Shell.Utility.Process
import ValueInspector.Shell.Utility.Records.Run
import ValueInspector.Shell.Utility.Search
import ValueInspector.Shell.Utility.Sequence
import ValueInspector.Shell.Utility.Test
import ValueInspector.Shell.Utility.Text
import ValueInspector.Shell.Utility.Translate

/-! # The programs that there are

Every program by its name, and how a process becomes the program in a file.
-/
namespace ValueInspector.Shell

/-- The names under which there is a shell. All of them know the same language. -/
def shellNames : List String := ["bash", "dash"]

/-- Programs that start no others. -/
def utilities : List (String × Utility) :=
  [("arch", Utility.fixed "arch" "x86_64\n" 0), ("base32", Utility.encoder "base32" .base32), ("base64", Utility.encoder "base64" .base64),
   ("basename", Utility.basename), ("basenc", Utility.basenc), ("cat", Utility.cat),
   ("chgrp", Utility.chown "chgrp" "group"), ("chmod", Utility.chmod),
   ("chown", Utility.chown "chown" "user"), ("cksum", Utility.cksum), ("comm", Utility.comm),
   ("cp", Utility.cp), ("cut", Utility.cut),
   ("date", Utility.date), ("dd", Utility.dd), ("dir", Utility.ls .columns), ("dirname", Utility.dirname),
   ("echo", Utility.echo), ("expand", Utility.expand), ("expr", Utility.expr), ("factor", Utility.factor),
   ("false", Utility.constant "false" 1),
   ("fold", Utility.fold), ("grep", Utility.grep), ("groups", Utility.fixed "groups" "root\n" 0), ("head", Utility.head),
   ("id", Utility.id), ("install", Utility.install), ("join", Utility.join),
   ("kill", Utility.killUtility), ("link", Utility.link), ("ln", Utility.ln),
   ("logname", Utility.fixed "logname" "" 1), ("ls", Utility.ls .single), ("mkdir", Utility.mkdir), ("mktemp", Utility.mktemp),
   ("mv", Utility.mv), ("nl", Utility.nl), ("od", Utility.od), ("paste", Utility.paste),
   ("pathchk", Utility.pathchk), ("printenv", Utility.printenv), ("printf", Utility.printf),
   ("pwd", Utility.pwd), ("readlink", Utility.readlink), ("realpath", Utility.realpath),
   ("rev", Utility.rev), ("rm", Utility.rm), ("rmdir", Utility.rmdir), ("seq", Utility.seq), ("shuf", Utility.shuf),
   ("sleep", Utility.sleep), ("sort", Utility.sort), ("stat", Utility.stat), ("sum", Utility.sum),
   ("sync", Utility.constant "sync" 0), ("tac", Utility.tac), ("tail", Utility.tail),
   ("tee", Utility.tee), ("test", Utility.test false), ("[", Utility.test true), ("touch", Utility.touch), ("tr", Utility.tr),
   ("true", Utility.constant "true" 0), ("truncate", Utility.truncate), ("tsort", Utility.tsort),
   ("tty", Utility.tty), ("uname", Utility.uname), ("unexpand", Utility.unexpand),
   ("uniq", Utility.uniq), ("unlink", Utility.unlink), ("vdir", Utility.ls .long), ("wc", Utility.wc),
   ("which", Utility.which), ("whoami", Utility.fixed "whoami" "root\n" 0), ("yes", Utility.yes)] ++
    Utility.digestKinds.map fun k => (k.1 ++ "sum", Utility.digestUtility (k.1 ++ "sum") k.2)

/-- Programs that start others. -/
def starters (s : Utility.Starter) : List (String × Utility) :=
  [("env", Utility.env s), ("mawk", Utility.awk s), ("nice", Utility.nice s), ("nohup", Utility.nohup s),
   ("sed", Utility.sed s), ("setsid", Utility.setsid s), ("stdbuf", Utility.stdbuf s),
   ("timeout", Utility.timeout s), ("xargs", Utility.xargs s)]

def starterNames : List String := (starters ⟨fun _ _ => return 0⟩).map (·.1)

/-! ## Program files -/

/-- What a file with machine code begins with. The name of its program follows. -/
def codeMark : Bytes := Char.ofNat 127 :: bytes "ELF"

/-- What a program file holds: code, or lines for another program. -/
inductive ProgramText where
  | code (name : String)
  /-- Lines for an interpreter, with one more word for it. -/
  | lines (interpreter : Bytes) (word : Option Bytes)
  /-- Lines for the shell. -/
  | plain
deriving Repr

def ProgramText.ofBytes (data : Bytes) : ProgramText :=
  match Bytes.after? codeMark data with
  | some name => .code (String.ofList name)
  | none =>
    match data with
    | '#' :: '!' :: rest =>
      let line := (rest.takeWhile (· ≠ '\n')).dropWhile Bytes.isBlank
      let interpreter := line.takeWhile fun c => !Bytes.isBlank c
      let word := (line.drop interpreter.length).dropWhile Bytes.isBlank
      let word := (word.reverse.dropWhile Bytes.isBlank).reverse
      if interpreter.isEmpty then .plain
      else .lines interpreter (if word.isEmpty then none else some word)
    | _ => .plain

/-- What starting a program takes. -/
def startTime : Nat := 600

/-- How many interpreters may stand between a program and its code. -/
def interpreterLimit : Nat := 5

/-- Becomes the program at a path. -/
def execute (g : Evaluator) (path : Bytes) : Utility :=
  let rec become : Nat → Bytes → Utility
    | 0, _ => fun i => Utility.refuse i (bytes "too many interpreters") 126
    | n + 1, path => fun i => do
      match ← Utility.contents i path with
      | .error f => Utility.refuse i f.text 126
      | .ok data =>
        match ProgramText.ofBytes data with
        | .code name =>
          Task.call (.compute startTime)
          if name ∈ shellNames then shell g i
          else
            match (utilities ++ starters ⟨g.execute⟩).lookup name with
            | some u => u i
            | none => Utility.refuse i (bytes "not available") 126
        | .lines interpreter word =>
          become n interpreter
            { i with arguments := interpreter :: word.toList ++ path :: i.arguments.drop 1 }
        | .plain =>
          become n (bytes "/bin/sh")
            { i with arguments := bytes "/bin/sh" :: path :: i.arguments.drop 1 }
  become interpreterLimit path

/-! ## Evaluators -/

/-- Ends a process whose commands are nested too deep. -/
def overflow {α : Type} : Task α := do
  let (pid, _) ← Task.call .identity
  let _ ← Task.call (.kill pid 11)
  fun _ => .endless

/-- An evaluator for commands that are nested so deep. -/
def evaluator : Nat → Evaluator
  | 0 => ⟨fun _ _ => Sh.task overflow, fun _ _ => overflow⟩
  | n + 1 =>
    { command := fun m c => Sh.run (evaluator n) (n + 1) m c
      execute := fun path i => execute (evaluator n) path i }

/-- How deep commands may be nested. -/
def nesting : Nat := 20000

end ValueInspector.Shell
