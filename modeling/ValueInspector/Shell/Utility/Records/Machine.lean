import ValueInspector.Shell.Calendar
import ValueInspector.Shell.Utility.Process
import ValueInspector.Shell.Utility.Records.Division
import ValueInspector.Shell.Utility.Records.Elements
import ValueInspector.Shell.Utility.Records.Script
import ValueInspector.Shell.Utility.Records.Token

/-! # State of a script

Variables, the current record with its fields, and the files and commands that a script reads from and
writes to. Fields are taken apart when one of them is asked for, by the separator at the time when the
record came, and the record is put together again after a field was changed.
-/
namespace ValueInspector.Shell.Records

/-- Where the elements of an array are kept. -/
inductive ArrayPlace where
  | global (name : Bytes)
  /-- An array that came into being with a call. -/
  | fresh (n : Nat)
deriving DecidableEq

/-- What a parameter stands for. -/
inductive Slot where
  | value (v : Value)
  | array (a : ArrayPlace)

structure Record where
  value : Value
  /-- The fields, once they were taken apart. -/
  fields : Option (Array Value)
  /-- A field was changed after the record was put together. -/
  stale : Bool
  separator : Bytes

/-- A file or command that is read from. -/
structure Source where
  fd : Nat
  data : Bytes
  ended : Bool
  child : Option Nat

/-- A file or command that is written to. Chunks wait there, the latest first. -/
structure Target where
  fd : Nat
  chunks : List Bytes
  size : Nat
  child : Option Nat

structure Machine where
  bindings : List (Bytes × Value)
  /-- The parameters of the function that runs. -/
  frame : Array Slot
  arrays : List (ArrayPlace × Elements)
  nextArray : Nat
  record : Record
  /-- The file of the main input. -/
  input : Option Source
  /-- The next operand, and whether one of those before it was a file. -/
  operand : Nat
  begun : Bool
  ended : Bool
  /-- By name, and whether it is a command. -/
  sources : List ((Bool × Bytes) × Source)
  targets : List ((Bool × Bytes) × Target)
  /-- Numbers of rules between whose ends the record is. -/
  active : List Nat
  status : Nat
  chance : UInt64
  seed : Value

/-- What ends a computation early. -/
inductive Stop where
  | next
  | nextFile
  | exit
  | returned (v : Value)
  | leave
  | again
  /-- An error. -/
  | failed

abbrev Run := ExceptT Stop (StateT Machine Task)

structure Config where
  invocation : Invocation
  starter : Utility.Starter
  script : Script

namespace Run

def task {α : Type} (t : Task α) : Run α := ExceptT.lift (StateT.lift t)

def system (c : Call) : Run c.Answer := task (Task.call c)

def fail {α : Type} (c : Config) (message : Bytes) : Run α := do
  task (Utility.complain c.invocation message)
  throw .failed

/-! ## Variables -/

def lookup (name : String) : Run Value := do
  return ((← get).bindings.lookup (bytes name)).getD .unset

def store (name : Bytes) (v : Value) : Run Unit :=
  modify fun s => { s with bindings := Table.set name v s.bindings }

/-- The format for numbers that become texts. -/
def format : Run Bytes := do
  match ← lookup "CONVFMT" with
  | .text w | .mixed w => return w
  | v => return v.asText (bytes "%.6g")

def asText (v : Value) : Run Bytes := do
  match v with
  | .text w | .mixed w => return w
  | .joined g => return g.toBytes
  | .unset => return []
  | v => return v.asText (← format)

def asGrowing (v : Value) : Run Growing := do
  match v with
  | .joined g => return g
  | v => return .ofBytes (← asText v)

def textOf (name : String) : Run Bytes := do asText (← lookup name)

/-! ## Arrays -/

def elements (a : ArrayPlace) : Run Elements := do
  return ((← get).arrays.lookup a).getD .empty

/-- Changes an array, or an empty one if there is none. -/
def changed (f : Elements → Elements) (a : ArrayPlace) :
    List (ArrayPlace × Elements) → List (ArrayPlace × Elements)
  | [] => [(a, f .empty)]
  | (b, e) :: rest => if b = a then (b, f e) :: rest else (b, e) :: changed f a rest

def changeElements (a : ArrayPlace) (f : Elements → Elements) : Run Unit :=
  modify fun s => { s with arrays := changed f a s.arrays }

/-- The place of an array that a name stands for. -/
def arrayPlace (a : ArrayName) : Run ArrayPlace := do
  match a with
  | .global w => return .global w
  | .param k =>
    match (← get).frame[k]? with
    | some (.array p) => return p
    | _ => return .fresh 0

/-! ## Fields -/

def patternFault {α : Type} (c : Config) (f : PatternFault) : Run α :=
  fail c (bytes "regular expression compile failed (" ++ f.text ++ bytes ")")

def separatorOf (c : Config) (w : Bytes) : Run Separator :=
  match Separator.ofText w with
  | .ok s => pure s
  | .error f => patternFault c f

/-- A new record. Its fields are taken apart later, by the separator that there is now. -/
def setRecord (v : Value) : Run Unit := do
  let separator ← textOf "FS"
  modify fun s => { s with record := ⟨v, none, false, separator⟩ }

/-- The fields of the record. -/
def fields (c : Config) : Run (Array Value) := do
  let r := (← get).record
  match r.fields with
  | some fs => return fs
  | none =>
    let text ← asText r.value
    let separator ← separatorOf c r.separator
    let fs := ((separator.divide text).map Value.mixed).toArray
    modify fun s => { s with record := { r with fields := some fs } }
    return fs

/-- The record as a whole. -/
def record : Run Value := do
  let r := (← get).record
  match r.fields, r.stale with
  | some fs, true =>
    let texts ← fs.toList.mapM asText
    let v := Value.text (Bytes.join (← textOf "OFS") texts)
    modify fun s => { s with record := { r with value := v, stale := false } }
    return v
  | _, _ => return r.value

def field (c : Config) (k : Nat) : Run Value := do
  if k = 0 then record else return ((← fields c)[k - 1]?).getD (.text [])

/-- The greatest number of a field. -/
def fieldLimit : Nat := 10000000

def resized (fs : Array Value) (n : Nat) : Array Value :=
  fs.extract 0 n ++ Array.replicate (n - fs.size) (.text [])

def setFields (fs : Array Value) : Run Unit :=
  modify fun s => { s with record := { s.record with fields := some fs, stale := true } }

def setField (c : Config) (k : Nat) (v : Value) : Run Unit := do
  if k = 0 then setRecord v
  else
    let fs ← fields c
    let fs := if fs.size < k then resized fs k else fs
    setFields (fs.setIfInBounds (k - 1) v)

def readVariable (c : Config) (w : Bytes) : Run Value := do
  if w = bytes "NF" then return .ofNat (← fields c).size
  else return ((← get).bindings.lookup w).getD .unset

def setVariable (c : Config) (w : Bytes) (v : Value) : Run Unit := do
  if w = bytes "NF" then
    let n := v.amount.whole (-1) fieldLimit
    if n < 0 then fail c (bytes "negative value assigned to NF")
    else setFields (resized (← fields c) n.toNat)
  else store w v

/-! ## Output -/

/-- So many bytes wait before they are written. -/
def bufferSize : Nat := 4096

/-- The standard output, among the targets. -/
def standardOutput : Bool × Bytes := (false, bytes "/dev/stdout")

/-- Writes what waits for a target, and tells what goes wrong. -/
def flushTarget (key : Bool × Bytes) : Run (Option FileFault) := do
  match (← get).targets.lookup key with
  | none => return none
  | some t =>
    if t.chunks.isEmpty then return none
    else
      modify fun s => { s with
        targets := s.targets.map fun e => if e.1 = key then (key, { t with chunks := [], size := 0 }) else e }
      system (.write t.fd t.chunks.reverse.flatten)

def checked (c : Config) (key : Bool × Bytes) (fault : Option FileFault) : Run Unit := do
  match fault with
  | none => pure ()
  | some f => fail c (bytes "write failed on file \"" ++ key.2 ++ bytes "\" (" ++ f.text ++ bytes ")")

def flushAll (c : Config) : Run Unit := do
  for e in (← get).targets do
    checked c e.1 (← flushTarget e.1)

/-- Becomes a shell command. Files and commands of the script are closed. -/
def commandTask (c : Config) (s : Machine) (command : Bytes) : Task Nat := do
  let fds := s.sources.map (·.2.fd) ++ s.targets.map (·.2.fd) ++ (s.input.map (·.fd)).toList
  for fd in fds do
    if 2 < fd then Task.call (.close fd)
  c.starter.execute (bytes "/bin/sh")
    { c.invocation with arguments := [bytes "/bin/sh", bytes "-c", command] }

/-- Starts a shell command, with one end of a pipe as one of its descriptors. Yields the other end and
the process. -/
def startCommand (c : Config) (command : Bytes) (reads : Bool) : Run (Nat × Nat) := do
  checked c standardOutput (← flushTarget standardOutput)
  let (out, inn) ← system .pipe
  let (own, other) := if reads then (out, inn) else (inn, out)
  let s ← get
  let child : Task Nat := do
    let _ ← Task.call (.copy other (if reads then 1 else 0))
    Task.call (.close out)
    Task.call (.close inn)
    commandTask c s command
  let pid ← task (Task.fork child.program)
  system (.close other)
  return (own, pid)

/-- Opens a file or command for output, if it is not open so far. It comes to the front. -/
def openTarget (c : Config) (key : Bool × Bytes) (append : Bool) : Run Unit := do
  let s ← get
  match s.targets.lookup key with
  | some t => set { s with targets := Table.set key t s.targets }
  | none =>
    let t : Target ←
      if key.1 then do
        let (fd, pid) ← startCommand c key.2 false
        pure ⟨fd, [], 0, some pid⟩
      else if key.2 = bytes "/dev/stderr" then pure ⟨2, [], 0, none⟩
      else
        let path := Utility.pathOf c.invocation key.2
        match ← system (.openFile path (if append then .append else .write)) with
        | .ok fd => pure ⟨fd, [], 0, none⟩
        | .error f =>
          fail c (bytes "cannot open \"" ++ key.2 ++ bytes "\" for output (" ++ f.text ++ bytes ")")
    modify fun s => { s with targets := Table.set key t s.targets }

def emit (c : Config) (key : Bool × Bytes) (data : Bytes) : Run Unit := do
  modify fun s => { s with
    targets := s.targets.map fun e =>
      if e.1 = key then (key, { e.2 with chunks := data :: e.2.chunks, size := e.2.size + data.length })
      else e }
  match (← get).targets.lookup key with
  | some t =>
    if bufferSize ≤ t.size || t.fd = 2 then checked c key (← flushTarget key)
  | none => pure ()

/-- Waits for a command, and yields what its end counts as. -/
def awaited (pid : Nat) : Run Nat := do
  match ← task (Utility.awaitStatus pid Sh.repeats) with
  | .code n => return n
  | .signal k => return 256 + k

/-- Closes a file or command of that name for output. -/
def closeTarget (c : Config) (key : Bool × Bytes) : Run (Option Nat) := do
  match (← get).targets.lookup key with
  | none => return none
  | some t =>
    let fault ← flushTarget key
    modify fun s => { s with targets := Table.unset key s.targets }
    if 2 < t.fd then system (.close t.fd)
    checked c key fault
    match t.child with
    | some pid => some <$> awaited pid
    | none => return some 0

def closeSource (key : Bool × Bytes) : Run (Option Nat) := do
  match (← get).sources.lookup key with
  | none => return none
  | some t =>
    modify fun s => { s with sources := Table.unset key s.sources }
    if 2 < t.fd then system (.close t.fd)
    match t.child with
    | some pid => some <$> awaited pid
    | none => return some 0

/-- Closes all that goes by a name. -/
def close (c : Config) (name : Bytes) : Run Int := do
  let ends := [← closeTarget c (false, name), ← closeTarget c (true, name),
    ← closeSource (false, name), ← closeSource (true, name)]
  match ends.filterMap id with
  | [] => return -1
  | found => return (found.getLast?.getD 0 : Nat)

/-! ## Input -/

def recordEnd (c : Config) : Run RecordEnd := do
  match RecordEnd.ofText (← textOf "RS") with
  | .ok e => return e
  | .error f => patternFault c f

/-- The next record of a source, and what is left of the source. -/
def nextRecord (c : Config) (e : RecordEnd) (name : Bytes) : Nat → Source → Run (Option Bytes × Source)
  | 0, t => return (none, t)
  | n + 1, t => do
    match e.first? t.ended t.data with
    | some (w, rest) => return (some w, { t with data := rest })
    | none =>
      if t.ended then return (none, t)
      else
        match ← system (.read t.fd 4096) with
        | .ok [] => nextRecord c e name n { t with ended := true }
        | .ok data => nextRecord c e name n { t with data := if t.data.isEmpty then data else t.data ++ data }
        | .error f => fail c (bytes "read error (" ++ f.text ++ bytes ") on " ++ name)

/-- The next record of a file or command that is read by name; no answer if it cannot be opened. -/
def recordOf (c : Config) (key : Bool × Bytes) : Run (Option (Option Bytes)) := do
  let found ← match (← get).sources.lookup key with
    | some t => pure (some t)
    | none =>
      if key.1 then do
        let (fd, pid) ← startCommand c key.2 true
        pure (some ⟨fd, [], false, some pid⟩)
      else if key.2 = ['-'] then pure (some ⟨0, [], false, none⟩)
      else
        match ← system (.openFile (Utility.pathOf c.invocation key.2) .read) with
        | .ok fd => pure (some ⟨fd, [], false, none⟩)
        | .error _ => pure none
  match found with
  | none => return none
  | some t =>
    let (w, t) ← nextRecord c (← recordEnd c) key.2 Sh.repeats t
    modify fun s => { s with sources := Table.set key t s.sources }
    return some w

/-! ## The main input -/

/-- The name and value of an operand that is an assignment. -/
def assignment? (w : Bytes) : Option (Bytes × Bytes) :=
  let name := w.takeWhile (· ≠ '=')
  if Bytes.isName name && name.length < w.length then some (name, w.drop (name.length + 1)) else none

/-- The value that a text on the command line stands for. -/
def givenValue (w : Bytes) : Value := .mixed (Token.unescaped (w.length + 1) w)

/-- Goes on to the next file among the operands; without any, the input is the standard input. -/
def openOperand (c : Config) : Nat → Run Bool
  | 0 => return false
  | n + 1 => do
    let s ← get
    let count := (← lookup "ARGC").amount.whole 0 1000000000
    let start (fd : Nat) (name : Bytes) : Run Bool := do
      store (bytes "FILENAME") (.mixed name)
      store (bytes "FNR") (.ofNat 0)
      modify fun s => { s with input := some ⟨fd, [], false, none⟩, begun := true }
      return true
    if (s.operand : Int) < count then
      set { s with operand := s.operand + 1 }
      let operands ← elements (.global (bytes "ARGV"))
      let w ← match operands.value? (.number s.operand) with
        | some v => asText v
        | none => pure []
      if w.isEmpty then openOperand c n
      else
        match assignment? w with
        | some (name, value) =>
          setVariable c name (givenValue value)
          openOperand c n
        | none =>
          if w = ['-'] then start 0 w
          else
            match ← system (.openFile (Utility.pathOf c.invocation w) .read) with
            | .ok fd => start fd w
            | .error f => fail c (bytes "cannot open \"" ++ w ++ bytes "\" (" ++ f.text ++ bytes ")")
    else if s.begun then
      modify ({ · with ended := true })
      return false
    else start 0 ['-']

/-- Leaves the file of the main input. -/
def leaveInput : Run Unit := do
  match (← get).input with
  | some t => if t.fd ≠ 0 then system (.close t.fd)
  | none => pure ()
  modify ({ · with input := none })

/-- The next record of the main input. -/
def nextMain (c : Config) : Nat → Run (Option Bytes)
  | 0 => return none
  | n + 1 => do
    let s ← get
    if s.ended then return none
    else
      match s.input with
      | none => if ← openOperand c Sh.repeats then nextMain c n else return none
      | some t =>
        let (w, t) ← nextRecord c (← recordEnd c) (← textOf "FILENAME") Sh.repeats t
        match w with
        | none =>
          leaveInput
          nextMain c n
        | some w =>
          modify ({ · with input := some t })
          let count (name : String) : Run Unit := do
            let v ← lookup name
            store (bytes name) (.number (v.amount.map (· + 1.0)))
          count "NR"
          count "FNR"
          return some w

end Run
end ValueInspector.Shell.Records
