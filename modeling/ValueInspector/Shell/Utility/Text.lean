import ValueInspector.Shell.Utility.Basic
import ValueInspector.Shell.Regex.Reader

/-! # Utilities on whole texts

Those that pass on what they read, or parts of it, or count it.
-/
namespace ValueInspector.Shell.Utility

/-! ## Passing on -/

/-- Makes a byte visible: control bytes after a caret, and bytes from 128 on after `M-`. -/
def visible (c : Char) : Bytes :=
  let low (n : Nat) : Bytes :=
    if n < 32 then ['^', Char.ofNat (n + 64)] else if n = 127 then ['^', '?'] else [Char.ofNat n]
  if c.toNat < 128 then low c.toNat else 'M' :: '-' :: low (c.toNat - 128)

/-- Digits at the right of a field. -/
def rightAligned (width : Nat) (digits : Bytes) : Bytes :=
  List.replicate (width - digits.length) ' ' ++ digits

/-- How lines are shown. -/
structure Showing where
  all : Bool
  numbered : Bool
  squeezed : Bool
  ends : Bool
  tabs : Bool
  controls : Bool

namespace Showing

def text (s : Showing) (line : Bytes) : Bytes :=
  line.flatMap fun c =>
    if c = '\t' then (if s.tabs then ['^', 'I'] else [c])
    else if s.controls then visible c else [c]

/-- Shows a line, given how many were numbered and whether the one before was empty. -/
def line (s : Showing) : Nat × Bool → Bytes → Bool → (Nat × Bool) × Bytes × Bool
  | (n, blank), l, ended =>
    if l.isEmpty && blank && s.squeezed then ((n, true), [], false)
    else
      let counts := s.numbered && (s.all || !l.isEmpty)
      let front := if counts then rightAligned 6 (Bytes.ofNat (n + 1)) ++ ['\t'] else []
      let shown := if s.ends && !s.controls && l.getLast? = some '\r' && ended then
          s.text l.dropLast ++ ['^', 'M']
        else s.text l
      let stop := if ended then (if s.ends then ['$', '\n'] else ['\n']) else []
      ((if counts then n + 1 else n, l.isEmpty), front ++ shown ++ stop, false)

end Showing

/-- Passes all on as it comes. -/
def plainStage : Stage Unit := ⟨fun _ data => ((), data, false), fun _ => []⟩

def cat : Utility :=
  let manual : Manual :=
    { usage := " [OPTION]... [FILE]...", version := versionOf "cat"
      options :=
        ["b,number-nonblank", "n,number", "s,squeeze-blank", "v,show-nonprinting", "E,show-ends",
         "T,show-tabs", "A,show-all", "e", "t", "u"]
      mixed := true, trouble := 1 }
  withOptions manual fun o rest i => do
    let has (key : String) : Bool := o.has key
    let s : Showing :=
      { all := !has "b", numbered := has "n" || has "b", squeezed := has "s"
        ends := has "E" || has "A" || has "e", tabs := has "T" || has "A" || has "t"
        controls := has "v" || has "A" || has "e" || has "t" }
    if s.numbered || s.squeezed || s.ends || s.tabs || s.controls then
      stream i rest (lineStage '\n' s.line fun _ => []) ⟨(0, false), []⟩
    else stream i rest plainStage ()

/-- Copies what is read to files as well. -/
def tee : Utility :=
  let manual : Manual :=
    { usage := " [OPTION]... [FILE]...", version := versionOf "tee"
      options := ["a,append", "i,ignore-interrupts", "p", "output-error[=]"], mixed := true, trouble := 1 }
  withOptions manual fun o rest i => do
    let access : Access := if o.has "a" then .append else .write
    let opened ← rest.mapM fun name => do
      match ← Task.call (.openFile (pathOf i name) access) with
      | .ok fd => return some (name, fd)
      | .error f =>
        complain i (quoteName name ++ bytes ": " ++ f.text)
        return none
    let outputs := (bytes "standard output", 1) :: opened.filterMap fun e => e
    copy i outputs Sh.repeats (if opened.any Option.isNone then 1 else 0)
where
  copy (i : Invocation) : List (Bytes × Nat) → Nat → Nat → Task Nat
    | _, 0, status => return status
    | outputs, n + 1, status => do
      match ← Task.call (.read 0 65536) with
      | .error f => refuse i (bytes "read error: " ++ f.text) 1
      | .ok [] => return status
      | .ok data =>
        let kept ← outputs.filterM fun (name, fd) => do
          match ← Task.call (.write fd data) with
          | none => return true
          | some f =>
            complain i (quoteName name ++ bytes ": " ++ f.text)
            return false
        let status := if kept.length < outputs.length then 1 else status
        if kept.isEmpty then return status else copy i kept n status

/-- Lines again and again. -/
def yes : Utility :=
  withOptions ⟨" [STRING]...", versionOf "yes", [], false, 1⟩ fun _ rest i => do
    let line := (if rest.isEmpty then ['y'] else Bytes.join [' '] rest) ++ ['\n']
    let block := (List.replicate (8192 / line.length + 1) line).flatten
    repeatWrite i block Sh.repeats
where
  repeatWrite (i : Invocation) (block : Bytes) : Nat → Task Nat
    | 0 => return 0
    | n + 1 => do
      match ← Task.call (.write 1 block) with
      | none => repeatWrite i block n
      | some f => refuse i (bytes "standard output: " ++ f.text) 1

/-! ## Turning round -/

/-- Cuts a text into records. `after` tells whether a separator belongs to the record before it. -/
def cutRecords (separator : Bytes) (after : Bool) : Nat → Bytes → Bytes → List Bytes → List Bytes
  | 0, _, current, acc => current.reverse :: acc
  | n + 1, cs, current, acc =>
    match cs with
    | [] => if current.isEmpty then acc else current.reverse :: acc
    | c :: rest =>
      match Bytes.after? separator cs with
      | some more =>
        if after then cutRecords separator after n more [] ((current.reverse ++ separator) :: acc)
        else
          cutRecords separator after n more separator.reverse
            (if current.isEmpty then acc else current.reverse :: acc)
      | none => cutRecords separator after n rest (c :: current) acc

/-- Single bytes that an expression fits are separators of their own. -/
def cutAt (r : Regex) (after : Bool) : Bytes → Bytes → List Bytes → List Bytes
  | [], current, acc => if current.isEmpty then acc else current.reverse :: acc
  | c :: rest, current, acc =>
    if (r.matchAt? (r.modeFor false) (.ofText [c])).any (·.index = 1) then
      if after then cutAt r after rest [] ((c :: current).reverse :: acc)
      else cutAt r after rest [c] (if current.isEmpty then acc else current.reverse :: acc)
    else cutAt r after rest (c :: current) acc

def tac : Utility :=
  let manual : Manual :=
    { usage := " [OPTION]... [FILE]...", version := versionOf "tac"
      options := ["b,before", "r,regex", "s,separator="], mixed := true, trouble := 1 }
  withOptions manual fun o rest i => do
    let separator := match o.value? "s" with
      | some [] => [Char.ofNat 0]
      | some s => s
      | none => ['\n']
    let cut (data : Bytes) : List Bytes :=
      match (if o.has "r" then (Regex.ofText .basic separator).toOption else none) with
      | some r => cutAt r (!o.has "b") data [] []
      | none => cutRecords separator (!o.has "b") (data.length + 1) data [] []
    let statuses ← (if rest.isEmpty then [['-']] else rest).mapM fun name => do
      match ← contents i name with
      | .ok data => put i (cut data).flatten
      | .error f =>
        if f = .isDirectory then refuse i (quoteName name ++ bytes ": read error: " ++ f.text) 1
        else refuse i (bytes "failed to open " ++ quoted name ++ bytes " for reading: " ++ f.text) 1
    return statuses.foldl max 0

/-- Turns each line round. A byte that is no ASCII is never got past. -/
def rev : Utility :=
  let manual : Manual :=
    ⟨" [options] [file ...]", "rev from util-linux 2.39.3", ["0,zero"], true, 1⟩
  withOptions manual fun o rest i => do
    let stop := if o.has "0" then Char.ofNat 0 else '\n'
    let statuses ← (if rest.isEmpty then [['-']] else rest).mapM fun name => do
      match ← contents i name with
      | .error f => refuse i (bytes "cannot open " ++ name ++ bytes ": " ++ f.text) 1
      | .ok data =>
        if data.any (127 < ·.toNat) then fun _ => .endless
        else
          let parts := data.splitOn stop
          put i (Bytes.join [stop] (parts.map List.reverse))
    return statuses.foldl max 0

/-! ## Counting -/

def countLines (text : Bytes) : Nat := text.count '\n'

/-- Words are runs of bytes between blanks that hold a byte that can be printed. -/
def countWords (text : Bytes) : Nat :=
  let (n, inside) := text.foldl
    (fun (n, inside) c =>
      if Bytes.isSpace c then (if inside then n + 1 else n, false)
      else (n, inside || (32 < c.toNat && c.toNat < 127)))
    (0, false)
  if inside then n + 1 else n

/-- The width of the widest line, with tabs to every eighth place. -/
def widestLine (text : Bytes) : Nat :=
  let (most, here) := text.foldl
    (fun (most, here) c =>
      if c = '\n' || c = '\r' || c = Char.ofNat 12 then (max most here, 0)
      else if c = '\t' then (most, here + 8 - here % 8)
      else if 32 ≤ c.toNat && c.toNat < 127 then (most, here + 1)
      else (most, here))
    (0, 0)
  max most here

/-- The counts of texts that can be asked for, in the order in which they are shown. -/
def countings : List (String × (Bytes → Nat)) :=
  [("l", countLines), ("w", countWords), ("m", List.length), ("c", List.length), ("L", widestLine)]

def wc : Utility :=
  let manual : Manual :=
    { usage := " [OPTION]... [FILE]...", version := versionOf "wc"
      options :=
        ["c,bytes", "m,chars", "l,lines", "w,words", "L,max-line-length", "files0-from=", "total=", "debug"]
      mixed := true, trouble := 1 }
  withOptions manual fun o rest i => do
    let chosen := countings.filter fun c => o.has c.1
    let chosen := if chosen.isEmpty then countings.filter fun c => c.1 ∈ ["l", "w", "c"] else chosen
    let names := if rest.isEmpty then [['-']] else rest
    let infos ← names.mapM fun name => do
      return (← Task.call (.inspect true
        (if name = ['-'] then bytes "/dev/stdin" else pathOf i name))).toOption
    let regular := infos.filterMap fun info => info.bind fun f =>
      if f.kind = .regular then some f.size else none
    let width :=
      if names.length = 1 && chosen.length = 1 || infos.head?.any Option.isNone then 1
      else
        let total := regular.foldl (· + ·) 0
        let other := infos.any fun info => info.any (·.kind ≠ .regular)
        max (Bytes.ofNat total).length (if other then 7 else 1)
    let row (counts : List Nat) (name : Bytes) : Bytes :=
      Bytes.join [' '] (counts.map fun n => rightAligned width (Bytes.ofNat n)) ++
        (if name.isEmpty then [] else ' ' :: name) ++ ['\n']
    let when := o.value? "total"
    let results ← names.mapM fun name => do
      let shown := if rest.isEmpty then [] else name
      let present (data : Bytes) (status : Nat) : Task (Bytes × Nat) := do
        if when = some (bytes "only") then return (data, status)
        else
          let written ← put i (row (chosen.map fun c => c.2 data) shown)
          return (data, max status written)
      match ← contents i name with
      | .ok data => present data 0
      | .error f =>
        complain i (quoteName name ++ bytes ": " ++ f.text)
        if f = .isDirectory then present [] 1 else return ([], 1)
    let totals := chosen.map fun c =>
      let all := results.map fun r => c.2 r.1
      if c.1 = "L" then all.foldl max 0 else all.foldl (· + ·) 0
    let wanted : Bool := match when.map String.ofList with
      | some "always" | some "only" => true
      | some "never" => false
      | _ => 1 < names.length
    let status := (results.map (·.2)).foldl max 0
    if wanted then
      let label := if when = some (bytes "only") then [] else bytes "total"
      return max status (← put i (row totals label))
    else return status

/-! ## Fronts and backs -/

/-- So many lines at the front of a text, and how many are still missing. -/
def takeLines (stop : Char) : Nat → Bytes → Bytes → Bytes × Nat
  | n, [], acc => (acc.reverse, n)
  | 0, _ :: _, acc => (acc.reverse, 0)
  | n + 1, c :: rest, acc =>
    if c = stop then takeLines stop n rest (c :: acc) else takeLines stop (n + 1) rest (c :: acc)

/-- Copies so much from a descriptor, and gives back what was read too much. -/
def copyFront (i : Invocation) (fd : Nat) (stop : Char) (ofLines : Bool) :
    Nat → Nat → Task (Except FileFault Nat)
  | 0, _ => return .ok 0
  | _, 0 => return .ok 0
  | n + 1, missing => do
    match ← Task.call (.read fd (if ofLines then 65536 else min 65536 missing)) with
    | .error f => return .error f
    | .ok [] => return .ok 0
    | .ok data =>
      let (part, missing) := if ofLines then takeLines stop missing data []
        else (data, missing - data.length)
      let status ← put i part
      if status ≠ 0 then return .ok status
      else
        if part.length < data.length then Task.call (.rewind fd (data.length - part.length))
        copyFront i fd stop ofLines n missing

/-- Titles above the parts of several files. -/
def title (first : Bool) (name : Bytes) : Bytes :=
  (if first then [] else ['\n']) ++ bytes "==> " ++
    (if name = ['-'] then bytes "standard input" else name) ++ bytes " <==\n"

/-- Shows parts of files one after the other, under titles if these are wanted. -/
def showParts (i : Invocation) (titles : Bool) (names : List Bytes)
    (part : Nat → Task (Except FileFault Nat)) : Task Nat := do
  let rec each : Bool → List Bytes → Nat → Task Nat
    | _, [], status => return status
    | first, name :: rest, status => do
      match ← openInput i name with
      | .error f =>
        complain i (bytes "cannot open " ++ quoted name ++ bytes " for reading: " ++ f.text)
        each first rest 1
      | .ok fd =>
        let written ← if titles then put i (title first name) else pure 0
        let outcome ← part fd
        closeInput fd
        match outcome with
        | .ok k => each false rest (max (max status written) k)
        | .error f =>
          complain i (bytes "error reading " ++ quoted name ++ bytes ": " ++ f.text)
          each false rest 1
  each true (if names.isEmpty then [['-']] else names) 0

/-- Old forms of options: a dash and a number, with letters after it. -/
def oldFront? (w : Bytes) : Option (Bytes × Bytes) :=
  match w with
  | '-' :: c :: cs =>
    if c.isDigit then
      let digits := (c :: cs).takeWhile Char.isDigit
      some (digits, (c :: cs).drop digits.length)
    else none
  | _ => none

def headManual : Manual :=
  { usage := " [OPTION]... [FILE]...", version := versionOf "head"
    options := ["c,bytes=", "n,lines=", "q,quiet,silent", "v,verbose", "z,zero-terminated"]
    mixed := true, trouble := 1 }

def head : Utility := fun i =>
  -- an old form in front becomes options of today
  let (words, fault) := match operands i with
    | w :: rest =>
      match oldFront? w with
      | some (digits, letters) =>
        let unit := letters.filter (· ∈ ['c', 'b', 'k', 'm', 'l'])
        let wrong := letters.filter fun c => c ∉ ['c', 'b', 'k', 'm', 'l', 'q', 'v', 'z']
        let suffix := (unit.filter (· ∈ ['b', 'k', 'm'])).take 1
        let key := if unit.any (· ≠ 'l') then 'c' else 'n'
        let flags := (letters.filter (· ∈ ['q', 'v', 'z'])).map fun c => ['-', c]
        (['-', key] :: (digits ++ suffix) :: flags ++ rest, wrong.head?)
      | none => (operands i, none)
    | [] => ([], none)
  match fault with
  | some c => refuseUse i (bytes "invalid trailing option -- " ++ [c]) 1
  | none =>
    withOptions headManual (fun o rest i => do
      let key := (o.last? ["c", "n"]).getD "n"
      let given := (o.value? key).getD (bytes "10")
      let inverted := given.head? = some '-'
      match size? (if inverted then given.drop 1 else given) with
      | none =>
        let unit := if key = "c" then "bytes" else "lines"
        refuse i (bytes "invalid number of " ++ bytes unit ++ bytes ": " ++ quoted given) 1
      | some count =>
        let stop := if o.has "z" then Char.ofNat 0 else '\n'
        let titles := match o.last? ["q", "v"] with
          | some "v" => true
          | some _ => false
          | none => 1 < rest.length
        showParts i titles rest fun fd => do
          if !inverted then copyFront i fd stop (key = "n") Sh.repeats count
          else
            match ← Sh.readAll fd Sh.repeats [] with
            | .error f => return .error f
            | .ok data =>
              if key = "c" then return .ok (← put i (data.take (data.length - count)))
              else
                let all := wholeLines stop data
                return .ok (← put i (all.take (all.length - count)).flatten))
      { i with arguments := i.arguments.take 1 ++ words }

def tailManual : Manual :=
  { usage := " [OPTION]... [FILE]...", version := versionOf "tail"
    options :=
      ["c,bytes=", "n,lines=", "q,quiet,silent", "v,verbose", "z,zero-terminated", "f,follow[=]", "F",
       "s,sleep-interval=", "pid=", "retry", "max-unchanged-stats="]
    mixed := true, trouble := 1 }

/-- Skips so many bytes or lines, and passes on the rest. -/
def skipStage (stop : Char) (ofLines : Bool) : Stage Nat where
  step missing data :=
    if missing = 0 then (0, data, false)
    else if ofLines then
      let (part, missing) := takeLines stop missing data []
      (missing, data.drop part.length, false)
    else (missing - data.length, data.drop missing, false)
  finish _ := []

def tail : Utility := fun i =>
  let words := operands i
  -- an old form: a sign, digits, and a letter for the unit
  let old? : Option (List Bytes) := match words with
    | (sign :: cs) :: rest =>
      let digits := cs.takeWhile Char.isDigit
      let letters := cs.drop digits.length
      if (sign = '-' && !digits.isEmpty || sign = '+') && rest.length ≤ 1 &&
          letters.all (· ∈ ['c', 'b', 'l', 'f']) && (!digits.isEmpty || !letters.isEmpty) then
        let key := if letters.any (· ∈ ['c', 'b']) then 'c' else 'n'
        let suffix := if 'b' ∈ letters then ['b'] else []
        let number := (if digits.isEmpty then bytes "10" else digits) ++ suffix
        some (['-', key] :: ((if sign = '+' then ['+'] else []) ++ number) :: rest)
      else none
    | _ => none
  let refused := match old?, words with
    | none, w :: _ =>
      (oldFront? w).bind fun e => if e.1.isEmpty then none else e.1.head?
    | _, _ => none
  match refused with
  | some c => refuse i (bytes "option used in invalid context -- " ++ [c]) 1
  | none =>
    withOptions tailManual (fun o rest i => do
      let key := (o.last? ["c", "n"]).getD "n"
      let given := (o.value? key).getD (bytes "10")
      let inverted := given.head? = some '+'
      let signed := inverted || given.head? = some '-'
      match size? (if signed then given.drop 1 else given) with
      | none =>
        let unit := if key = "c" then "bytes" else "lines"
        refuse i (bytes "invalid number of " ++ bytes unit ++ bytes ": " ++ quoted given) 1
      | some count =>
        let stop := if o.has "z" then Char.ofNat 0 else '\n'
        let titles := match o.last? ["q", "v"] with
          | some "v" => true
          | some _ => false
          | none => 1 < rest.length
        showParts i titles rest fun fd => do
          if inverted then
            match ← pour i (skipStage stop (key = "n")) fd Sh.repeats (count - 1) with
            | .error f => return .error f
            | .ok (_, status, _) => return .ok status
          else
            match ← Sh.readAll fd Sh.repeats [] with
            | .error f => return .error f
            | .ok data =>
              if key = "c" then return .ok (← put i (data.drop (data.length - count)))
              else
                let all := wholeLines stop data
                return .ok (← put i (all.drop (all.length - count)).flatten))
      { i with arguments := i.arguments.take 1 ++ old?.getD words }

end ValueInspector.Shell.Utility
