import ValueInspector.Shell.OrderedRegex.Reader
import ValueInspector.Shell.Regex.Reader
import ValueInspector.Shell.Utility.Basic

/-! # Lines that hold a text

`grep` shows the lines that hold a match of one of its patterns, or those that do not, with the lines
around them. A line is selected by the longest match that starts first among all patterns; matches may
be asked to be whole words or whole lines.
-/
namespace ValueInspector.Shell.Utility

/-! ## Matches -/

/-- What is looked for in a line. -/
structure Sought where
  patterns : List (Regex × Regex.Mode)
  /-- Instead of them, an expression of which the first way counts. -/
  ordered : Option OrderedRegex
  words : Bool
  whole : Bool
  inverted : Bool

namespace Sought

/-- The end of the longest match at a place. -/
def endAt? (s : Sought) (p : Regex.Place) : Option Regex.Place :=
  let all := s.patterns.flatMap fun e => Regex.ends e.2 e.1 { p with groups := [] }
  let inWord (c : Option Char) : Bool := c.any Bytes.isNameChar
  let fits (q : Regex.Place) : Bool :=
    if s.whole then p.behind.isEmpty && q.ahead.isEmpty
    else !s.words || !(inWord p.behind.head? || inWord q.ahead.head?)
  (all.filter fits).foldl
    (fun best q =>
      match best with
      | some b => if b.index < q.index then some q else best
      | none => some q)
    none

/-- The match at a place: what is shown of it, from one place to another one. -/
def matchAt? (s : Sought) (p : Regex.Place) : Option (Regex.Place × Regex.Place) :=
  match s.ordered with
  | some r => r.matchAt? p
  | none => (s.endAt? p).map (p, ·)

/-- The first match from a place on. One with the whole line can only start right there. -/
def search? (s : Sought) (p : Regex.Place) : Option (Regex.Place × Regex.Place) :=
  if s.whole && s.ordered.isNone then s.matchAt? p else p.scan s.matchAt?

def selects (s : Sought) (line : Bytes) : Bool := (s.search? (.ofText line)).isSome != s.inverted

/-- The matches from a place on that are not empty, and where each of them starts. -/
def matchesFrom (s : Sought) : Nat → Regex.Place → List (Regex.Place × Bytes)
  | 0, _ => []
  | n + 1, p =>
    match s.search? p with
    | none => []
    | some (a, b) =>
      if a.index < b.index then (a, a.between b) :: matchesFrom s n b
      else
        match a.step with
        | some (_, next) => matchesFrom s n next
        | none => []

def allMatches (s : Sought) (line : Bytes) : List (Regex.Place × Bytes) :=
  matchesFrom s (line.length + 1) (.ofText line)

end Sought

/-! ## What is shown -/

/-- How selected lines are shown. -/
structure Search where
  sought : Sought
  /-- What ends a line. -/
  stop : Char
  numbers : Bool
  offsets : Bool
  aligned : Bool
  zeroNames : Bool
  colored : Bool
  /-- Only the matches are shown. -/
  only : Bool
  /-- No lines are shown. -/
  silent : Bool
  /-- One selected line is enough. -/
  first : Bool
  counted : Bool
  most : Option Nat
  before : Option Nat
  after : Option Nat
  separator : Option Bytes
  /-- Zero bytes are no reason to keep lines back. -/
  text : Bool
  /-- A file with a zero byte has no lines. -/
  skipBinary : Bool

namespace Search

def paint (s : Search) (code : String) (text : Bytes) : Bytes :=
  let mark (code : String) : Bytes := Char.ofNat 27 :: bytes ("[" ++ code ++ "m") ++ Char.ofNat 27 :: bytes "[K"
  if s.colored then mark code ++ text ++ mark "" else text

def nameText (s : Search) (name : Bytes) (sign : Char) : Bytes :=
  s.paint "35" name ++ if s.zeroNames then [Char.ofNat 0] else s.paint "36" [sign]

/-- What stands before a line: the file, the number of the line and its place in bytes. -/
def lead (s : Search) (name : Option Bytes) (number offset : Nat) (sign : Char) (empty : Bool) : Bytes :=
  let figure (n : Nat) : Bytes :=
    let digits := Bytes.ofNat n
    let padding := if s.aligned then List.replicate (19 - digits.length) ' ' else []
    s.paint "32" (padding ++ digits) ++ s.paint "36" [sign]
  let front := (name.map fun n => s.nameText n sign).getD [] ++
    (if s.numbers then figure number else []) ++ if s.offsets then figure offset else []
  if s.aligned && !empty && (name.isSome || s.numbers || s.offsets) then front ++ ['\t'] else front

/-- A line with its matches painted. -/
def painted (s : Search) (line : Bytes) : Bytes :=
  let rec parts (done : Nat) : List (Regex.Place × Bytes) → Bytes
    | [] => line.drop done
    | (p, text) :: rest =>
      (line.drop done).take (p.index - done) ++ s.paint "01;31" text ++ parts (p.index + text.length) rest
  parts 0 (s.sought.allMatches line)

/-- A line as it is shown, selected or beside a selected one. -/
def row (s : Search) (name : Option Bytes) (number offset : Nat) (selected : Bool) (line : Bytes) : Bytes :=
  let sign := if selected then ':' else '-'
  let matching := selected != s.sought.inverted
  if s.only then
    if matching then
      ((s.sought.allMatches line).map fun m =>
        s.lead name number (offset + m.1.index) sign false ++ s.paint "01;31" m.2 ++ [s.stop]).flatten
    else []
  else
    s.lead name number offset sign line.isEmpty ++
      (if s.colored && matching then s.painted line else line) ++ [s.stop]

end Search

/-! ## Passing lines -/

/-- A line with its number and its place in bytes. -/
structure PlacedLine where
  number : Nat
  offset : Nat
  text : Bytes

structure SearchState where
  number : Nat
  offset : Nat
  /-- How many lines were selected, and where the last of them ended. -/
  count : Nat
  stop : Nat
  /-- Lines that were not shown, the latest first. -/
  recent : List PlacedLine
  /-- How many of the next lines are to be shown. -/
  pending : Nat
  /-- The last line that was shown. -/
  shown : Option Nat
  /-- Lines were shown, of this file or another one. -/
  used : Bool
  /-- There was a zero byte. -/
  binary : Bool

namespace SearchState

def start (used : Bool) : SearchState := ⟨0, 0, 0, 0, [], 0, none, used, false⟩

end SearchState

namespace Search

/-- Passes a line. -/
def pass (s : Search) (name : Option Bytes) (st : SearchState) (text : Bytes) (_ : Bool) :
    SearchState × Bytes × Bool :=
  let line : PlacedLine := ⟨st.number + 1, st.offset, text⟩
  let st := { st with number := line.number, offset := st.offset + text.length + 1 }
  let display (selected : Bool) (l : PlacedLine) : Bytes := s.row name l.number l.offset selected l.text
  let isOpen (st : SearchState) : Bool := s.most.all fun k => st.count < k
  let silent := s.silent || st.binary
  if isOpen st && s.sought.selects text then
    let st := { st with count := st.count + 1, stop := st.offset }
    if silent then (st, [], s.first || (st.binary && !s.counted) || !isOpen st)
    else
      let ahead := st.recent.reverse
      let least := (ahead.head?.map PlacedLine.number).getD line.number
      let apart := (s.before.isSome || s.after.isSome) && st.used && st.shown.all (· + 1 ≠ least)
      let gap := if apart then (s.separator.map fun t => s.paint "36" t ++ ['\n']).getD [] else []
      let st := { st with recent := [], pending := s.after.getD 0, shown := some line.number, used := true }
      (st, gap ++ (ahead.map (display false)).flatten ++ display true line, !isOpen st && st.pending = 0)
  else if 0 < st.pending then
    let st := { st with pending := st.pending - 1, shown := some line.number }
    (st, display false line, !isOpen st && st.pending = 0)
  else ({ st with recent := (line :: st.recent).take (s.before.getD 0) }, [], !isOpen st)

/-- The lines of a file as a stage. A zero byte makes lines be kept back, and ends lines too. -/
def stage (s : Search) (name : Option Bytes) : Stage (LineState SearchState) :=
  let ofLines := lineStage s.stop (s.pass name) fun _ => []
  { step := fun st data =>
      let zero := Char.ofNat 0
      let found := s.stop = '\n' && !s.text && zero ∈ data
      let st := if found then { st with inner := { st.inner with binary := true } } else st
      if found && s.skipBinary then (⟨{ st.inner with count := 0 }, []⟩, [], true)
      else if st.inner.binary then
        ofLines.step st (data.map fun c => if c = zero then '\n' else c)
      else
        let (st, out, ended) := ofLines.step st data
        (st, out, ended)
    finish := fun _ => [] }

end Search

/-! ## Files -/

/-- Which files are searched, and what is told of them. -/
structure SearchPlan where
  search : Search
  /-- Whether names stand before lines; if it is not said, they do for several files. -/
  named : Option Bool
  label : Bytes
  /-- The names of files with a selected line are listed, or of those without. -/
  listed : Option Bool
  quiet : Bool
  suppressed : Bool
  /-- What is in directories is searched too, through links if the second part holds. -/
  deep : Option Bool
  skipDirectories : Bool
  /-- Names of files that are searched, of files that are not, and of directories that are not. -/
  included : List Pattern
  excluded : List Pattern
  closed : List Pattern

/-- What came out of files: a line was selected, something went wrong, lines were shown, all is done. -/
structure SearchResult where
  selected : Bool
  failed : Bool
  used : Bool
  done : Bool

namespace SearchPlan

/-- Passes an open file. Of a file that is read only in part, standard input goes back to the place after
the last line. -/
def pourFile (p : SearchPlan) (i : Invocation) (name : Bytes) (shown : Option Bytes) (fd : Nat)
    (r : SearchResult) : Task SearchResult := do
  let stage := p.search.stage shown
  let rec pieces : Nat → LineState SearchState → Nat → Task (Except FileFault (SearchState × Nat))
    | 0, st, k => return .ok (st.inner, k)
    | n + 1, st, k => do
      match ← Task.call (.read fd 65536) with
      | .error f => return .error f
      | .ok data =>
        let (st, out, ended) :=
          if data.isEmpty then
            let last := st.pending.reverse.flatten
            if last.isEmpty then (st, [], true)
            else
              let (inner, out, _) := p.search.pass shown st.inner last false
              (⟨inner, []⟩, out, true)
          else stage.step st data
        let status ← put i out
        if status ≠ 0 then return .ok (st.inner, status)
        else if ended then
          let read := k + data.length
          let unread := read - min read st.inner.stop
          if fd = 0 && !data.isEmpty && p.search.most.isSome && !p.search.first && 0 < unread then
            Task.call (.rewind fd unread)
          return .ok (st.inner, 0)
        else pieces n st (k + data.length)
  match ← pieces Sh.repeats ⟨.start r.used, []⟩ 0 with
  | .error f =>
    if !p.suppressed then complain i (name ++ bytes ": " ++ f.text)
    return { r with failed := true }
  | .ok (st, status) =>
    let found : Bool := 0 < st.count
    let line (text : Bytes) : Task Nat := put i text
    let counted ←
      if p.search.counted then
        line ((shown.map fun n => p.search.nameText n ':').getD [] ++ Bytes.ofNat st.count ++ ['\n'])
      else pure 0
    let written ←
      if p.listed = some found then
        let stop := if p.search.zeroNames then Char.ofNat 0 else '\n'
        line (p.search.paint "35" name ++ [stop])
      else pure 0
    if st.binary && found && !p.search.counted && !p.search.silent then
      complain i (name ++ bytes ": binary file matches")
    return {
      selected := r.selected || found
      failed := r.failed || status + counted + written ≠ 0
      used := st.used
      done := p.quiet && found }

/-- Whether the name of a file lets it be searched. -/
def admits (p : SearchPlan) (path : Bytes) : Bool :=
  let last := (path.splitOn '/').getLast?.getD path
  let fits (ps : List Pattern) : Bool := ps.any fun q => q.fits last || q.fits path
  !fits p.excluded && (p.included.isEmpty || fits p.included)

def searchFile (p : SearchPlan) (i : Invocation) (name : Bytes) (named : Bool) (r : SearchResult) :
    Task SearchResult := do
  let title := if name = ['-'] then p.label else name
  if name ≠ ['-'] && !p.admits name then return r
  else
    match ← openInput i name with
    | .error f =>
      if !p.suppressed then complain i (title ++ bytes ": " ++ f.text)
      return { r with failed := true }
    | .ok fd =>
      let r ← p.pourFile i title (if named then some title else none) fd r
      closeInput fd
      return r

/-- Searches a file, or all that is in a directory. Links within it are followed if asked to. -/
def searchPath (p : SearchPlan) (i : Invocation) (named : Bool) :
    Nat → Bool → List Bytes → SearchResult → Task SearchResult
  | 0, _, _, r => return r
  | _, _, [], r => return r
  | n + 1, top, name :: rest, r => do
    if r.done then return r
    else
      let follow := top || p.deep = some true
      let found ← if name = ['-'] then pure (Except.error FileFault.missing)
        else Task.call (.inspect follow (pathOf i (if name.isEmpty then ['.'] else name)))
      match found with
      | .ok info =>
        if info.isDirectory && p.deep.isSome then
          let last := (name.splitOn '/').getLast?.getD name
          if !top && p.closed.any (·.fits last) then searchPath p i named n top rest r
          else
            match ← Task.call (.list (pathOf i (if name.isEmpty then ['.'] else name))) with
            | .error f =>
              if !p.suppressed then complain i (name ++ bytes ": " ++ f.text)
              searchPath p i named n top rest { r with failed := true }
            | .ok names =>
              let names := names.filter fun w => w ≠ ['.'] && w ≠ ['.', '.']
              let under := if name.isEmpty then [] else if name.getLast? = some '/' then name else name ++ ['/']
              let r ← searchPath p i named n false (names.map (under ++ ·)) r
              searchPath p i named n top rest r
        else if info.isDirectory && p.skipDirectories then searchPath p i named n top rest r
        else if !top && info.kind ≠ .regular then searchPath p i named n top rest r
        else
          let r ← p.searchFile i name named r
          searchPath p i named n top rest r
      | .error _ =>
        let r ← p.searchFile i name named r
        searchPath p i named n top rest r

/-- Searches all operands. -/
def run (p : SearchPlan) (i : Invocation) (names : List Bytes) : Task Nat := do
  let names := if !names.isEmpty then names else if p.deep.isSome then [[]] else [['-']]
  let severalOrDeep ←
    match names with
    | [name] =>
      if p.deep.isNone || name = ['-'] then pure false
      else
        match ← Task.call (.inspect true (pathOf i (if name.isEmpty then ['.'] else name))) with
        | .ok info => pure info.isDirectory
        | .error _ => pure false
    | _ => pure true
  let r ← p.searchPath i (p.named.getD severalOrDeep) Sh.repeats true names ⟨false, false, false, false⟩
  return if r.done then 0 else if r.failed then 2 else if r.selected then 0 else 1

end SearchPlan

/-! ## Words -/

/-- A count of lines. -/
def contextLength? (w : Bytes) : Option Nat := Bytes.natural? w

/-- The ways of writing patterns, by the letters that choose them. -/
def readPattern (kind : Option String) (line : Bytes) : Except RegexFault Regex :=
  match kind with
  | some "F" => .ok (Regex.ofLiteral line)
  | some "E" => Regex.ofText .lenientExtended line
  | _ => Regex.ofText .basic line

/-- Reads an expression with an order, to fit as a word or as a line if that is asked for. -/
def readOrdered (fold lines words whole : Bool) (line : Bytes) : Except OrderedRegex.Fault OrderedRegex :=
  let flags : OrderedRegex.Flags := ⟨fold, lines, false, false⟩
  if whole then (OrderedRegex.ofText flags line).map (.forLines lines)
  else if words then OrderedRegex.ofText flags (bytes "(?<!\\w)(?:" ++ line ++ bytes ")(?!\\w)")
  else OrderedRegex.ofText flags line

/-- What is looked for, as the options and the lines of the patterns tell. -/
def readSought (o : Options) (kind : Option String) (lines : List Bytes) : Except Bytes Sought :=
  let fold : Bool := decide (o.last? ["i", "no-ignore-case"] = some "i")
  let words := o.has "w"
  let whole := o.has "x"
  let inverted := o.has "v"
  if kind = some "P" then
    match lines with
    | [line] =>
      match readOrdered fold (o.has "z") words whole line with
      | .ok r => .ok { patterns := [], ordered := some r, words, whole, inverted }
      | .error f => .error f.text
    | _ => .error (bytes "the -P option only supports a single pattern")
  else
    match lines.mapM (readPattern kind) with
    | .ok patterns =>
      .ok { patterns := patterns.map fun r => (r, r.modeFor fold), ordered := none, words, whole, inverted }
    | .error f => .error f.text

/-- The texts of the patterns, one for each line of each. -/
def patternLines (i : Invocation) : List (String × Bytes) → List Bytes → Task (Except Bytes (List Bytes))
  | [], acc => return .ok acc
  | ("e", text) :: rest, acc => patternLines i rest (acc ++ text.splitOn '\n')
  | ("f", name) :: rest, acc => do
    match ← contents i name with
    | .ok data => patternLines i rest (acc ++ Bytes.lines data)
    | .error f => return .error (name ++ bytes ": " ++ f.text)
  | _ :: rest, acc => patternLines i rest acc

/-- Shows lines that fit, or those that do not. -/
def grep : Utility :=
  let digits := (List.range 10).map toString
  let manual : Manual :=
    { usage := " [OPTION]... PATTERNS [FILE]...", version := "grep (GNU grep) 3.11"
      options :=
        ["E,extended-regexp", "F,fixed-strings", "G,basic-regexp", "P,perl-regexp", "e,regexp=", "f,file=",
         "i,y,ignore-case", "no-ignore-case", "w,word-regexp", "x,line-regexp", "z,null-data",
         "s,no-messages", "v,invert-match", "m,max-count=", "b,byte-offset", "n,line-number",
         "line-buffered", "H,with-filename", "h,no-filename", "label=", "o,only-matching", "q,quiet,silent",
         "binary-files=", "a,text", "I", "d,directories=", "D,devices=", "r,recursive",
         "R,dereference-recursive", "include=", "exclude=", "exclude-from=", "exclude-dir=",
         "L,files-without-match", "l,files-with-matches", "c,count", "T,initial-tab", "Z,null",
         "B,before-context=", "A,after-context=", "C,context=", "group-separator=", "no-group-separator",
         "color,colour[=]", "U,binary", "V"] ++ digits
      mixed := true, trouble := 2 }
  withOptions manual fun o rest i => do
    let kinds := (o.found.filter fun f => f.1 ∈ ["E", "F", "G", "P"]).map (·.1)
    let lengths := [o.value? "B", o.value? "A", o.value? "C"].reduceOption
    let typed := (o.found.filter fun f => f.1 ∈ digits).flatMap fun f => bytes f.1
    let given := o.has "e" || o.has "f"
    let most? := (o.value? "m").map fun w =>
      match w with
      | '-' :: w => (Bytes.natural? w).map fun _ => none
      | w => (Bytes.natural? w).map some
    let color := (o.value? "color").getD []
    let binaryKind := o.value? "binary-files"
    let action := o.value? "d"
    if o.has "V" then put i (bytes "grep (GNU grep) 3.11\n")
    else if !(kinds.all fun k => some k = kinds.head?) then
      refuse i (bytes "conflicting matchers specified") 2
    else
      match lengths.find? fun w => (contextLength? w).isNone with
      | some w => refuse i (w ++ bytes ": invalid context length argument") 2
      | none =>
        if most? = some none then refuse i (bytes "invalid max count") 2
        else if !(binaryKind.all fun w => String.ofList w ∈ ["binary", "text", "without-match"]) then
          refuse i (bytes "unknown binary-files type") 2
        else if !given && rest.isEmpty then do
          let name := nameOf i
          let _ ← Task.call (.write 2 (bytes "Usage: " ++ name ++ bytes manual.usage ++ bytes "\nTry '" ++
            name ++ bytes " --help' for more information.\n"))
          return 2
        else
          let sources := if given then o.found else [("e", rest.head?.getD [])]
          let names := if given then rest else rest.drop 1
          match ← patternLines i sources [] with
          | .error message => refuse i message 2
          | .ok lines =>
            match readSought o kinds.head? lines with
            | .error message => refuse i message 2
            | .ok sought => do
              let context :=
                match o.last? ("C" :: digits) with
                | some "C" => (o.value? "C").bind contextLength?
                | some _ => Bytes.natural? typed
                | none => none
              let quiet := o.has "q"
              let listed := if quiet then none else (o.last? ["l", "L"]).map fun k => decide (k = "l")
              let first := quiet || listed.isSome
              let patternsOf (key : String) : List Pattern :=
                (o.values key).map fun w => Pattern.ofMarked (Marked.plain w)
              let search : Search :=
                { sought
                  stop := if o.has "z" then Char.ofNat 0 else '\n'
                  numbers := o.has "n", offsets := o.has "b", aligned := o.has "T", zeroNames := o.has "Z"
                  colored := Bytes.isAmong color [bytes "always", bytes "yes", bytes "force"]
                  only := o.has "o", silent := first || o.has "c", first, counted := o.has "c" && !first
                  most := (most?.bind fun m => m).bind fun m => m
                  before := ((o.value? "B").bind contextLength?).or context
                  after := ((o.value? "A").bind contextLength?).or context
                  separator :=
                    match o.last? ["group-separator", "no-group-separator"] with
                    | some "group-separator" => o.value? "group-separator"
                    | some _ => none
                    | none => some (bytes "--")
                  text := o.has "a" || binaryKind = some (bytes "text")
                  skipBinary := o.has "I" || binaryKind = some (bytes "without-match") }
              let recursive := o.last? ["r", "R"]
              let plan : SearchPlan :=
                { search, listed, quiet, suppressed := o.has "s"
                  named := (o.last? ["H", "h"]).map fun k => decide (k = "H")
                  label := (o.value? "label").getD (bytes "(standard input)")
                  deep :=
                    match recursive with
                    | some k => some (decide (k = "R"))
                    | none => if action = some (bytes "recurse") then some false else none
                  skipDirectories := action = some (bytes "skip")
                  included := patternsOf "include", excluded := patternsOf "exclude"
                  closed := patternsOf "exclude-dir" }
              if search.most = some 0 then return 1 else plan.run i names

end ValueInspector.Shell.Utility
