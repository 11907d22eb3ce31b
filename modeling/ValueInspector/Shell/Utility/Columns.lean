import ValueInspector.Shell.Arithmetic
import ValueInspector.Shell.Utility.Basic
import ValueInspector.Shell.Regex.Reader

/-! # Utilities on parts of lines

Those that cut lines into columns or fields, put lines side by side, fold them, number them, and turn
tabs into spaces and back.
-/
namespace ValueInspector.Shell.Utility

/-! ## Cutting -/

/-- Positions from one to another, counted from one; without an end, up to the last. -/
structure Span where
  first : Nat
  last : Option Nat
deriving DecidableEq, Repr

namespace Span

/-- What is wrong with a list of positions. -/
inductive Fault where
  | zero
  | decreasing
  | noEnd
  | notNumber (text : Bytes)
  | tooLarge (text : Bytes)
deriving Repr

def Fault.text (ofFields : Bool) : Fault → Bytes
  | .zero =>
    bytes (if ofFields then "fields are numbered from 1" else "byte/character positions are numbered from 1")
  | .decreasing => bytes "invalid decreasing range"
  | .noEnd => bytes "invalid range with no endpoint: -"
  | .notNumber text =>
    bytes (if ofFields then "invalid field value " else "invalid byte/character position ") ++ quoted text
  | .tooLarge text =>
    bytes (if ofFields then "field number " else "byte/character offset ") ++ quoted text ++
      bytes " is too large"

def number (text : Bytes) : Except Fault Nat :=
  match Bytes.natural? text with
  | some n => if n < 18446744073709551615 then .ok n else .error (.tooLarge text)
  | none => .error (.notNumber text)

def ofText (text : Bytes) : Except Fault Span := do
  let low := text.takeWhile (· ≠ '-')
  let first ← if low.isEmpty then pure 1 else number low
  match text.drop low.length with
  | [] =>
    if low.isEmpty || first = 0 then throw .zero
    return ⟨first, some first⟩
  | _ :: high =>
    if low.isEmpty && high.isEmpty then throw .noEnd
    if first = 0 then throw .zero
    if high.isEmpty then return ⟨first, none⟩
    let last ← number high
    if last < first then throw .decreasing
    return ⟨first, some last⟩

/-- Spans in order, with those that overlap made one. -/
def merged (spans : List Span) : List Span :=
  let sorted := spans.mergeSort fun a b => a.first ≤ b.first
  (sorted.foldl
    (fun acc s =>
      match acc with
      | top :: rest =>
        if top.last.all (s.first ≤ ·) then
          let last := match top.last, s.last with
            | some a, some b => some (max a b)
            | _, _ => none
          ⟨top.first, last⟩ :: rest
        else s :: acc
      | [] => [s])
    []).reverse

/-- The positions that spans in order leave out. -/
def complement (spans : List Span) : List Span :=
  let (gaps, next) := spans.foldl
    (fun ((acc, next) : List Span × Option Nat) s =>
      match next with
      | none => (acc, none)
      | some k =>
        let acc := if k < s.first then ⟨k, some (s.first - 1)⟩ :: acc else acc
        (acc, s.last.map (· + 1)))
    (([], some 1) : List Span × Option Nat)
  let gaps := match next with
    | some k => Span.mk k none :: gaps
    | none => gaps
  gaps.reverse

def ofList (text : Bytes) : Except Fault (List Span) := do
  let parts := text.splitOnP fun c => c = ',' || Bytes.isBlank c
  return merged (← parts.mapM ofText)

/-- The items in each span. -/
def pick {α : Type} (spans : List Span) (items : List α) : List (List α) :=
  spans.filterMap fun s =>
    let part := items.drop (s.first - 1)
    let part := match s.last with
      | some last => part.take (last + 1 - s.first)
      | none => part
    if part.isEmpty then none else some part

end Span

def cutManual : Manual :=
  { usage := " OPTION... [FILE]...", version := versionOf "cut"
    options :=
      ["b,bytes=", "c,characters=", "f,fields=", "d,delimiter=", "n", "s,only-delimited",
       "z,zero-terminated", "complement", "output-delimiter="]
    mixed := true, trouble := 1 }

def cut : Utility :=
  withOptions cutManual fun o rest i => do
    let wrong (message : Bytes) : Task Nat := refuseUse i message 1
    match o.found.filter fun f => f.1 ∈ ["b", "c", "f"] with
    | [] => wrong (bytes "you must specify a list of bytes, characters, or fields")
    | (key, text) :: more =>
      let ofFields := key = "f"
      let given := o.value? "d"
      if !more.isEmpty then wrong (bytes "only one list may be specified")
      else if given.any fun d => 1 < d.length then
        wrong (bytes "the delimiter must be a single character")
      else if !ofFields && given.isSome then
        wrong (bytes "an input delimiter may be specified only when operating on fields")
      else if !ofFields && o.has "s" then
        wrong (bytes "suppressing non-delimited lines makes sense\n\tonly when operating on fields")
      else
        match Span.ofList text with
        | .error f => wrong (f.text ofFields)
        | .ok spans =>
          let spans := if o.has "complement" then Span.complement spans else spans
          let stop := if o.has "z" then Char.ofNat 0 else '\n'
          let delimiter := match given with
            | some d => d.head?.getD (Char.ofNat 0)
            | none => '\t'
          let cutLine (line : Bytes) : Bytes :=
            if ofFields then
              let fields := line.splitOn delimiter
              if fields.length ≤ 1 then (if o.has "s" then [] else line ++ [stop])
              else
                let joint := (o.value? "output-delimiter").getD [delimiter]
                Bytes.join joint (Span.pick spans fields).flatten ++ [stop]
            else
              let joint := (o.value? "output-delimiter").getD []
              Bytes.join joint (Span.pick spans line) ++ [stop]
          if ofFields && delimiter = stop then
            let (data, status) ← allContents i rest
            let all := data.flatten
            let fields := if all.getLast? = some stop then (all.dropLast).splitOn stop else all.splitOn stop
            let joint := (o.value? "output-delimiter").getD [delimiter]
            let out := if all.isEmpty then [] else Bytes.join joint (Span.pick spans fields).flatten ++ [stop]
            return max status (← put i out)
          else
            let step (_ : Unit) (line : Bytes) (_ : Bool) : Unit × Bytes × Bool := ((), cutLine line, false)
            stream i rest (lineStage stop step fun _ => []) ⟨(), []⟩

/-! ## Side by side -/

/-- The delimiters in a list of them; `none` if a backslash ends it. -/
def delimiters? : Bytes → Option (List Bytes)
  | [] => some []
  | ['\\'] => none
  | '\\' :: c :: rest =>
    let d := match c with
      | '0' => []
      | 'b' => [Char.ofNat 8]
      | 'f' => [Char.ofNat 12]
      | 'n' => ['\n']
      | 'r' => ['\r']
      | 't' => ['\t']
      | 'v' => [Char.ofNat 11]
      | c => [c]
    (delimiters? rest).map (d :: ·)
  | c :: rest => (delimiters? rest).map ([c] :: ·)

/-- Texts with delimiters between them, taken in turn. -/
def joinCycling (ds : List Bytes) : Nat → List Bytes → Bytes
  | _, [] => []
  | _, [last] => last
  | k, x :: rest => x ++ (ds[k % ds.length]?.getD []) ++ joinCycling ds (k + 1) rest

/-- The lines of a text; the last one may lack its end. -/
def linesOf (stop : Char) (data : Bytes) : List Bytes :=
  match (data.splitOn stop).reverse with
  | [] :: rest => rest.reverse
  | all => all.reverse

def pasteManual : Manual :=
  ⟨" [OPTION]... [FILE]...", versionOf "paste", ["d,delimiters=", "s,serial", "z,zero-terminated"], true, 1⟩

/-- Takes the next line for each column. A column is the number of a source. -/
def nextRow (sources : List (List Bytes)) : List Nat → List Bytes × List (List Bytes)
  | [] => ([], sources)
  | column :: rest =>
    let lines := sources[column]?.getD []
    let (row, sources) := nextRow (sources.set column (lines.drop 1)) rest
    (lines.head?.getD [] :: row, sources)

def rows (columns : List Nat) : Nat → List (List Bytes) → List (List Bytes)
  | 0, _ => []
  | n + 1, sources =>
    if sources.all List.isEmpty then []
    else
      let (row, sources) := nextRow sources columns
      row :: rows columns n sources

def paste : Utility :=
  withOptions pasteManual fun o rest i => do
    let list := (o.value? "d").getD ['\t']
    let stop := if o.has "z" then Char.ofNat 0 else '\n'
    match delimiters? list with
    | none => refuse i (bytes "delimiter list ends with an unescaped backslash: " ++ list) 1
    | some ds =>
      let ds := if ds.isEmpty then [[]] else ds
      let names := if rest.isEmpty then [['-']] else rest
      let unique := names.eraseDups
      let reads ← unique.mapM fun name => do
        match ← contents i name with
        | .ok data => return some (linesOf stop data)
        | .error f =>
          complain i (quoteName name ++ bytes ": " ++ f.text)
          return none
      let sources := reads.map fun r => r.getD []
      let status := if reads.any Option.isNone then 1 else 0
      if o.has "s" then
        let (out, _) := names.foldl
          (fun (acc, seen) name =>
            let k := unique.findIdx (· = name)
            if (reads[k]?.bind fun r => r).isNone then (acc, seen)
            else
              let lines := if name ∈ seen && name = ['-'] then [] else sources[k]?.getD []
              ((joinCycling ds 0 lines ++ [stop]) :: acc, name :: seen))
          (([], []) : List Bytes × List Bytes)
        return max status (← put i out.reverse.flatten)
      else if status ≠ 0 then return status
      else
        -- a file that is named twice is read twice, but standard input is shared
        let columns := names.zipIdx.map fun (name, k) =>
          if name = ['-'] then names.findIdx (· = ['-']) else k
        let sources := names.map fun name => sources[unique.findIdx (· = name)]?.getD []
        let sources := sources.zipIdx.map fun (lines, k) => if columns[k]? = some k then lines else []
        let total := (sources.map List.length).foldl max 0
        let all := rows columns (total + 1) sources
        put i (all.map fun row => joinCycling ds 0 row ++ [stop]).flatten

/-! ## Folding -/

/-- The column after a byte. -/
def advanceColumn (ofBytes : Bool) (column : Nat) (c : Char) : Nat :=
  if ofBytes then column + 1
  else if c = Char.ofNat 8 then column - 1
  else if c = '\r' then 0
  else if c = '\t' then column + 8 - column % 8
  else column + 1

/-- The part of a line up to its last blank, and what follows. -/
def splitAtBlank (line : Bytes) : Option (Bytes × Bytes) :=
  let after := (line.reverse.takeWhile fun c => !Bytes.isBlank c).reverse
  if after.length = line.length then none
  else some (line.take (line.length - after.length), after)

/-- Folds a line at a width. The current part is in reverse. -/
def foldLine (ofBytes atBlanks : Bool) (width : Nat) :
    Nat → Bytes → Bytes → Nat → List Bytes → List Bytes
  | 0, _, current, _, acc => (current.reverse :: acc).reverse
  | n + 1, cs, current, column, acc =>
    match cs with
    | [] => (current.reverse :: acc).reverse
    | c :: rest =>
      let next := advanceColumn ofBytes column c
      if next ≤ width then foldLine ofBytes atBlanks width n rest (c :: current) next acc
      else
        match (if atBlanks then splitAtBlank current.reverse else none) with
        | some (before, after) =>
          let column := after.foldl (advanceColumn ofBytes) 0
          foldLine ofBytes atBlanks width n cs after.reverse column (before :: acc)
        | none =>
          if current.isEmpty then foldLine ofBytes atBlanks width n rest [c] next acc
          else foldLine ofBytes atBlanks width n cs [] 0 (current.reverse :: acc)

/-- Words in front of the others that are a dash and digits, as values of an option. -/
def withOldNumber (letter : Char) (i : Invocation) : Invocation :=
  let rewrite (w : Bytes) : List Bytes := match w with
    | '-' :: c :: cs => if (c :: cs).all Char.isDigit then [['-', letter], c :: cs] else [w]
    | w => [w]
  let words := operands i
  let before := words.takeWhile (· ≠ ['-', '-'])
  { i with arguments := i.arguments.take 1 ++ before.flatMap rewrite ++ words.drop before.length }

def foldManual : Manual :=
  ⟨" [OPTION]... [FILE]...", versionOf "fold", ["b,bytes", "s,spaces", "w,width="], true, 1⟩

def fold : Utility := fun i =>
  withOptions foldManual (fun o rest i => do
    let given := (o.value? "w").getD (bytes "80")
    match Bytes.natural? given with
    | none => refuse i (bytes "invalid number of columns: " ++ quoted given) 1
    | some 0 =>
      refuse i (bytes "invalid number of columns: " ++ quoted given ++
        bytes ": Numerical result out of range") 1
    | some width =>
      mapLines i rest fun line =>
        Bytes.join ['\n'] (foldLine (o.has "b") (o.has "s") width (2 * line.length * (line.length + 2) + 2)
          line [] 0 []))
    (withOldNumber 'w' i)

/-! ## Tabs -/

/-- Where tabs lead to: places in order, and then every so many columns, if any. -/
structure TabStops where
  places : List Nat
  every : Option Nat
deriving Repr

namespace TabStops

/-- The next stop after a column. -/
def next? (t : TabStops) (column : Nat) : Option Nat :=
  match t.places.find? (column < ·) with
  | some p => some p
  | none => t.every.map fun size => column + size - column % size

inductive Fault where
  | zero
  | invalid (text : Bytes)
  | unordered

def Fault.text : Fault → Bytes
  | .zero => bytes "tab size cannot be 0"
  | .invalid text => bytes "tab size contains invalid character(s): " ++ quoted text
  | .unordered => bytes "tab sizes must be ascending"

def ofText (text : Bytes) : Except Fault TabStops := do
  let parts := (text.splitOnP fun c => c = ',' || Bytes.isBlank c).filter (· ≠ [])
  let (plain, extra) := match parts.getLast? with
    | some ('/' :: n) | some ('+' :: n) => (parts.dropLast, some n)
    | _ => (parts, none)
  let numbers ← plain.mapM fun p =>
    match Bytes.natural? p with
    | some 0 => .error .zero
    | some n => .ok n
    | none => .error (.invalid (p.dropWhile Char.isDigit))
  let ordered := (numbers.zip (numbers.drop 1)).all fun (a, b) => a < b
  if !ordered then throw .unordered
  match extra.bind Bytes.natural?, numbers with
  | some n, _ => return ⟨numbers, if n = 0 then none else some n⟩
  | none, [n] => return ⟨[], some n⟩
  | none, [] => return ⟨[], some 8⟩
  | none, _ => return ⟨numbers, none⟩

/-- Turns tabs into spaces; with `initial`, only those before other bytes. -/
def expandLine (t : TabStops) (initial : Bool) : Bytes → Nat → Bool → Bytes → Bytes
  | [], _, _, acc => acc.reverse
  | c :: rest, column, atFront, acc =>
    if c = '\t' && (atFront || !initial) then
      let next := (t.next? column).getD (column + 1)
      expandLine t initial rest next atFront (List.replicate (next - column) ' ' ++ acc)
    else
      let column := if c = Char.ofNat 8 then column - 1 else column + 1
      expandLine t initial rest column (atFront && Bytes.isBlank c) (c :: acc)

/-- Turns blanks into tabs where a run of two or more of them reaches a stop, or one that is a tab. The
blanks that wait are counted from the column where they began. -/
def unexpandLine (t : TabStops) (all : Bool) :
    Nat → Bytes → Nat → Bytes → Bool → Bool → Bytes → Bytes
  | 0, _, _, waiting, _, _, acc => (waiting ++ acc).reverse
  | n + 1, cs, column, waiting, atFront, oneBefore, acc =>
    match cs with
    | [] => (waiting ++ acc).reverse
    | c :: rest =>
      let active := atFront || all
      if active && Bytes.isBlank c then
        match t.next? column with
        | none => unexpandLine t all n rest (column + 1) [] false false (c :: (waiting ++ acc))
        | some stop =>
          if c = '\t' then
            let front := if oneBefore && !waiting.isEmpty then ['\t'] else []
            unexpandLine t all n rest stop [] atFront false ('\t' :: (front ++ acc))
          else if column + 1 = stop then
            if waiting.isEmpty then
              unexpandLine t all n rest stop [' '] atFront true acc
            else unexpandLine t all n rest stop [] atFront false ('\t' :: acc)
          else if oneBefore then
            unexpandLine t all n rest (column + 1) (' ' :: ['\t']) atFront false acc
          else unexpandLine t all n rest (column + 1) (' ' :: waiting) atFront false acc
      else
        let column := if c = Char.ofNat 8 then column - 1 else column + 1
        unexpandLine t all n rest column [] false false (c :: (waiting ++ acc))

end TabStops

def expandManual : Manual :=
  ⟨" [OPTION]... [FILE]...", versionOf "expand", ["i,initial", "t,tabs="], true, 1⟩

def expand : Utility := fun i =>
  withOptions expandManual (fun o rest i => do
    match TabStops.ofText (Bytes.join [','] (o.values "t")) with
    | .error f => refuse i f.text 1
    | .ok stops => mapLines i rest fun line => stops.expandLine (o.has "i") line 0 true [])
    (withOldNumber 't' i)

def unexpandManual : Manual :=
  ⟨" [OPTION]... [FILE]...", versionOf "unexpand", ["a,all", "t,tabs=", "first-only"], true, 1⟩

def unexpand : Utility := fun i =>
  withOptions unexpandManual (fun o rest i => do
    match TabStops.ofText (Bytes.join [','] (o.values "t")) with
    | .error f => refuse i f.text 1
    | .ok stops =>
      let all := (o.has "a" || o.has "t") && !o.has "first-only"
      mapLines i rest fun line =>
        stops.unexpandLine all (2 * line.length + 2) line 0 [] true false [])
    (withOldNumber 't' i)

/-! ## Numbering -/

/-- Which lines are numbered. -/
inductive NumberStyle where
  | all
  | filled
  | none
  | fitting (r : Regex)

def NumberStyle.ofText? (text : Bytes) : Option NumberStyle :=
  match text with
  | ['a'] => some .all
  | ['t'] => some .filled
  | ['n'] => some .none
  | 'p' :: pattern => (Regex.ofText .basic pattern).toOption.map .fitting
  | _ => Option.none

structure Numbering where
  header : NumberStyle
  body : NumberStyle
  footer : NumberStyle
  /-- Two characters that mark the sections when they are repeated. -/
  mark : Bytes
  step : Int
  start : Int
  width : Nat
  format : Bytes
  separator : Bytes
  /-- So many empty lines count as one. -/
  joined : Nat
  goesOn : Bool

namespace Numbering

inductive Section where
  | header
  | body
  | footer

structure State where
  number : Int
  part : Section
  blanks : Nat

def digits (f : Numbering) (n : Int) : Bytes :=
  let text := Bytes.ofInt n
  match String.ofList f.format with
  | "ln" => text ++ List.replicate (f.width - text.length) ' '
  | "rz" =>
    if n < 0 then
      '-' :: List.replicate (f.width - text.length) '0' ++ Bytes.ofNat n.natAbs
    else List.replicate (f.width - text.length) '0' ++ text
  | _ => List.replicate (f.width - text.length) ' ' ++ text

def line (f : Numbering) (s : State) (l : Bytes) (_ended : Bool) : State × Bytes × Bool :=
  let marks := if f.mark.isEmpty then 0 else
    if l = f.mark ++ f.mark ++ f.mark then 3 else if l = f.mark ++ f.mark then 2
    else if l = f.mark then 1 else 0
  if marks ≠ 0 then
    let part : Section := match marks with
      | 3 => .header
      | 2 => .body
      | _ => .footer
    ({ s with part, number := if marks = 3 && !f.goesOn then f.start else s.number, blanks := 0 }, ['\n'], false)
  else
    let style := match s.part with
      | .header => f.header
      | .body => f.body
      | .footer => f.footer
    let blanks := if l.isEmpty then s.blanks + 1 else 0
    let counts := match style with
      | .all => !l.isEmpty || f.joined ≤ 1 || blanks = f.joined
      | .filled => !l.isEmpty
      | .none => false
      | .fitting r => r.occursIn (r.modeFor false) l
    let blanks := if blanks = f.joined then 0 else blanks
    if counts then
      ({ s with number := s.number + f.step, blanks }, f.digits s.number ++ f.separator ++ l ++ ['\n'], false)
    else
      ({ s with blanks }, List.replicate (f.width + f.separator.length) ' ' ++ l ++ ['\n'], false)

end Numbering

def nlManual : Manual :=
  { usage := " [OPTION]... [FILE]...", version := versionOf "nl"
    options :=
      ["b,body-numbering=", "d,section-delimiter=", "f,footer-numbering=", "h,header-numbering=",
       "i,line-increment=", "l,join-blank-lines=", "n,number-format=", "p,no-renumber",
       "s,number-separator=", "v,starting-line-number=", "w,number-width="]
    mixed := true, trouble := 1 }

def integerText? (w : Bytes) : Option Int :=
  match w with
  | '-' :: cs => (Bytes.natural? cs).map fun n => -(n : Int)
  | '+' :: cs => (Bytes.natural? cs).map fun n => (n : Int)
  | cs => (Bytes.natural? cs).map fun n => (n : Int)

def nl : Utility :=
  withOptions nlManual fun o rest i => do
    let text (key default : String) : Bytes := (o.value? key).getD (bytes default)
    let style (key default what : String) : Except (Bytes × Bool) NumberStyle :=
      match NumberStyle.ofText? (text key default) with
      | some s => .ok s
      | none =>
        .error (bytes "invalid " ++ bytes what ++ bytes " numbering style: " ++ quoted (text key default), true)
    let number (key default what : String) (least : Int) : Except (Bytes × Bool) Int :=
      let w := text key default
      let message := bytes "invalid " ++ bytes what ++ bytes ": " ++ quoted w
      match integerText? w with
      | some n =>
        if n < least then .error (message ++ bytes ": Numerical result out of range", false) else .ok n
      | none => .error (message, false)
    let numbering : Except (Bytes × Bool) Numbering := do
      let header ← style "h" "n" "header"
      let body ← style "b" "t" "body"
      let footer ← style "f" "n" "footer"
      let start ← number "v" "1" "starting line number" Arithmetic.leastWord
      let step ← number "i" "1" "line number increment" Arithmetic.leastWord
      let joined ← number "l" "1" "line number of blank lines" 1
      let width ← number "w" "6" "line number field width" 1
      let format := text "n" "rn"
      if format ∉ [bytes "ln", bytes "rn", bytes "rz"] then
        throw (bytes "invalid line numbering format: " ++ quoted format, true)
      let mark := match text "d" "\\:" with
        | [c] => [c, ':']
        | cs => cs
      return ⟨header, body, footer, mark, step, start, width.toNat, format, text "s" "\t", joined.toNat,
        o.has "p"⟩
    match numbering with
    | .error (message, true) => refuseUse i message 1
    | .error (message, false) => refuse i message 1
    | .ok f => stream i rest (lineStage '\n' f.line fun _ => []) ⟨⟨f.start, .body, 0⟩, []⟩

end ValueInspector.Shell.Utility
