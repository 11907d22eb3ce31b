import ValueInspector.Shell.Calendar
import ValueInspector.Shell.Utility.File
import ValueInspector.Shell.Utility.Order

/-! # Listing files

`ls` shows what is in directories: names alone, one to a line or in columns, or each with its kind,
permissions, owner, size and date. `stat` writes what is known of a file by a format.
-/
namespace ValueInspector.Shell.Utility

/-! ## Entries -/

/-- A file as it is listed: its name, what is known of it, and where it leads if it is a link. -/
structure Entry where
  name : Bytes
  info : FileInfo
  target : Option Bytes
  /-- What the target of a link is, if there is one. -/
  beyond : Option FileInfo

namespace Entry

def isDirectory (e : Entry) : Bool := e.info.isDirectory

/-- The letter for a kind of file. -/
def kindLetter : FileKind → Char
  | .directory => 'd'
  | .regular => '-'
  | .device => 'c'
  | .pipe => 'p'
  | .link => 'l'

/-- The kind and the permissions as ten signs. -/
def modeText (info : FileInfo) : Bytes :=
  let special (bit place : Nat) (runs plain : Char) (t : Bytes) : Bytes :=
    if info.mode.testBit bit then t.set place (if t[place]? = some 'x' then runs else plain) else t
  kindLetter info.kind ::
    special 9 8 't' 'T' (special 10 5 's' 'S' (special 11 2 's' 'S' (Permissions.text info.mode)))

/-- A sign after a name that tells its kind. -/
def sign (style : String) (info : FileInfo) : Bytes :=
  match info.kind with
  | .directory => if style = "none" then [] else ['/']
  | .link => if style = "file-type" || style = "classify" then ['@'] else []
  | .pipe => if style = "file-type" || style = "classify" then ['|'] else []
  | .regular => if style = "classify" && info.isExecutable then ['*'] else []
  | .device => []

/-- How many blocks of a kilobyte a file takes. -/
def blocks (info : FileInfo) : Nat :=
  match info.kind with
  | .directory => 4
  | .regular => (info.size + 4095) / 4096 * 4
  | _ => 0

/-- Numbers of a device. -/
def deviceNumbers (name : Bytes) : Nat × Nat :=
  let last := (name.splitOn '/').getLast?.getD name
  let minor := List.lookup (String.ofList last)
    [("null", 3), ("zero", 5), ("full", 7), ("random", 8), ("urandom", 9)]
  match minor with
  | some k => (1, k)
  | none => (5, 0)

end Entry

/-! ## Ways to list -/

inductive ListForm where
  | single
  | long
  | columns
  | across
  | commas
deriving DecidableEq, Repr

/-- How names are written. -/
inductive NameStyle where
  | plain
  | quoted
  | escaped
  | shell (always : Bool)
  /-- Signs that cannot be shown become question marks. -/
  | masked
deriving DecidableEq, Repr

structure ListStyle where
  form : ListForm
  names : NameStyle
  signs : String
  hidden : Option Bool
  ignored : List Pattern
  concealed : List Pattern
  backups : Bool
  sort : String
  reversed : Bool
  directoriesFirst : Bool
  recursive : Bool
  asFiles : Bool
  /-- Whether links among the operands are followed: never, or always. -/
  followOperands : Bool
  followAll : Bool
  numeric : Bool
  owner : Bool
  group : Bool
  human : Bool
  blocks : Bool
  numbers : Bool
  width : Nat
  tab : Nat
  timeFormat : Option Bytes
  stop : Char

namespace ListStyle

/-- A sign within double quotes, or after a backslash. -/
def escapedSign (quotes : Bool) (c : Char) : Bytes :=
  match List.lookup c.toNat [(7, 'a'), (8, 'b'), (9, 't'), (10, 'n'), (11, 'v'), (12, 'f'), (13, 'r')] with
  | some letter => ['\\', letter]
  | none =>
    if c = '\\' || (quotes && c = '"') || (!quotes && c = ' ') then ['\\', c]
    else if c.toNat < 32 || 126 < c.toNat then
      let n := c.toNat
      '\\' :: (Nat.toDigits 8 (n + 512)).drop 1
    else [c]

def nameText (s : ListStyle) (name : Bytes) : Bytes :=
  match s.names with
  | .plain => name
  | .quoted => '"' :: name.flatMap (escapedSign true) ++ ['"']
  | .escaped => name.flatMap (escapedSign false)
  | .shell true => if '\x27' ∈ name then '"' :: name ++ ['"'] else quoted name
  | .shell false => quoteName name
  | .masked => name.map fun c => if c.toNat < 32 || 126 < c.toNat then '?' else c

/-- The names that a directory shows. -/
def shows (s : ListStyle) (name : Bytes) : Bool :=
  let dotted := name.head? = some '.'
  let fits (ps : List Pattern) : Bool := ps.any fun p => p.fits name
  let always := s.hidden.isSome
  (!dotted || always) && !fits s.ignored && (always || !fits s.concealed) &&
    !(s.backups && name.getLast? = some '~')

def suffixOf (name : Bytes) : Bytes :=
  if '.' ∈ name then '.' :: (name.reverse.takeWhile (· ≠ '.')).reverse else []

def compare (s : ListStyle) (a b : Entry) : Ordering :=
  let byName := compareBytes a.name b.name
  match s.sort with
  | "size" => (Ord.compare b.info.size a.info.size).then byName
  | "time" => (Ord.compare b.info.changed a.info.changed).then byName
  | "extension" => (compareBytes (suffixOf a.name) (suffixOf b.name)).then byName
  | "version" => (Version.compare a.name b.name).then byName
  | "width" => (Ord.compare (s.nameText a.name).length (s.nameText b.name).length).then byName
  | "none" => .eq
  | _ => byName

def sorted (s : ListStyle) (es : List Entry) : List Entry :=
  let es := es.mergeSort fun a b => s.compare a b ≠ .gt
  let es := if s.reversed then es.reverse else es
  if s.directoriesFirst then
    let isDirectory (e : Entry) : Bool := (e.beyond.getD e.info).isDirectory
    es.filter isDirectory ++ es.filter fun e => !isDirectory e
  else es

/-- A size, or the size in the largest unit that it has. -/
def sizeText (s : ListStyle) (n : Nat) : Bytes :=
  if !s.human || n < 1024 then Bytes.ofNat n
  else
    let k := (List.range 8).find? fun k => n < Nat.pow 1024 (k + 2)
    let k := k.getD 7
    let unit := Nat.pow 1024 (k + 1)
    let letter := ("KMGTPEZY".toList[k]?).getD 'Y'
    let tenths := (n * 10 + unit - 1) / unit
    if tenths < 100 then Bytes.ofNat (tenths / 10) ++ '.' :: Bytes.ofNat (tenths % 10) ++ [letter]
    else Bytes.ofNat ((n + unit - 1) / unit) ++ [letter]

def blockText (s : ListStyle) (blocks : Nat) : Bytes :=
  if s.human then s.sizeText (blocks * 1024) else Bytes.ofNat blocks

/-- A name with all that stands before and after it in short forms. -/
def label (s : ListStyle) (e : Entry) : Bytes := s.nameText e.name ++ Entry.sign s.signs e.info

def leftAligned (width : Nat) (t : Bytes) : Bytes := t ++ List.replicate (width - t.length) ' '
def rightAligned (width : Nat) (t : Bytes) : Bytes := List.replicate (width - t.length) ' ' ++ t

def widest (ts : List Bytes) : Nat := (ts.map List.length).foldl max 0

/-- Numbers and blocks in front of each entry, as wide as the widest of them. -/
def fronts (s : ListStyle) (es : List Entry) : List Bytes :=
  let column (on : Bool) (f : Entry → Bytes) : List Bytes :=
    let ts := es.map f
    if on then ts.map fun t => rightAligned (widest ts) t ++ [' '] else es.map fun _ => []
  List.zipWith (· ++ ·) (column s.numbers fun e => Bytes.ofNat e.info.id)
    (column s.blocks fun e => s.blockText (Entry.blocks e.info))

def dateText (s : ListStyle) (info : FileInfo) : Bytes :=
  let m := Calendar.momentOf (Calendar.startSeconds + info.changed / 1000000) (info.changed % 1000000 * 1000)
    (bytes "UTC") 0
  Calendar.format m true (s.timeFormat.getD (bytes "%b %e %H:%M"))

/-- The rows of a long list. -/
def longRows (s : ListStyle) (es : List Entry) : List Bytes :=
  let column (right : Bool) (f : Entry → Bytes) : List Bytes :=
    let ts := es.map f
    ts.map (if right then rightAligned (widest ts) else leftAligned (widest ts))
  let person := bytes (if s.numeric then "0" else "root")
  let devices := es.filter fun e => e.info.kind = .device
  let major (e : Entry) : Bytes := Bytes.ofNat (Entry.deviceNumbers e.name).1
  let minor (e : Entry) : Bytes := Bytes.ofNat (Entry.deviceNumbers e.name).2
  let (w1, w2) := (widest (devices.map major), widest (devices.map minor))
  let size (e : Entry) : Bytes :=
    if e.info.kind = .device then rightAligned w1 (major e) ++ bytes ", " ++ rightAligned w2 (minor e)
    else s.sizeText e.info.size
  let joined (columns : List (List Bytes)) : List Bytes :=
    columns.foldl (List.zipWith fun a b => a ++ ' ' :: b) (es.map fun e => Entry.modeText e.info)
  let owners := (if s.owner then [column false fun _ => person] else []) ++
    if s.group then [column false fun _ => person] else []
  let name (e : Entry) : Bytes :=
    match e.target with
    | some target =>
      let sign := (e.beyond.map (Entry.sign s.signs)).getD []
      s.nameText e.name ++ bytes " -> " ++ s.nameText target ++ sign
    | none => s.label e
  joined ([column true fun e => Bytes.ofNat e.info.names] ++ owners ++
    [column true size, column true fun e => s.dateText e.info, es.map name])

/-- Blanks from one column to another one, with tabs where they fit. -/
def gap (tab : Nat) : Nat → Nat → Nat → Bytes
  | 0, _, _ => []
  | n + 1, start, stop =>
    if stop ≤ start then []
    else if tab ≠ 0 && (start + 1) / tab < stop / tab then
      '\t' :: gap tab n (start / tab * tab + tab) stop
    else ' ' :: gap tab n (start + 1) stop

/-- A row of cells, each but the last up to its column. -/
def row (tab : Nat) (widths : List Nat) (cells : List Bytes) : Bytes :=
  let rec place : Nat → List Nat → List Bytes → Bytes
    | _, _, [] => []
    | _, _, [cell] => cell
    | at_, w :: ws, cell :: rest =>
      cell ++ gap tab (w + 1) (at_ + cell.length) (at_ + w) ++ place (at_ + w) ws rest
    | _, [], cells => cells.flatten
  place 0 widths cells

/-- The cells of a table with so many columns, row by row. -/
def table (down : Bool) (columns : Nat) (cells : List Bytes) : List (List Bytes) :=
  let rows := (cells.length + columns - 1) / columns
  (List.range rows).map fun r =>
    (List.range columns).filterMap fun c => cells[if down then c * rows + r else r * columns + c]?

def columnWidths (columns : Nat) (rows : List (List Bytes)) : List Nat :=
  (List.range columns).map fun c =>
    max 3 ((rows.filterMap fun r => r[c]?.map fun cell => cell.length + if c + 1 = columns then 0 else 2).foldl max 0)

/-- Rows with as many columns as fit in the width. -/
def tableRows (s : ListStyle) (down : Bool) (cells : List Bytes) : List Bytes :=
  let most := if s.width = 0 then cells.length else min cells.length (max 1 (s.width / 3))
  let fits (columns : Nat) : Bool :=
    let total := (columnWidths columns (table down columns cells)).foldl (· + ·) 0
    s.width = 0 || total < s.width
  let columns := ((List.range most).reverse.map (· + 1)).find? fits |>.getD 1
  let rows := table down columns cells
  let widths := columnWidths columns rows
  rows.map (row s.tab widths)

/-- Cells between commas, broken before the width. -/
def commaRows (s : ListStyle) : Nat → List Bytes → Bytes
  | _, [] => []
  | at_, [cell] => if at_ = 0 then cell else ' ' :: cell
  | at_, cell :: next :: rest =>
    let start := if at_ = 0 then 0 else at_ + 1
    let stop := start + cell.length + 1
    let text := (if at_ = 0 then cell else ' ' :: cell) ++ [',']
    if s.width ≠ 0 && s.width ≤ stop + 1 + next.length + (if rest.isEmpty then 0 else 1) then
      text ++ '\n' :: commaRows s 0 (next :: rest)
    else text ++ commaRows s stop (next :: rest)

/-- Entries as they are shown. -/
def text (s : ListStyle) (es : List Entry) : Bytes :=
  let fronts := s.fronts es
  let cells := List.zipWith (· ++ ·) fronts (es.map s.label)
  let rows := match s.form with
    | .single => cells
    | .long => List.zipWith (· ++ ·) fronts (s.longRows es)
    | .columns => s.tableRows true cells
    | .across => s.tableRows false cells
    | .commas => if cells.isEmpty then [] else [commaRows s 0 cells]
  (rows.map (· ++ [s.stop])).flatten

end ListStyle

/-! ## The list -/

/-- What is known of a name. -/
def entryAt (follow : Bool) (path name : Bytes) : Task (Except FileFault Entry) := do
  match ← Task.call (.inspect follow path) with
  | .error f =>
    if follow then
      match ← Task.call (.inspect false path) with
      | .ok info =>
        let target ← Task.call (.readLink path)
        return .ok ⟨name, info, target.toOption, none⟩
      | .error _ => return .error f
    else return .error f
  | .ok info =>
    let beneath ← if info.isDirectory then Task.call (.list path) else pure (.ok [])
    let directories ← ((beneath.toOption.getD []).map (within path)).filterMapM fun p => do
      match ← Task.call (.inspect false p) with
      | .ok info => return if info.isDirectory then some p else none
      | .error _ => return none
    let info := if info.isDirectory then { info with names := 2 + directories.length } else info
    if info.kind = .link then
      let target ← Task.call (.readLink path)
      let beyond ← Task.call (.inspect true path)
      return .ok ⟨name, info, target.toOption, beyond.toOption⟩
    else return .ok ⟨name, info, none, none⟩

/-- Lists a directory, and those in it if asked to. -/
def listDirectory (s : ListStyle) (i : Invocation) :
    Nat → (titled : Bool) → (first : Bool) → Bytes → Task Nat
  | 0, _, _, _ => return 2
  | n + 1, titled, first, name => do
    match ← Task.call (.list (pathOf i name)) with
    | .error f =>
      complain i (bytes "cannot open directory " ++ quoted name ++ bytes ": " ++ f.text)
      return 2
    | .ok names => do
      let dots : List Bytes := if s.hidden = some true then [['.'], ['.', '.']] else []
      let shown := (dots ++ names).filter s.shows
      let found ← shown.mapM fun w => entryAt s.followAll (within (pathOf i name) w) w
      let es := s.sorted (found.filterMap Except.toOption)
      let title := if titled then (if first then [] else ['\n']) ++ s.nameText name ++ bytes ":\n" else []
      let total := if s.form = .long || s.blocks then
          bytes "total " ++ s.blockText ((es.map fun e => Entry.blocks e.info).foldl (· + ·) 0) ++ ['\n']
        else []
      let status ← put i (title ++ total ++ s.text es)
      if !s.recursive then return status
      else
        let inner := es.filter fun e => e.isDirectory && e.name ≠ ['.'] && e.name ≠ ['.', '.']
        let statuses ← inner.mapM fun e => listDirectory s i n true false (within name e.name)
        return statuses.foldl max status

/-- Lists operands: files first, and then each directory. -/
def listAll (s : ListStyle) (i : Invocation) (names : List Bytes) : Task Nat := do
  let names := if names.isEmpty then [['.']] else names
  let found ← names.mapM fun name => do
    let path := pathOf i name
    let plain ← entryAt (s.followAll || s.followOperands) path name
    -- a link to a directory is listed like the directory unless its kind is asked for
    match plain with
    | .ok e =>
      let opens := !s.asFiles && e.info.kind = .link && s.form ≠ .long && s.signs ≠ "classify" &&
        (e.beyond.any FileInfo.isDirectory)
      if opens then return .ok { e with info := e.beyond.getD e.info } else return .ok e
    | .error f => return (.error (name, f) : Except (Bytes × FileFault) Entry)
  let faults := found.filterMap fun r => match r with
    | .error e => some e
    | .ok _ => none
  faults.forM fun (name, f) =>
    complain i (bytes "cannot access " ++ quoted name ++ bytes ": " ++ f.text)
  let es := s.sorted (found.filterMap Except.toOption)
  let isShownInside (e : Entry) : Bool := !s.asFiles && e.isDirectory
  let files := es.filter fun e => !isShownInside e
  let directories := es.filter isShownInside
  let status ← put i (s.text files)
  let titled := s.recursive || 1 < names.length
  let rec each : Bool → List Entry → Nat → Task Nat
    | _, [], status => return status
    | first, e :: rest, status => do
      let k ← listDirectory s i treeDepth titled first e.name
      each false rest (max status k)
  let status ← each files.isEmpty directories status
  return if faults.isEmpty then status else 2

def listManual : Manual :=
  { usage := " [OPTION]... [FILE]...", version := versionOf "ls"
    options :=
      ["a,all", "A,almost-all", "author", "b,escape", "block-size=", "B,ignore-backups", "c", "C", "color[=]",
       "d,directory", "D,dired", "f", "F", "classify[=]", "file-type", "format=", "full-time", "g",
       "group-directories-first", "G,no-group", "h,human-readable", "si", "H,dereference-command-line",
       "dereference-command-line-symlink-to-dir", "hide=", "hyperlink[=]", "indicator-style=", "i,inode",
       "I,ignore=", "k,kibibytes", "l", "L,dereference", "m", "n,numeric-uid-gid", "N,literal", "o", "p",
       "q,hide-control-chars", "show-control-chars", "Q,quote-name", "quoting-style=", "r,reverse",
       "R,recursive", "s,size", "S", "sort=", "time=", "time-style=", "t", "T,tabsize=", "u", "U", "v",
       "w,width=", "x", "X", "Z,context", "zero", "1"]
    mixed := true, trouble := 2 }

/-- The words that options of a list may have, or why one is none of them. -/
def listWords (o : Options) : Except Bytes (List (String × String)) :=
  let options : List (String × List String) :=
    [("sort", ["none", "time", "size", "extension", "version", "width"]),
     ("format", ["verbose", "long", "commas", "horizontal", "across", "vertical", "single-column"]),
     ("indicator-style", ["none", "slash", "file-type", "classify"]),
     ("quoting-style",
      ["literal", "shell", "shell-always", "shell-escape", "shell-escape-always", "c", "c-maybe", "escape",
       "locale", "clocale"])]
  options.filterMapM fun (key, words) =>
    match o.value? key with
    | some w => (choose ("--" ++ key) words w).map fun k => some (key, k)
    | none => .ok none

/-- The form of a list, after the latest option that chooses one. -/
def listForm (o : Options) (words : List (String × String)) (usual : ListForm) : ListForm :=
  let chosen := o.found.foldl
    (fun (form : ListForm) f =>
      match f.1 with
      | "l" | "g" | "o" | "n" | "full-time" => .long
      | "C" => .columns
      | "x" => .across
      | "m" => .commas
      | "1" => if form = .long then .long else .single
      | "zero" => if form = .long then .long else .single
      | "format" =>
        match words.lookup "format" with
        | some "verbose" | some "long" => .long
        | some "commas" => .commas
        | some "horizontal" | some "across" => .across
        | some "vertical" => .columns
        | _ => .single
      | _ => form)
    usual
  chosen

/-- Lists files. -/
def ls (usual : ListForm) : Utility :=
  withOptions listManual fun o rest i => do
    match listWords o with
    | .error message => refuseUse i message 1
    | .ok words =>
      let number (key what : String) (usual : Nat) : Except Bytes Nat :=
        match o.value? key with
        | none => .ok usual
        | some w =>
          match Bytes.natural? w with
          | some n => .ok n
          | none => .error (bytes ("invalid " ++ what ++ ": ") ++ quoted w)
      match number "w" "line width" 80, number "T" "tab size" 8 with
      | .error message, _ | _, .error message => refuse i message 2
      | .ok width, .ok tab =>
        let form := listForm o words usual
        let sortKey := o.found.foldl
          (fun (k : String) f =>
            match f.1 with
            | "S" => "size"
            | "t" => "time"
            | "X" => "extension"
            | "v" => "version"
            | "U" | "f" => "none"
            | "sort" => (words.lookup "sort").getD k
            | "c" | "u" | "time" => if form = .long then k else if k = "name" then "time" else k
            | _ => k)
          "name"
        let names : NameStyle :=
          match o.last? ["Q", "b", "N", "q", "quoting-style"] with
          | some "Q" => .quoted
          | some "b" => .escaped
          | some "q" => .masked
          | some "quoting-style" =>
            match words.lookup "quoting-style" with
            | some "c" | some "locale" | some "clocale" | some "c-maybe" => .quoted
            | some "escape" => .escaped
            | some "shell" | some "shell-escape" => .shell false
            | some "shell-always" | some "shell-escape-always" => .shell true
            | _ => .plain
          | some _ => .plain
          | none => if usual = .single then .plain else .escaped
        let signs := match o.last? ["F", "classify", "p", "file-type", "indicator-style"] with
          | some "F" | some "classify" => "classify"
          | some "p" => "slash"
          | some "file-type" => "file-type"
          | some _ => (words.lookup "indicator-style").getD "none"
          | none => "none"
        let patterns (key : String) : List Pattern :=
          (o.values key).map fun w => Pattern.ofMarked (Marked.plain w)
        let style : ListStyle :=
          { form, names, signs
            hidden :=
              match o.last? ["a", "A", "f"] with
              | some "A" => some false
              | some _ => some true
              | none => none
            ignored := patterns "I", concealed := patterns "hide", backups := o.has "B"
            sort := sortKey, reversed := o.has "r", directoriesFirst := o.has "group-directories-first"
            recursive := o.has "R", asFiles := o.has "d", followOperands := o.has "H", followAll := o.has "L"
            numeric := o.has "n", owner := !o.has "g", group := !(o.has "G" || o.has "o")
            human := o.has "h", blocks := o.has "s", numbers := o.has "i", width, tab
            timeFormat :=
              if o.has "full-time" then some (bytes "%Y-%m-%d %H:%M:%S.%N %z")
              else
                match o.value? "time-style" with
                | some ('+' :: format) => some format
                | some w =>
                  (List.lookup (String.ofList w)
                    [("full-iso", "%Y-%m-%d %H:%M:%S.%N %z"), ("long-iso", "%Y-%m-%d %H:%M"), ("iso", "%m-%d %H:%M")]).map
                    bytes
                | none => none
            stop := if o.has "zero" then Char.ofNat 0 else '\n' }
        listAll style i rest

/-! ## Status -/

/-- What a letter of a status format stands for. -/
def statusPart? (name : Bytes) (e : Entry) (letter : Char) : Option Bytes :=
  let info := e.info
  let seconds := Calendar.startSeconds + info.changed / 1000000
  let (major, minor) := if info.kind = .device then Entry.deviceNumbers name else (0, 0)
  let kindBits : Nat := match info.kind with
    | .directory => 16384
    | .regular => 32768
    | .device => 8192
    | .pipe => 4096
    | .link => 40960
  let time : Bytes := Calendar.format (Calendar.momentOf seconds 0 (bytes "UTC") 0) true (bytes "%F %T.%N %z")
  match letter with
  | 'a' => some (Permissions.octal info.mode)
  | 'A' => some (Entry.modeText info)
  | 'b' => some (Bytes.ofNat (2 * Entry.blocks info))
  | 'B' => some (bytes "512")
  | 'f' => some (Nat.toDigits 16 (kindBits + info.mode))
  | 'F' =>
    some (bytes (match info.kind with
      | .directory => "directory"
      | .regular => if info.size = 0 then "regular empty file" else "regular file"
      | .device => "character special file"
      | .pipe => "fifo"
      | .link => "symbolic link"))
  | 'g' | 'u' => some ['0']
  | 'G' | 'U' => some (bytes "root")
  | 'h' => some (Bytes.ofNat info.names)
  | 'i' => some (Bytes.ofNat info.id)
  | 'm' => some ['/']
  | 'n' => some name
  | 'N' =>
    some (match e.target with
      | some target => quoted name ++ bytes " -> " ++ quoted target
      | none => quoted name)
  | 'o' => some (bytes "4096")
  | 's' => some (Bytes.ofNat info.size)
  | 't' | 'T' => some (Nat.toDigits 16 (if letter = 't' then major else minor))
  | 'x' | 'y' | 'z' | 'w' => some time
  | 'X' | 'Y' | 'Z' | 'W' => some (Bytes.ofNat seconds)
  | 'C' => some ['?']
  | 'd' | 'D' => some (bytes "48")
  | _ => none

/-- Writes a status by a format; escapes count if asked for. -/
def statusText (name : Bytes) (e : Entry) (escapes : Bool) : Nat → Bytes → Bytes
  | 0, _ => []
  | n + 1, cs =>
    match cs with
    | [] => []
    | '%' :: '%' :: rest => '%' :: statusText name e escapes n rest
    | '%' :: rest =>
      let flags := rest.takeWhile (· ∈ "-+ #0'".toList)
      let after := rest.drop flags.length
      let width := after.takeWhile Char.isDigit
      let after := after.drop width.length
      let (most, after) : Option Nat × Bytes := match after with
        | '.' :: more =>
          let digits := more.takeWhile Char.isDigit
          (some ((Bytes.natural? digits).getD 0), more.drop digits.length)
        | after => (none, after)
      match after with
      | c :: more =>
        match statusPart? name e c with
        | some text =>
          let text := if c ∈ "AFGNnU".toList then text.take (most.getD text.length) else text
          let w := (Bytes.natural? width).getD 0
          let numeric := c ∈ "abBfghioostTuXYZW".toList
          let text := if '#' ∈ flags && c = 'a' && text ≠ ['0'] then '0' :: text
            else if '#' ∈ flags && c = 'f' then '0' :: 'x' :: text else text
          let text :=
            if '-' ∈ flags then ListStyle.leftAligned w text
            else if '0' ∈ flags && numeric then List.replicate (w - text.length) '0' ++ text
            else ListStyle.rightAligned w text
          text ++ statusText name e escapes n more
        | none => '?' :: statusText name e escapes n more
      | [] => ['%']
    | '\\' :: c :: rest =>
      if escapes then
        match List.lookup c [('n', '\n'), ('t', '\t'), ('\\', '\\'), ('a', Char.ofNat 7), ('b', Char.ofNat 8),
            ('e', Char.ofNat 27), ('f', Char.ofNat 12), ('r', '\r'), ('v', Char.ofNat 11), ('"', '"')] with
        | some d => d :: statusText name e escapes n rest
        | none => c :: statusText name e escapes n rest
      else '\\' :: c :: statusText name e escapes n rest
    | c :: rest => c :: statusText name e escapes n rest

/-- The status on several lines, as it is written unless another format is asked for. -/
def statusFormat (device : Bool) : Bytes :=
  bytes ("  File: %N\n  Size: %-10s\tBlocks: %-10b IO Block: %-6o %F\nDevice: 0,48\tInode: %-11i Links: " ++
    (if device then "%-5h Device type: %t,%T\n" else "%h\n") ++
    "Access: (%04a/%10.10A)  Uid: (%5u/%8U)   Gid: (%5g/%8G)\nAccess: %x\nModify: %y\nChange: %z\n Birth: -\n")

/-- The status on one line, for programs that read it. -/
def terseFormat : Bytes :=
  bytes "%n %s %b %f %u %g %D %i %h %t %T %X %Y %Z %W %o\n"

/-- Writes what is known of files. -/
def stat : Utility :=
  let manual : Manual :=
    { usage := " [OPTION]... FILE...", version := versionOf "stat"
      options := ["L,dereference", "f,file-system", "cached=", "c,format=", "printf=", "t,terse"]
      mixed := true, trouble := 1 }
  withOptions manual fun o rest i => do
    if rest.isEmpty then refuseUse i (bytes "missing operand") 1
    else
      forEach rest fun name => do
        let path := pathOf i name
        let found ← match ← Task.call (.inspect (o.has "L") path) with
          | .error f => pure (.error f)
          | .ok _ => entryAt (o.has "L") path name
        match found with
        | .error f => refuse i (bytes "cannot statx " ++ quoted name ++ bytes ": " ++ f.text) 1
        | .ok e =>
          match o.last? ["c", "printf"] with
          | some "c" =>
            let format := (o.value? "c").getD []
            put i (statusText name e false format.length format ++ ['\n'])
          | some _ =>
            let format := (o.value? "printf").getD []
            put i (statusText name e true format.length format)
          | none =>
            let format := if o.has "t" then terseFormat else statusFormat (e.info.kind = .device)
            put i (statusText name e false format.length format)

end ValueInspector.Shell.Utility
