import ValueInspector.Shell.Number
import ValueInspector.Shell.Utility.Columns

/-! # Utilities on ordered lines

Those that bring lines into an order, and those that compare lines which are next to each other or in
two files in order.
-/
namespace ValueInspector.Shell.Utility

/-! ## Ways to compare -/

/-- How two texts are compared. -/
inductive Ordering.Kind where
  | bytes
  | numeric
  | general
  | human
  | month
  | version
  | shuffled
deriving DecidableEq, Repr

def compareBytes : Bytes → Bytes → Ordering
  | [], [] => .eq
  | [], _ :: _ => .lt
  | _ :: _, [] => .gt
  | a :: as, b :: bs => if a = b then compareBytes as bs else compare a b

/-- A number as it is written with digits and a point. -/
structure DecimalText where
  negative : Bool
  whole : Nat
  /-- The digits after the point, without zeros at the end. -/
  fraction : Bytes
deriving DecidableEq, Repr

namespace DecimalText

/-- The number in front of a text, and what is after it. A text without digits counts as zero. -/
def read (cs : Bytes) : DecimalText × Bytes :=
  let cs := cs.dropWhile Bytes.isBlank
  let (negative, cs) := match cs with
    | '-' :: rest => (true, rest)
    | _ => (false, cs)
  let whole := cs.takeWhile Char.isDigit
  let (fraction, rest) := match cs.drop whole.length with
    | '.' :: rest =>
      let digits := rest.takeWhile Char.isDigit
      (digits, rest.drop digits.length)
    | rest => ([], rest)
  (⟨negative, (Bytes.natural? whole).getD 0, (fraction.reverse.dropWhile (· = '0')).reverse⟩, rest)

def isZero (d : DecimalText) : Bool := d.whole = 0 && d.fraction.isEmpty

def compare (a b : DecimalText) : Ordering :=
  let sizes := (Ord.compare a.whole b.whole).then (compareBytes a.fraction b.fraction)
  if a.isZero && b.isZero then .eq
  else
    match a.negative, b.negative with
    | false, false => sizes
    | true, true => sizes.swap
    | true, false => .lt
    | false, true => .gt

/-- The power of the suffix after a number, with its sign; numbers without a suffix come between. -/
def rank (d : DecimalText) (rest : Bytes) : Int :=
  if d.isZero then 0
  else
    let power : Int := match rest.head? with
      | some c =>
        if c = 'k' then 1
        else
          let k := "KMGTPEZYRQ".toList.findIdx (· = c)
          if k < 10 then k + 1 else 0
      | none => 0
    if d.negative then -power else power

end DecimalText

def monthRank (cs : Bytes) : Nat :=
  let name := ((cs.dropWhile Bytes.isBlank).take 3).map Char.toUpper
  let k := ["JAN", "FEB", "MAR", "APR", "MAY", "JUN", "JUL", "AUG", "SEP", "OCT", "NOV", "DEC"].findIdx
    fun m => m.toList = name
  if k < 12 then k + 1 else 0

namespace Version

/-- The rank of a byte among versions: a tilde, the end, digits, letters, and the rest. -/
def rank : Bytes → Int
  | [] => -1
  | c :: _ =>
    if c.isDigit then 0 else if c.isAlpha then c.toNat else if c = '~' then -2 else c.toNat + 256

/-- Compares texts as runs of other bytes and of digits in turn. -/
def compareRuns : Nat → Bytes → Bytes → Ordering
  | 0, _, _ => .eq
  | n + 1, a, b =>
    if a.isEmpty && b.isEmpty then .eq
    else if (a.head?.any fun c => !c.isDigit) || (b.head?.any fun c => !c.isDigit) then
      if rank a = rank b then compareRuns n (a.drop 1) (b.drop 1) else compare (rank a) (rank b)
    else
      let x := a.takeWhile Char.isDigit
      let y := b.takeWhile Char.isDigit
      (compare ((Bytes.natural? x).getD 0) ((Bytes.natural? y).getD 0)).then
        (compareRuns n (a.drop x.length) (b.drop y.length))

/-- Whether a text is a letter or tilde, then letters, digits and tildes. -/
def isSuffixPart (cs : Bytes) : Bool :=
  match cs with
  | c :: rest => (c.isAlpha || c = '~') && rest.all fun c => c.isAlphanum || c = '~'
  | [] => false

/-- A text without the suffixes after its points. -/
def withoutSuffix (cs : Bytes) : Bytes :=
  let parts := cs.splitOn '.'
  let kept := ((parts.drop 1).reverse.dropWhile isSuffixPart).reverse
  Bytes.join ['.'] (parts.take 1 ++ kept)

def compare (a b : Bytes) : Ordering :=
  let dots (cs : Bytes) : Nat :=
    if cs.isEmpty then 0 else if cs = ['.'] then 1 else if cs = ['.', '.'] then 2
    else if cs.head? = some '.' then 3 else 4
  let n := a.length + b.length + 1
  ((Ord.compare (dots a) (dots b)).then (compareRuns n (withoutSuffix a) (withoutSuffix b))).then
    (compareRuns n a b)

end Version

/-- What a text counts for where it is compared. -/
inductive SortValue where
  | text (cs : Bytes)
  | decimal (d : DecimalText)
  /-- A number with the power of its suffix. -/
  | scaled (rank : Int) (d : DecimalText)
  /-- A fraction. Texts that are no numbers come first, then NaN, then the numbers with both infinities. -/
  | general (rank : Int) (numerator : Int) (denominator : Nat)
  | month (n : Nat)
  | version (cs : Bytes)
  /-- A text in no order that means anything, though always in the same. -/
  | shuffled (noise : Nat) (cs : Bytes)
deriving Repr

namespace SortValue

def compare : SortValue → SortValue → Ordering
  | .text a, .text b => compareBytes a b
  | .decimal a, .decimal b => a.compare b
  | .scaled i a, .scaled j b => (Ord.compare i j).then (a.compare b)
  | .general i a b, .general j c d => (Ord.compare i j).then (Ord.compare (a * d) (c * b))
  | .month a, .month b => Ord.compare a b
  | .version a, .version b => Version.compare a b
  | .shuffled m a, .shuffled n b => if a = b then .eq else Ord.compare m n
  | _, _ => .eq

/-- The value of a text with digits, an exponent and the names of what is not finite. -/
def ofGeneral (cs : Bytes) : SortValue :=
  match Numeric.quantity? .extended cs with
  | none => .general (-3) 0 1
  | some (q, _, _) =>
    match q.magnitude with
    | .notANumber => .general (-2) 0 1
    | .infinite => .general (if q.negative then -1 else 1) 0 1
    | .finite x =>
      let (a, b) := Quantity.fraction x
      .general 0 (if q.negative then -(a : Int) else a) b

end SortValue

/-! ## Keys -/

/-- What is compared of texts, and how. -/
structure SortOrder where
  kind : Ordering.Kind
  folded : Bool
  dictionary : Bool
  printable : Bool
  reversed : Bool
  skipsStart : Bool
  skipsEnd : Bool
  /-- The letters that chose the kind or what is left out. -/
  letters : List Char
deriving Repr

namespace SortOrder

def plain : SortOrder := ⟨.bytes, false, false, false, false, false, false, []⟩

/-- Adds what a letter means. -/
def add? (o : SortOrder) (atEnd : Option Bool) (c : Char) : Option SortOrder :=
  let kind (k : Ordering.Kind) : Option SortOrder := some { o with kind := k, letters := c :: o.letters }
  match c with
  | 'b' =>
    some
      { o with
        skipsStart := o.skipsStart || atEnd ≠ some true
        skipsEnd := o.skipsEnd || atEnd ≠ some false }
  | 'd' => some { o with dictionary := true, letters := c :: o.letters }
  | 'f' => some { o with folded := true }
  | 'g' => kind .general
  | 'h' => kind .human
  | 'i' => some { o with printable := true, letters := c :: o.letters }
  | 'M' => kind .month
  | 'n' => kind .numeric
  | 'R' => kind .shuffled
  | 'r' => some { o with reversed := true }
  | 'V' => kind .version
  | _ => none

/-- Whether nothing but a direction was chosen. -/
def isPlain (o : SortOrder) : Bool :=
  o.letters.isEmpty && !o.folded && !o.skipsStart && !o.skipsEnd

/-- Letters that contradict each other. -/
def conflict? (o : SortOrder) : Option Bytes :=
  let kinds := o.letters.eraseDups
  let groups := (kinds.filter (· ∈ ['n', 'g', 'h', 'M'])).length +
    (if kinds.any (· ∈ ['V', 'R', 'd', 'i']) then 1 else 0)
  if 1 < groups then
    some (kinds.mergeSort fun a b => a.toNat ≤ b.toNat)
  else none

def filtered (o : SortOrder) (cs : Bytes) : Bytes :=
  let cs := if o.dictionary then cs.filter fun c => Bytes.isBlank c || c.isAlphanum else cs
  let cs := if o.printable then cs.filter fun c => 32 ≤ c.toNat && c.toNat < 127 else cs
  if o.folded then cs.map Char.toUpper else cs

def valueOf (o : SortOrder) (cs : Bytes) : SortValue :=
  match o.kind with
  | .bytes => .text (o.filtered cs)
  | .numeric => .decimal (DecimalText.read cs).1
  | .general => .ofGeneral cs
  | .human =>
    let (d, rest) := DecimalText.read cs
    .scaled (d.rank rest) d
  | .month => .month (monthRank cs)
  | .version => .version (o.filtered cs)
  | .shuffled => .shuffled (cs.foldl (fun n c => (n * 31 + c.toNat * 7919) % 1000003) 17) cs

def compare (o : SortOrder) (a b : SortValue) : Ordering :=
  let result := a.compare b
  if o.reversed then result.swap else result

end SortOrder

/-- A place in a line: fields and then bytes to be skipped. -/
structure SortKey where
  startField : Nat
  startByte : Nat
  /-- The last field, and the last byte in it if not the whole field. -/
  stop : Option (Nat × Nat)
  order : SortOrder
deriving Repr

namespace SortKey

/-- Skips so many fields. -/
def skipFields (separator : Option Char) (last : Bool) : Nat → Bytes → Bytes
  | 0, cs => cs
  | n + 1, cs =>
    match separator with
    | some t =>
      let rest := cs.dropWhile (· ≠ t)
      skipFields separator last n (if n = 0 && last then rest else rest.drop 1)
    | none =>
      let isGap (c : Char) : Bool := Bytes.isBlank c || c = '\n'
      skipFields separator last n ((cs.dropWhile isGap).dropWhile fun c => !isGap c)

def extract (k : SortKey) (separator : Option Char) (line : Bytes) : Bytes :=
  let blanks (skip : Bool) (cs : Bytes) : Bytes := if skip then cs.dropWhile Bytes.isBlank else cs
  let start := (blanks k.order.skipsStart (skipFields separator false k.startField line)).drop k.startByte
  match k.stop with
  | none => start
  | some (field, byte) =>
    let rest :=
      if byte = 0 then skipFields separator true (field + 1) line
      else (blanks k.order.skipsEnd (skipFields separator false field line)).drop byte
    start.take (start.length - rest.length)

/-- Why a text is no key. -/
structure Fault where
  what : Bytes
  /-- What the text is called. -/
  noun : String
  text : Bytes

def number (message noun : String) (text cs : Bytes) : Except Fault (Nat × Bytes) :=
  let digits := cs.takeWhile Char.isDigit
  match Bytes.natural? digits with
  | some n => .ok (n, cs.drop digits.length)
  | none => .error ⟨bytes message, noun, if noun = "invalid count at start of " then cs else text⟩

/-- Letters of the order, up to what is none. -/
def letters (atEnd : Bool) (o : SortOrder) : Bytes → SortOrder × Bytes
  | [] => (o, [])
  | c :: rest =>
    match o.add? (some atEnd) c with
    | some o => letters atEnd o rest
    | none => (o, c :: rest)

def ofText (text : Bytes) : Except Fault SortKey := do
  let count := "invalid count at start of "
  let spec := "invalid field specification "
  let (field, rest) ← number "invalid number at field start" count text text
  if field = 0 then throw ⟨bytes "field number is zero", spec, text⟩
  let (byte, rest) ← match rest with
    | '.' :: rest => do
      let (n, rest) ← number "invalid number after '.'" count text rest
      if n = 0 then throw ⟨bytes "character offset is zero", spec, text⟩
      pure (n - 1, rest)
    | rest => pure (0, rest)
  let (order, rest) := letters false .plain rest
  match rest with
  | [] => return ⟨field - 1, byte, none, order⟩
  | ',' :: rest =>
    let (last, rest) ← number "invalid number after ','" count text rest
    if last = 0 then throw ⟨bytes "field number is zero", spec, text⟩
    let (lastByte, rest) ← match rest with
      | '.' :: rest => number "invalid number after '.'" count text rest
      | rest => pure (0, rest)
    let (order, rest) := letters true order rest
    if rest.isEmpty then return ⟨field - 1, byte, some (last - 1, lastByte), order⟩
    else throw ⟨bytes "stray character in field spec", spec, text⟩
  | _ => throw ⟨bytes "stray character in field spec", spec, text⟩

/-- A key in its old form: fields and bytes to be skipped at the start, and where it stops. -/
def ofOld? (start : Bytes) (stop : Option Bytes) : Option SortKey := do
  let place (cs : Bytes) : Option (Nat × Nat × Bytes) := do
    let digits := cs.takeWhile Char.isDigit
    let field ← Bytes.natural? digits
    match cs.drop digits.length with
    | '.' :: rest =>
      let more := rest.takeWhile Char.isDigit
      return (field, (Bytes.natural? more).getD 0, rest.drop more.length)
    | rest => return (field, 0, rest)
  let (field, byte, rest) ← place start
  let (order, rest) := letters false .plain rest
  if !rest.isEmpty then none
  else
    match stop with
    | none => return ⟨field, byte, none, order⟩
    | some cs =>
      let (last, lastByte, rest) ← place cs
      let (order, rest) := letters true order rest
      if !rest.isEmpty || (last = 0 && lastByte = 0) then none
      else if lastByte = 0 then return ⟨field, byte, some (last - 1, 0), order⟩
      else return ⟨field, byte, some (last, lastByte), order⟩

end SortKey

/-! ## Sorting -/

def sortManual : Manual :=
  { usage := " [OPTION]... [FILE]...", version := versionOf "sort"
    options :=
      ["b,ignore-leading-blanks", "d,dictionary-order", "f,ignore-case", "g,general-numeric-sort",
       "h,human-numeric-sort", "i,ignore-nonprinting", "M,month-sort", "n,numeric-sort", "R,random-sort",
       "r,reverse", "V,version-sort", "sort=", "c", "C", "check[=]", "k,key=", "m,merge", "o,output=",
       "s,stable", "S,buffer-size=", "t,field-separator=", "T,temporary-directory=", "u,unique",
       "z,zero-terminated", "parallel=", "debug", "files0-from=", "batch-size=", "compress-program=",
       "random-source="]
    mixed := true, trouble := 2 }

/-- Old keys as options of today. -/
def withOldKeys : Nat → List Bytes → List Bytes
  | 0, words => words
  | _, [] => []
  | n + 1, w :: rest =>
    match w with
    | ['-', '-'] => w :: rest
    | '+' :: cs =>
      let (stop, more) := match rest with
        | ('-' :: d :: ds) :: more => if d.isDigit then (some (d :: ds), more) else (none, rest)
        | _ => (none, rest)
      match SortKey.ofOld? cs stop with
      | some _ =>
        let ending := match stop with
          | some s => '-' :: s
          | none => []
        (bytes "-k+" ++ cs ++ ending) :: withOldKeys n more
      | none => w :: withOldKeys n rest
    | w => w :: withOldKeys n rest

/-- Compares lines by keys, and at last as a whole. -/
structure Sorting where
  keys : List SortKey
  separator : Option Char
  /-- The order without keys, and the direction at last. -/
  order : SortOrder
  /-- Lines with equal keys stay as they are. -/
  stable : Bool

namespace Sorting

/-- What counts of a line: the value of each key, or of the whole line. -/
def valuesOf (s : Sorting) (line : Bytes) : List SortValue :=
  if s.keys.isEmpty then
    [s.order.valueOf (if s.order.skipsStart then line.dropWhile Bytes.isBlank else line)]
  else s.keys.map fun k => k.order.valueOf (k.extract s.separator line)

/-- A line with what counts of it. -/
structure Row where
  line : Bytes
  values : List SortValue

def rowOf (s : Sorting) (line : Bytes) : Row := ⟨line, s.valuesOf line⟩

def byKeys (s : Sorting) (a b : Row) : Ordering :=
  let orders := if s.keys.isEmpty then [s.order] else s.keys.map (·.order)
  first orders a.values b.values
where
  first : List SortOrder → List SortValue → List SortValue → Ordering
    | o :: os, x :: xs, y :: ys =>
      match o.compare x y with
      | .eq => first os xs ys
      | result => result
    | _, _, _ => .eq

def compare (s : Sorting) (a b : Row) : Ordering :=
  match s.byKeys a b with
  | .eq =>
    if s.stable then .eq
    else
      let result := compareBytes a.line b.line
      if s.order.reversed then result.swap else result
  | result => result

def sorted (s : Sorting) (rows : List Row) : List Row :=
  rows.mergeSort fun a b => s.compare a b ≠ .gt

/-- The first of each run of lines with equal keys. -/
def unique (s : Sorting) (rows : List Row) : List Row :=
  (rows.foldl
    (fun acc l =>
      match acc with
      | top :: _ => if s.byKeys top l = .eq then acc else l :: acc
      | [] => [l])
    []).reverse

/-- The first line that is out of order, with its number. -/
def disorder? (s : Sorting) (strict : Bool) (rows : List Row) : Option (Nat × Bytes) :=
  ((rows.zip (rows.drop 1)).zipIdx 2).findSome? fun ((a, b), k) =>
    let o := if strict then s.byKeys a b else s.compare a b
    if o = .gt || (strict && o = .eq) then some (k, b.line) else none

end Sorting

def sortWords : List (String × String) :=
  [("general-numeric", "g"), ("human-numeric", "h"), ("month", "M"), ("numeric", "n"), ("random", "R"),
   ("version", "V")]

/-- What the options of a sort say. -/
def sortingOf (o : Options) : Except Bytes Sorting := do
  let keys ← (o.values "k").mapM fun text =>
    match text with
    | '+' :: cs =>
      let start := cs.takeWhile (· ≠ '-')
      let stop := match cs.drop start.length with
        | _ :: s => some s
        | [] => none
      match SortKey.ofOld? start stop with
      | some k => .ok k
      | none => .error (bytes "stray character in field spec: invalid field specification " ++ quoted text)
    | text =>
      match SortKey.ofText text with
      | .ok k => .ok k
      | .error f => .error (f.what ++ bytes ": " ++ bytes f.noun ++ quoted f.text)
  let letters ← o.found.filterMapM fun f => do
    if f.1 = "sort" then
      let word ← choose "--sort" (sortWords.map (·.1)) f.2
      return sortWords.lookup word
    else return some f.1
  let order := letters.foldl
    (fun acc key => match key.toList with
      | [c] => (acc.add? none c).getD acc
      | _ => acc)
    SortOrder.plain
  let separator ← match o.value? "t" with
    | none => pure none
    | some [] => throw (bytes "empty tab")
    | some [c] => pure (some c)
    | some ['\\', '0'] => pure (some (Char.ofNat 0))
    | some text => throw (bytes "multi-character tab " ++ quoted text)
  let keys := keys.map fun k =>
    if k.order.isPlain && !k.order.reversed then { k with order } else k
  match ((keys.map (·.order)) ++ [order]).findSome? SortOrder.conflict? with
  | some letters =>
    throw (bytes "options '-" ++ letters ++ bytes "' are incompatible")
  | none => return ⟨keys, separator, order, o.has "s" || o.has "u"⟩

def sort : Utility := fun i =>
  withOptions sortManual (fun o rest i => do
    match sortingOf o with
    | .error message => if '\n' ∈ message then refuseUse i message 2 else refuse i message 2
    | .ok s =>
      let stop := if o.has "z" then Char.ofNat 0 else '\n'
      let check := o.last? ["c", "C", "check"]
      match check, rest with
      | some key, _ :: second :: _ =>
        refuse i (bytes "extra operand " ++ quoted second ++ bytes " not allowed with -" ++
          bytes (if key = "C" then "C" else "c")) 2
      | _, _ =>
        let names := if rest.isEmpty then [['-']] else rest
        let texts ← names.mapM fun name => do return (name, ← contents i name)
        match texts.find? fun t => t.2.toOption.isNone with
        | some (name, .error f) =>
          let verb := if f = .isDirectory then "read failed: " else "cannot read: "
          refuse i (bytes verb ++ quoteName name ++ bytes ": " ++ f.text) 2
        | _ =>
          let lines := texts.flatMap fun t => (t.2.toOption.map (linesOf stop)).getD []
          let rows := lines.map s.rowOf
          match check with
          | some key =>
            match s.disorder? (o.has "u") rows with
            | none => return 0
            | some (k, line) =>
              let quiet := key = "C" ||
                (o.value? "check").any (Bytes.isAmong · [bytes "quiet", bytes "silent"])
              if quiet then return 1
              else
                refuse i (quoteName (names.head?.getD []) ++ ':' :: Bytes.ofNat k ++ bytes ": disorder: " ++
                  line) 1
          | none =>
            let sorted := s.sorted rows
            let sorted := if o.has "u" then s.unique sorted else sorted
            let out := (sorted.map (·.line ++ [stop])).flatten
            match o.value? "o" with
            | none => put i out
            | some name =>
              match ← Task.call (.openFile (pathOf i name) .write) with
              | .error f => refuse i (bytes "open failed: " ++ quoteName name ++ bytes ": " ++ f.text) 2
              | .ok fd =>
                let _ ← Task.call (.write fd out)
                Task.call (.close fd)
                return 0)
    { i with arguments := i.arguments.take 1 ++ withOldKeys i.arguments.length (operands i) }

/-! ## Runs of equal lines -/

def uniqManual : Manual :=
  { usage := " [OPTION]... [INPUT [OUTPUT]]", version := versionOf "uniq"
    options :=
      ["c,count", "d,repeated", "D", "all-repeated[=]", "f,skip-fields=", "group[=]", "i,ignore-case",
       "s,skip-chars=", "u,unique", "z,zero-terminated", "w,check-chars="]
    mixed := true, trouble := 1 }

/-- What is compared of a line. -/
def comparedPart (fields chars : Nat) (most : Option Nat) (line : Bytes) : Bytes :=
  let rec skip : Nat → Bytes → Bytes
    | 0, cs => cs
    | n + 1, cs => skip n ((cs.dropWhile Bytes.isBlank).dropWhile fun c => !Bytes.isBlank c)
  let rest := (skip fields line).drop chars
  match most with
  | some n => rest.take n
  | none => rest

/-- Where empty lines stand between groups. -/
inductive GroupMark where
  | none
  | before
  | after
  | between
  | around
deriving DecidableEq, Repr

def groupMarks : List (String × GroupMark) :=
  [("none", .none), ("prepend", .before), ("append", .after), ("separate", .between), ("both", .around)]

def markGroups (mark : GroupMark) (stop : Char) (groups : List (List Bytes)) : Bytes :=
  let texts := groups.map fun g => (g.map (· ++ [stop])).flatten
  if texts.isEmpty then []
  else
    match mark with
    | .none => texts.flatten
    | .before => (texts.map (stop :: ·)).flatten
    | .after => (texts.map (· ++ [stop])).flatten
    | .between => Bytes.join [stop] texts
    | .around => stop :: (texts.map (· ++ [stop])).flatten

def uniq : Utility := fun i =>
  -- a plus sign and digits are an old form of an option
  let plus (w : Bytes) : List Bytes := match w with
    | '+' :: c :: cs => if (c :: cs).all Char.isDigit then [bytes "-s", c :: cs] else [w]
    | w => [w]
  let i := withOldNumber 'f' { i with arguments := i.arguments.take 1 ++ (operands i).flatMap plus }
  withOptions uniqManual (fun o rest i => do
    let number (key what : String) : Except Bytes (Option Nat) :=
      match o.value? key with
      | none => .ok none
      | some text =>
        match size? text with
        | some n => .ok (some n)
        | none => .error (text ++ bytes ": invalid number of " ++ bytes what)
    let settings : Except (Bytes × Bool) (Nat × Nat × Option Nat × GroupMark × GroupMark) := do
      let plain {α : Type} (x : Except Bytes α) : Except (Bytes × Bool) α := x.mapError (·, false)
      let fields ← plain (number "f" "fields to skip")
      let chars ← plain (number "s" "bytes to skip")
      let most ← plain (number "w" "bytes to compare")
      let chosen (key : String) (words : List String) : Except (Bytes × Bool) GroupMark :=
        match o.value? key with
        | none | some [] => .ok (if key = "group" then .between else .none)
        | some text =>
          match choose ("--" ++ key) words text with
          | .ok w => .ok ((groupMarks.lookup w).getD .none)
          | .error message => .error (message, true)
      let repeats ← chosen "all-repeated" ["none", "prepend", "separate"]
      let group ← chosen "group" ["prepend", "append", "separate", "both"]
      return (fields.getD 0, chars.getD 0, most, repeats, group)
    match settings, rest with
    | .error (message, true), _ => refuseUse i message 1
    | .error (message, false), _ => refuse i message 1
    | .ok _, _ :: _ :: extra :: _ => refuseUse i (bytes "extra operand " ++ quoted extra) 1
    | .ok (fields, chars, most, repeats, group), _ =>
      let allRepeated := o.has "D" || o.has "all-repeated"
      if o.has "group" && (o.has "c" || o.has "d" || allRepeated || o.has "u") then
        refuseUse i (bytes "--group is mutually exclusive with -c/-d/-D/-u") 1
      else if allRepeated && o.has "c" then
        refuseUse i (bytes "printing all duplicated lines and repeat counts is meaningless") 1
      else
        let stop := if o.has "z" then Char.ofNat 0 else '\n'
        let key (line : Bytes) : Bytes :=
          let part := comparedPart fields chars most line
          if o.has "i" then part.map Char.toLower else part
        let input := rest.head?.getD ['-']
        match rest[1]? with
        | none | some ['-'] => pure ()
        | some name =>
          match ← Task.call (.openFile (pathOf i name) .write) with
          | .ok fd =>
            let _ ← Task.call (.copy fd 1)
            Task.call (.close fd)
          | .error _ => pure ()
        let report (line : Bytes) (count : Nat) : Bytes :=
          let shown := if o.has "u" && o.has "d" then false
            else if o.has "d" then 1 < count else if o.has "u" then count = 1 else true
          if !shown then []
          else if o.has "c" then rightAligned 7 (Bytes.ofNat count) ++ ' ' :: line ++ [stop]
          else line ++ [stop]
        if allRepeated || o.has "group" then
          match ← contents i input with
          | .error f => refuse i (quoteName input ++ bytes ": " ++ f.text) 1
          | .ok data =>
            let groups := (linesOf stop data).splitBy fun a b => key a = key b
            if o.has "group" then put i (markGroups group stop groups)
            else
              let groups := groups.filter fun g => 1 < g.length
              put i (markGroups repeats stop groups)
        else
          let step (s : Option (Bytes × Bytes × Nat)) (line : Bytes) (_ : Bool) :
              Option (Bytes × Bytes × Nat) × Bytes × Bool :=
            match s with
            | none => (some (line, key line, 1), [], false)
            | some (first, k, n) =>
              if key line = k then (some (first, k, n + 1), [], false)
              else (some (line, key line, 1), report first n, false)
          let finish (s : Option (Bytes × Bytes × Nat)) : Bytes := match s with
            | some (first, _, n) => report first n
            | none => []
          stream i [input] (lineStage stop step finish) ⟨none, []⟩) i
where
  rightAligned (width : Nat) (digits : Bytes) : Bytes :=
    List.replicate (width - digits.length) ' ' ++ digits

/-! ## Two files -/

def commManual : Manual :=
  { usage := " [OPTION]... FILE1 FILE2", version := versionOf "comm"
    options :=
      ["1", "2", "3", "check-order", "nocheck-order", "output-delimiter=", "total", "z,zero-terminated"]
    mixed := true, trouble := 1 }

/-- Lines only in the first text, only in the second, and in both, as columns 1, 2 and 3. -/
def compareLines : Nat → List Bytes → List Bytes → List (Nat × Bytes)
  | 0, _, _ => []
  | n + 1, a, b =>
    match a, b with
    | [], [] => []
    | x :: a, [] => (1, x) :: compareLines n a []
    | [], y :: b => (2, y) :: compareLines n [] b
    | x :: a, y :: b =>
      if x < y then (1, x) :: compareLines n a (y :: b)
      else if y < x then (2, y) :: compareLines n (x :: a) b
      else (3, x) :: compareLines n a b

/-- The operands of a utility that takes two files. -/
def twoFiles (i : Invocation) (rest : List Bytes) (run : Bytes → Bytes → Task Nat) : Task Nat := do
  match rest with
  | [] => refuseUse i (bytes "missing operand") 1
  | [a] => refuseUse i (bytes "missing operand after " ++ quoted a) 1
  | [a, b] =>
    match ← contents i a with
    | .error f => refuse i (quoteName a ++ bytes ": " ++ f.text) 1
    | .ok first =>
      match ← contents i b with
      | .error f => refuse i (quoteName b ++ bytes ": " ++ f.text) 1
      | .ok second => run first second
  | _ :: _ :: c :: _ => refuseUse i (bytes "extra operand " ++ quoted c) 1

def comm : Utility :=
  withOptions commManual fun o rest i => do
    twoFiles i rest fun first second => do
      let stop := if o.has "z" then Char.ofNat 0 else '\n'
      let a := linesOf stop first
      let b := linesOf stop second
      let all := compareLines (a.length + b.length + 1) a b
      let joint := match o.value? "output-delimiter" with
        | some [] => [Char.ofNat 0]
        | some d => d
        | none => ['\t']
      let hidden (k : Nat) : Bool := o.has (toString k)
      let front (k : Nat) : Bytes :=
        ((List.range' 1 (k - 1)).filter fun j => !hidden j).flatMap fun _ => joint
      let rows := (all.filter fun e => !hidden e.1).map fun e => front e.1 ++ e.2 ++ [stop]
      let counts := [1, 2, 3].map fun k => Bytes.ofNat (all.filter (·.1 = k)).length
      let total := if o.has "total" then Bytes.join joint (counts ++ [bytes "total"]) ++ [stop] else []
      let unordered (ls : List Bytes) : Bool := (ls.zip (ls.drop 1)).any fun (x, y) => y < x
      let wrong := if o.has "nocheck-order" then []
        else (if unordered a then [1] else []) ++ (if unordered b then [2] else [])
      let differs := all.any (·.1 ≠ 3)
      let written ← put i (rows.flatten ++ total)
      if wrong.isEmpty || (!differs && !o.has "check-order") then return written
      else
        wrong.forM fun k =>
          complain i (bytes "file " ++ Bytes.ofNat k ++ bytes " is not in sorted order")
        unless o.has "check-order" do complain i (bytes "input is not in sorted order")
        return 1

/-! ## Joining -/

def joinManual : Manual :=
  { usage := " [OPTION]... FILE1 FILE2", version := versionOf "join"
    options :=
      ["a=", "e=", "i,ignore-case", "j=", "o=", "t=", "v=", "1=", "2=", "check-order", "nocheck-order",
       "header", "z,zero-terminated"]
    mixed := true, trouble := 1 }

/-- How lines of two files are put together. -/
structure Joining where
  separator : Option Char
  first : Nat
  second : Nat
  folded : Bool
  filler : Bytes
  /-- The fields to be shown: a file, or 0 for the common field, and a number. -/
  format : Option (List (Nat × Nat))
  unpaired : List Nat
  onlyUnpaired : Bool

namespace Joining

def fields (j : Joining) (line : Bytes) : List Bytes :=
  match j.separator with
  | some t => line.splitOn t
  | none => (line.splitOnP Bytes.isBlank).filter (· ≠ [])

def key (j : Joining) (k : Nat) (fs : List Bytes) : Bytes :=
  let text := (fs[k]?).getD []
  if j.folded then text.map Char.toUpper else text

def row (j : Joining) (a b : List Bytes) : Bytes :=
  let joint := j.separator.getD ' '
  let common := if a.isEmpty then b[j.second]?.getD [] else a[j.first]?.getD []
  let full (text : Bytes) : Bytes := if text.isEmpty then j.filler else text
  match j.format with
  | some spec =>
    Bytes.join [joint] (spec.map fun (file, k) =>
      full (if file = 0 then common else ((if file = 1 then a else b)[k - 1]?).getD []))
  | none =>
    let others (fs : List Bytes) (k : Nat) : List Bytes := fs.take k ++ fs.drop (k + 1)
    Bytes.join [joint] ((full common :: others a j.first ++ others b j.second).map full)

/-- Goes through both files in step. -/
def rows (j : Joining) : Nat → List (List Bytes) → List (List Bytes) → List Bytes
  | 0, _, _ => []
  | n + 1, a, b =>
    let single (file : Nat) (r : Bytes) : List Bytes := if file ∈ j.unpaired then [r] else []
    match a, b with
    | [], [] => []
    | x :: a, [] => single 1 (j.row x []) ++ rows j n a []
    | [], y :: b => single 2 (j.row [] y) ++ rows j n [] b
    | x :: a', y :: b' =>
      let p := j.key j.first x
      let q := j.key j.second y
      if p < q then single 1 (j.row x []) ++ rows j n a' (y :: b')
      else if q < p then single 2 (j.row [] y) ++ rows j n (x :: a') b'
      else
        let same := (x :: a').takeWhile fun f => j.key j.first f = p
        let others := (y :: b').takeWhile fun f => j.key j.second f = p
        let pairs := if j.onlyUnpaired then [] else
          same.flatMap fun u => others.map fun v => j.row u v
        pairs ++ rows j n ((x :: a').drop same.length) ((y :: b').drop others.length)

end Joining

def join : Utility :=
  withOptions joinManual fun o rest i => do
    let field (keys : List String) : Nat :=
      ((o.found.reverse.find? fun f => f.1 ∈ keys).bind fun f => Bytes.natural? f.2).getD 1
    let format := match o.values "o" with
      | [] => none
      | specs =>
        some ((specs.flatMap fun s => s.splitOnP fun c => c = ',' || Bytes.isBlank c).filterMap fun s =>
          match s with
          | ['0'] => some (0, 0)
          | '1' :: '.' :: k => (Bytes.natural? k).map (1, ·)
          | '2' :: '.' :: k => (Bytes.natural? k).map (2, ·)
          | _ => none)
    let numbers := ((o.values "a") ++ (o.values "v")).filterMap Bytes.natural?
    let separator := match o.value? "t" with
      | some [c] => some c
      | some [] => some '\n'
      | _ => none
    let j : Joining :=
      { separator, first := field ["1", "j"] - 1, second := field ["2", "j"] - 1, folded := o.has "i"
        filler := (o.value? "e").getD [], format, unpaired := numbers, onlyUnpaired := o.has "v" }
    twoFiles i rest fun first second => do
      let stop := if o.has "z" then Char.ofNat 0 else '\n'
      let a := (linesOf stop first).map j.fields
      let b := (linesOf stop second).map j.fields
      let (front, a, b) := match o.has "header", a, b with
        | true, x :: a, y :: b => ([j.row x y], a, b)
        | _, a, b => ([], a, b)
      put i ((front ++ j.rows (a.length + b.length + 1) a b).map (· ++ [stop])).flatten

/-! ## Other orders -/

/-- Takes things out one by one, those first that nothing before them waits for. -/
def topological : Nat → List Bytes → List (Bytes × Bytes) → List Bytes → List Bytes × List Bytes
  | 0, left, _, acc => (acc.reverse, left)
  | n + 1, left, pairs, acc =>
    match left.filter fun x => !(pairs.any (·.2 = x)) with
    | [] => (acc.reverse, left)
    | free => topological n (left.filter (· ∉ free)) (pairs.filter (·.1 ∉ free)) (free.reverse ++ acc)

def tsort : Utility :=
  withOptions ⟨" [OPTION] [FILE]", versionOf "tsort", [], true, 1⟩ fun _ rest i => do
    match rest with
    | _ :: extra :: _ => refuseUse i (bytes "extra operand " ++ quoted extra) 1
    | _ =>
      let name := rest.head?.getD ['-']
      match ← contents i name with
      | .error f => refuse i (quoteName name ++ bytes ": " ++ f.text) 1
      | .ok data =>
        let words := (data.splitOnP Bytes.isSpace).filter (· ≠ [])
        if words.length % 2 = 1 then
          refuse i (quoteName name ++ bytes ": input contains an odd number of tokens") 1
        else
          let rec pairUp : List Bytes → List (Bytes × Bytes)
            | a :: b :: rest => (a, b) :: pairUp rest
            | _ => []
          let pairs := (pairUp words).filter fun p => p.1 ≠ p.2
          let names := words.eraseDups
          let (ordered, left) := topological (names.length + 1) names pairs []
          let written ← put i (unlines (ordered ++ left))
          if left.isEmpty then return written
          else
            complain i (quoteName name ++ bytes ": input contains a loop:")
            return 1

def shufManual : Manual :=
  { usage := " [OPTION]... [FILE]", version := versionOf "shuf"
    options :=
      ["e,echo", "i,input-range=", "n,head-count=", "o,output=", "r,repeat", "z,zero-terminated",
       "random-source="]
    mixed := true, trouble := 1 }

/-- Lines in an order that looks like chance. -/
def shuf : Utility :=
  withOptions shufManual fun o rest i => do
    let stop := if o.has "z" then Char.ofNat 0 else '\n'
    let lines ← match o.value? "i" with
      | some range =>
        let low := range.takeWhile (· ≠ '-')
        let a := (Bytes.natural? low).getD 0
        let b := (Bytes.natural? (range.drop (low.length + 1))).getD 0
        pure (some ((List.range' a (b + 1 - a)).map Bytes.ofNat))
      | none =>
        if o.has "e" then pure (some rest)
        else do
          match ← contents i (rest.head?.getD ['-']) with
          | .ok data => pure (some (linesOf stop data))
          | .error f =>
            complain i (quoteName (rest.head?.getD []) ++ bytes ": " ++ f.text)
            pure none
    match lines with
    | none => return 1
    | some lines =>
      let shuffled := ((lines.zipIdx.map fun (l, k) => ((k * 7919 + 13) % 1009, l)).mergeSort
        fun a b => a.1 ≤ b.1).map (·.2)
      let shuffled := match (o.value? "n").bind Bytes.natural? with
        | some n => shuffled.take n
        | none => shuffled
      put i (shuffled.map (· ++ [stop])).flatten

end ValueInspector.Shell.Utility
