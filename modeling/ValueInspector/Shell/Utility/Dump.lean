import ValueInspector.Shell.Utility.Basic

/-! # Bytes as numbers and names

`od` shows the bytes of its input in rows, each as one number, name or character, or several bytes as one
number.
-/
namespace ValueInspector.Shell.Utility

/-- In what form bytes are shown. -/
inductive DumpForm where
  | number (base : Nat)
  | signed
  | named
  | escaped
deriving DecidableEq, Repr

/-- A form, how many bytes make one field, and whether the row ends with the bytes as text. -/
structure DumpType where
  form : DumpForm
  size : Nat
  text : Bool
deriving Repr

namespace DumpType

def controlNames : List String :=
  ["nul", "soh", "stx", "etx", "eot", "enq", "ack", "bel", "bs", "ht", "nl", "vt", "ff", "cr", "so", "si",
   "dle", "dc1", "dc2", "dc3", "dc4", "nak", "syn", "etb", "can", "em", "sub", "esc", "fs", "gs", "rs",
   "us", "sp"]

def nameOf (c : Char) : Bytes :=
  let n := c.toNat % 128
  if n = 127 then bytes "del"
  else
    match controlNames[n]? with
    | some name => bytes name
    | none => [Char.ofNat n]

def escapeOf (c : Char) : Bytes :=
  match List.lookup c
      [(Char.ofNat 0, '0'), (Char.ofNat 7, 'a'), (Char.ofNat 8, 'b'), (Char.ofNat 12, 'f'), ('\n', 'n'),
       ('\r', 'r'), ('\t', 't'), (Char.ofNat 11, 'v')] with
  | some l => ['\\', l]
  | none =>
    if 32 ≤ c.toNat && c.toNat < 127 then [c]
    else
      let digits := Nat.toDigits 8 c.toNat
      List.replicate (3 - digits.length) '0' ++ digits

/-- How many digits the greatest number of so many bytes has. -/
def widthOf (base size : Nat) : Nat := (Nat.toDigits base (Nat.pow 256 size - 1)).length

/-- The width of a field. -/
def width (t : DumpType) : Nat :=
  match t.form with
  | .number base => widthOf base t.size
  | .signed => (Nat.toDigits 10 (Nat.pow 256 t.size / 2)).length + 1
  | .named | .escaped => 3

/-- The text of a field. -/
def field (t : DumpType) (bigEndian : Bool) (data : Bytes) : Bytes :=
  let ordered := if bigEndian then data else data.reverse
  let n := ordered.foldl (fun acc c => acc * 256 + c.toNat) 0
  match t.form with
  | .number 10 => Bytes.ofNat n
  | .number base =>
    let digits := Nat.toDigits base n
    List.replicate (t.width - digits.length) '0' ++ digits
  | .signed =>
    let half := Nat.pow 256 t.size / 2
    Bytes.ofInt (if half ≤ n then (n : Int) - 2 * half else n)
  | .named => (data.head?.map nameOf).getD []
  | .escaped => (data.head?.map escapeOf).getD []

/-- Types as they are written one after the other. -/
def ofText : Nat → Bytes → Except Bytes (List DumpType)
  | 0, _ => .ok []
  | n + 1, cs =>
    match cs with
    | [] => .ok []
    | letter :: rest => do
      let numeric (form : DumpForm) : Except Bytes (DumpType × Bytes) :=
        let digits := rest.takeWhile Char.isDigit
        match Bytes.natural? digits, rest with
        | some size, _ =>
          if size ∈ [1, 2, 4, 8] then .ok (⟨form, size, false⟩, rest.drop digits.length)
          else
            .error (bytes "invalid type string '" ++ cs ++ bytes "';\nthis system doesn't provide a " ++
              Bytes.ofNat size ++ bytes "-byte integral type")
        | none, 'C' :: rest => .ok (⟨form, 1, false⟩, rest)
        | none, 'S' :: rest => .ok (⟨form, 2, false⟩, rest)
        | none, 'I' :: rest => .ok (⟨form, 4, false⟩, rest)
        | none, 'L' :: rest => .ok (⟨form, 8, false⟩, rest)
        | none, _ => .ok (⟨form, 4, false⟩, rest)
      let (t, rest) ← match letter with
        | 'a' => .ok (⟨.named, 1, false⟩, rest)
        | 'c' => .ok (⟨.escaped, 1, false⟩, rest)
        | 'd' => numeric .signed
        | 'o' => numeric (.number 8)
        | 'u' => numeric (.number 10)
        | 'x' => numeric (.number 16)
        | _ =>
          .error (bytes "invalid character '" ++ letter :: bytes "' in type string '" ++ cs ++ ['\x27'])
      let (t, rest) : DumpType × Bytes := match rest with
        | 'z' :: rest => ({ t with text := true }, rest)
        | _ => (t, rest)
      return t :: (← ofText n rest)

end DumpType

/-- How rows are made. -/
structure Dump where
  types : List DumpType
  /-- How many bytes a row has. -/
  row : Nat
  /-- The base of addresses, and how many digits they have. -/
  address : Option (Nat × Nat)
  bigEndian : Bool
  /-- Rows like the one before are not left out. -/
  verbose : Bool

namespace Dump

def addressText (d : Dump) (offset : Nat) : Bytes :=
  match d.address with
  | none => []
  | some (base, width) =>
    let digits := Nat.toDigits base offset
    List.replicate (width - digits.length) '0' ++ digits

/-- How many columns a row of a type takes without padding. -/
def columns (d : Dump) (t : DumpType) : Nat := d.row / t.size * (t.width + 1)

/-- A row in one type. Fields are spread so that rows of all types are equally wide. -/
def typeRow (d : Dump) (t : DumpType) (data : Bytes) : Bytes :=
  let widest := (d.types.map d.columns).foldl max 0
  let padding := widest - d.columns t
  let fields := d.row / t.size
  let padded := data ++ List.replicate (d.row - data.length) (Char.ofNat 0)
  let used := (data.length + t.size - 1) / t.size
  let cells := (List.range used).map fun k =>
    let before := padding * (fields - k) / fields
    let after := padding * (fields - k - 1) / fields
    let text := t.field d.bigEndian ((padded.drop (k * t.size)).take t.size)
    List.replicate (t.width + 1 + (before - after) - text.length) ' ' ++ text
  let line := cells.flatten
  if t.text then
    let missing := widest - padding * 0 - line.length
    let shown := data.map fun c => if 32 ≤ c.toNat && c.toNat < 127 then c else '.'
    line ++ List.replicate missing ' ' ++ bytes "  >" ++ shown ++ ['<']
  else line

def fullRow (d : Dump) (offset : Nat) (data : Bytes) : Bytes :=
  let address := d.addressText offset
  ((d.types.zipIdx 0).map fun (t, k) =>
    (if k = 0 then address else List.replicate address.length ' ') ++ d.typeRow t data ++ ['\n']).flatten

/-- All rows. A full row like the one before it is left out, with an asterisk for any number of them. -/
def rows (d : Dump) : Nat → Nat → Bytes → Option Bytes → Bool → List Bytes → List Bytes
  | 0, _, _, _, _, acc => acc.reverse
  | n + 1, offset, data, before, starred, acc =>
    if data.isEmpty then acc.reverse
    else
      let here := data.take d.row
      let rest := data.drop d.row
      if !d.verbose && here.length = d.row && before = some here then
        rows d n (offset + d.row) rest before true (if starred then acc else ['*', '\n'] :: acc)
      else rows d n (offset + here.length) rest (some here) false (d.fullRow offset here :: acc)

end Dump

/-- Reads so many bytes from files one after the other. -/
def readUpTo (i : Invocation) (names : List Bytes) (limit : Option Nat) : Task (Bytes × Nat) := do
  let rec file (fd : Nat) : Nat → Nat → List Bytes → Task (Except FileFault (List Bytes × Nat))
    | 0, missing, acc => return .ok (acc, missing)
    | n + 1, missing, acc => do
      if limit.isSome && missing = 0 then return .ok (acc, 0)
      else
        match ← Task.call (.read fd (if limit.isSome then min missing 65536 else 65536)) with
        | .error f => return .error f
        | .ok [] => return .ok (acc, missing)
        | .ok data => file fd n (missing - data.length) (data :: acc)
  let rec each : List Bytes → Nat → List Bytes → Nat → Task (Bytes × Nat)
    | [], _, acc, status => return (acc.reverse.flatten, status)
    | name :: rest, missing, acc, status => do
      if limit.isSome && missing = 0 then return (acc.reverse.flatten, status)
      else
        let failed (f : FileFault) : Task Unit := complain i (quoteName name ++ bytes ": " ++ f.text)
        match ← openInput i name with
        | .error f =>
          failed f
          each rest missing acc 1
        | .ok fd =>
          let outcome ← file fd Sh.repeats missing acc
          closeInput fd
          match outcome with
          | .ok (acc, missing) => each rest missing acc status
          | .error f =>
            failed f
            each rest missing acc 1
  each (if names.isEmpty then [['-']] else names) (limit.getD 0) [] 0

/-- A count with an optional base and suffix. -/
def dumpCount? (w : Bytes) : Option Nat :=
  match w with
  | '0' :: 'x' :: digits => Text.readDigits? 16 digits
  | '0' :: d :: digits => if (d :: digits).all Char.isDigit then Text.readDigits? 8 (d :: digits) else size? w
  | _ => size? w

/-- Letters for types of older days. -/
def oldTypes : List (String × DumpType) :=
  [("a", ⟨.named, 1, false⟩), ("b", ⟨.number 8, 1, false⟩), ("c", ⟨.escaped, 1, false⟩),
   ("d", ⟨.number 10, 2, false⟩), ("i", ⟨.signed, 4, false⟩), ("l", ⟨.signed, 8, false⟩),
   ("o", ⟨.number 8, 2, false⟩), ("s", ⟨.signed, 2, false⟩), ("x", ⟨.number 16, 2, false⟩)]

def od : Utility :=
  let manual : Manual :=
    { usage := " [OPTION]... [FILE]...", version := versionOf "od"
      options :=
        ["A,address-radix=", "j,skip-bytes=", "N,read-bytes=", "S,strings=", "t,format=",
         "v,output-duplicates", "w,width[=]", "endian=", "traditional", "a", "b", "c", "d", "i", "l", "o",
         "s", "x"]
      mixed := true, trouble := 1 }
  withOptions manual fun o rest i => do
    let types := o.found.mapM fun (key, value) =>
      if key = "t" then DumpType.ofText (value.length + 1) value
      else .ok (oldTypes.lookup key).toList
    let counts := [("j", "skip-bytes"), ("N", "read-bytes")].filterMap fun (key, name) =>
      (o.value? key).bind fun w => if (dumpCount? w).isNone then some (name, w) else none
    match types, counts with
    | .error message, _ => refuse i message 1
    | _, (name, w) :: _ =>
      refuse i (bytes "invalid --" ++ bytes name ++ bytes " argument " ++ quoted w) 1
    | .ok types, [] =>
      let types := if types.flatten.isEmpty then [⟨.number 8, 2, false⟩] else types.flatten
      let unit := types.foldl (fun m t => max m t.size) 1
      let asked := match o.value? "w" with
        | some [] => 32
        | some w => (Bytes.natural? w).getD 0
        | none => 16
      let row := if asked = 0 || asked % unit ≠ 0 then unit else asked
      let radix := (o.value? "A").getD ['o']
      match List.lookup radix
          [(['o'], some (8, 7)), (['d'], some (10, 7)), (['x'], some (16, 6)), (['n'], none)] with
      | none =>
        refuse i (bytes "invalid output address radix '" ++ radix ++
          bytes "'; it must be one character from [doxn]") 1
      | some address =>
        let d : Dump := ⟨types, row, address, o.value? "endian" = some (bytes "big"), o.has "v"⟩
        let skip := ((o.value? "j").bind dumpCount?).getD 0
        let limit := (o.value? "N").bind dumpCount?
        let (data, status) ← readUpTo i rest (limit.map (· + skip))
        if data.length < skip then refuse i (bytes "cannot skip past end of combined input") 1
        else if status ≠ 0 && data.isEmpty then return status
        else
          let data := data.drop skip
          let all := d.rows (data.length + 1) skip data none false []
          let stop := match address with
            | some _ => d.addressText (skip + data.length) ++ ['\n']
            | none => []
          let written ← put i (all.flatten ++ stop)
          return max status written

end ValueInspector.Shell.Utility
