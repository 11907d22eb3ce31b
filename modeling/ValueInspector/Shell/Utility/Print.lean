import ValueInspector.Shell.Number
import ValueInspector.Shell.Utility.Basic

/-! # Utilities that print their words

`echo` with its words as they are or with escapes replaced, and `printf` with a format that takes the
words as arguments.
-/
namespace ValueInspector.Shell.Utility

/-! ## Escapes -/

def isOctal (c : Char) : Bool := '0' ≤ c && c ≤ '7'
def isHex (c : Char) : Bool := (Text.digitValue? 16 c).isSome

/-- Letters that stand for one byte after a backslash. -/
def escapeLetter? (c : Char) : Option Char :=
  List.lookup c
    [('\\', '\\'), ('a', Char.ofNat 7), ('b', Char.ofNat 8), ('e', Char.ofNat 27), ('f', Char.ofNat 12),
     ('n', '\n'), ('r', '\r'), ('t', '\t'), ('v', Char.ofNat 11)]

/-- At most so many digits in a base, as a byte, and the rest. -/
def byteOfDigits (base limit : Nat) (cs : Bytes) : Char × Bytes :=
  let digits := (cs.take limit).takeWhile fun c => (Text.digitValue? base c).isSome
  (Char.ofNat ((Text.readDigits? base digits).getD 0 % 256), cs.drop digits.length)

/-! ## Words -/

/-- Replaces the escapes in words that are printed. Whether the output ends early is also told. -/
def echoed : Nat → Bytes → Bytes → Bytes × Bool
  | 0, _, acc => (acc.reverse, false)
  | n + 1, cs, acc =>
    match cs with
    | [] => (acc.reverse, false)
    | '\\' :: 'c' :: _ => (acc.reverse, true)
    | '\\' :: '0' :: rest =>
      let (c, rest) := byteOfDigits 8 3 rest
      echoed n rest (c :: acc)
    | '\\' :: 'x' :: d :: rest =>
      if isHex d then
        let (c, rest) := byteOfDigits 16 2 (d :: rest)
        echoed n rest (c :: acc)
      else echoed n (d :: rest) ('x' :: '\\' :: acc)
    | '\\' :: c :: rest =>
      match escapeLetter? c with
      | some e => echoed n rest (e :: acc)
      | none => echoed n rest (c :: '\\' :: acc)
    | c :: rest => echoed n rest (c :: acc)

def echo : Utility := fun i => do
  let args := operands i
  if args = [bytes "--help"] then
    put i (bytes "Usage: " ++ nameOf i ++ bytes " [SHORT-OPTION]... [STRING]...\n")
  else if args = [bytes "--version"] then put i (bytes (versionOf "echo") ++ ['\n'])
  else
    let isOption (w : Bytes) : Bool :=
      w.head? = some '-' && 1 < w.length && (w.drop 1).all (· ∈ ['n', 'e', 'E'])
    let letters := (args.takeWhile isOption).flatten
    let text := Bytes.join [' '] (args.dropWhile isOption)
    let escapes := letters.foldl (fun on c => c = 'e' || (on && c ≠ 'E')) false
    let (text, ended) := if escapes then echoed (text.length + 1) text [] else (text, false)
    put i (if ended || 'n' ∈ letters then text else text ++ ['\n'])

/-! ## Formats -/

/-- What printing under a format has come to. -/
structure FormatState where
  arguments : List Bytes
  /-- Chunks of the output, the latest first. -/
  chunks : List Bytes
  complaints : List Bytes
  status : Nat

namespace FormatState

def put (s : FormatState) (data : Bytes) : FormatState := { s with chunks := data :: s.chunks }

/-- The next argument, or an empty one. -/
def next (s : FormatState) : Bytes × FormatState :=
  match s.arguments with
  | [] => ([], s)
  | a :: rest => (a, { s with arguments := rest })

def remark (s : FormatState) (text : Bytes) (status : Nat) : FormatState :=
  { s with complaints := text :: s.complaints, status := max s.status status }

/-- How a pass over a format ends. -/
inductive Ending where
  | finished (s : FormatState)
  /-- By `\c`, with success. -/
  | stopped (s : FormatState)
  | failed (s : FormatState)

def fail (s : FormatState) (text : Bytes) : Ending := .failed (s.remark text 1)

/-- A text in quotes, with backslashes before quotes and backslashes. -/
def quote (a : Bytes) : Bytes :=
  quoted (a.flatMap fun c => if c = '\x27' || c = '\\' then ['\\', c] else [c])

/-- Checks that nothing is left of a number, and that there was one. -/
def check (s : FormatState) (a : Bytes) (outside : Bool) (rest : Option Bytes) : FormatState :=
  match rest with
  | none =>
    if a.isEmpty then s else s.remark (quote a ++ bytes ": expected a numeric value") 1
  | some rest =>
    if outside then s.remark (quote a ++ bytes ": Numerical result out of range") 1
    else if rest.isEmpty then s
    else s.remark (quote a ++ bytes ": value not completely converted") 1

/-- The byte after a quote, if the argument is one. -/
def character? (s : FormatState) (a : Bytes) : Option (Nat × FormatState) :=
  match a with
  | q :: c :: rest =>
    if q = '\x27' || q = '"' then
      let s := if rest.isEmpty then s else
        s.remark (bytes "warning: " ++ rest ++
          bytes ": character(s) following character constant have been ignored") 0
      some (c.toNat, s)
    else none
  | _ => none

def integer (s : FormatState) (least greatest : Int) : Int × FormatState :=
  let (a, s) := s.next
  match s.character? a with
  | some (n, s) => ((n : Int), s)
  | none =>
    match Numeric.integer? a with
    | none => (0, s.check a false none)
    | some (n, rest) => (max least (min greatest n), s.check a (n < least || greatest < n) (some rest))

def quantity (s : FormatState) : Quantity × FormatState :=
  let (a, s) := s.next
  match s.character? a with
  | some (n, s) => ((Quantity.ofQuotient .extended false n 1).1, s)
  | none =>
    match Numeric.quantity? .extended a with
    | none => (.zero, s.check a false none)
    | some (q, outside, rest) => (q, s.check a outside (some rest))

/-- A character by its number, or as an escape if it is no ASCII. -/
def universal (n : Nat) : Bytes :=
  if n < 128 then [Char.ofNat n]
  else
    let digits := (Nat.toDigits 16 n).map Char.toUpper
    let width := if n < 65536 then 4 else 8
    ['\\', if n < 65536 then 'u' else 'U'] ++ List.replicate (width - digits.length) '0' ++ digits

/-- An escape after its backslash. An octal number may have a zero before its three digits if `zero`. -/
def escape (s : FormatState) (zero : Bool) (cs : Bytes) : Ending × Bytes :=
  match cs with
  | [] => (.finished (s.put ['\\']), [])
  | 'c' :: _ => (.stopped s, [])
  | '"' :: rest => (.finished (s.put ['"']), rest)
  | 'x' :: rest =>
    if rest.head?.any isHex then
      let (c, rest) := byteOfDigits 16 2 rest
      (.finished (s.put [c]), rest)
    else (s.fail (bytes "missing hexadecimal number in escape"), [])
  | c :: rest =>
    if isOctal c then
      let (b, rest) := byteOfDigits 8 3 (if zero && c = '0' then rest else c :: rest)
      (.finished (s.put [b]), rest)
    else if c = 'u' || c = 'U' then
      let width := if c = 'u' then 4 else 8
      let digits := (rest.take width).takeWhile isHex
      if digits.length < width then (s.fail (bytes "missing hexadecimal number in escape"), [])
      else
        let n := (Text.readDigits? 16 digits).getD 0
        if 0xd800 ≤ n && n ≤ 0xdfff then
          (s.fail (bytes "invalid universal character name \\" ++ c :: digits), [])
        else (.finished (s.put (universal n)), rest.drop width)
    else
      match escapeLetter? c with
      | some e => (.finished (s.put [e]), rest)
      | none => (.finished (s.put ['\\', c]), rest)

/-- An argument with its escapes replaced. -/
def escapes : Nat → FormatState → Bytes → Ending
  | 0, s, _ => .finished s
  | n + 1, s, cs =>
    match cs with
    | [] => .finished s
    | '\\' :: rest =>
      match s.escape true rest with
      | (.finished s, rest) => escapes n s rest
      | (ending, _) => ending
    | c :: rest =>
      let text := (c :: rest).takeWhile (· ≠ '\\')
      escapes n (s.put text) ((c :: rest).drop text.length)

/-- A text that a shell reads back as it is. -/
def shellQuoted (a : Bytes) : Bytes :=
  let odd (c : Char) : Bool := c.toNat < 32 || 126 < c.toNat
  if !(a.any odd) then quoteName a
  else
    let runs := a.splitBy fun x y => odd x = odd y
    let part (run : Bytes) : Bytes :=
      if run.any odd then
        let code (c : Char) : Bytes :=
          match List.lookup c
              [(Char.ofNat 7, 'a'), (Char.ofNat 8, 'b'), (Char.ofNat 12, 'f'), ('\n', 'n'), ('\r', 'r'),
               ('\t', 't'), (Char.ofNat 11, 'v')] with
          | some l => ['\\', l]
          | none =>
            let digits := Nat.toDigits 8 c.toNat
            '\\' :: (List.replicate (3 - digits.length) '0' ++ digits)
        bytes "$'" ++ run.flatMap code ++ ['\x27']
      else quoted (run.flatMap fun c => if c = '\x27' then bytes "'\\''" else [c])
    (if (a.head?.any odd) then bytes "''" else []) ++ (runs.map part).flatten

/-- A conversion by its letter. -/
def convert (s : FormatState) (l : Layout) (letter : Char) : FormatState :=
  match letter with
  | 's' =>
    let (a, s) := s.next
    s.put (l.text a)
  | 'c' =>
    let (a, s) := s.next
    s.put (l.pad [a.head?.getD (Char.ofNat 0)])
  | 'd' | 'i' =>
    let (n, s) := s.integer Arithmetic.leastWord Arithmetic.greatestWord
    s.put (l.signed n)
  | 'o' | 'u' | 'x' | 'X' =>
    let (n, s) := s.integer (-18446744073709551615) 18446744073709551615
    let base := if letter = 'o' then 8 else if letter = 'u' then 10 else 16
    s.put (l.unsigned base (letter = 'X') (n % 18446744073709551616).toNat)
  | _ =>
    let (q, s) := s.quantity
    s.put (l.quantity .extended letter q)

/-- Conversion letters that may follow some flags. -/
def allowed (flags : Bytes) (pointed : Bool) : Bytes :=
  "aAcdeEfFgGiosuxX".toList.filter fun c =>
    !(('I' ∈ flags || '\x27' ∈ flags) && c ∈ "aAceEosxX".toList) &&
      !('#' ∈ flags && c ∈ "cdisu".toList) && !('0' ∈ flags && c ∈ "cs".toList) && !(pointed && c = 'c')

/-- A width or precision: digits, or an argument for an asterisk. -/
def measure (s : FormatState) (format : Bytes) : Option Int × FormatState × Bytes :=
  match format with
  | '*' :: rest =>
    if s.arguments.isEmpty then (some 0, s, rest)
    else
      let (n, s) := s.integer Arithmetic.leastWord Arithmetic.greatestWord
      (some n, s, rest)
  | _ =>
    let digits := format.takeWhile Char.isDigit
    ((Bytes.natural? digits).map fun n => (n : Int), s, format.drop digits.length)

/-- One pass over a format. -/
def pass : Nat → FormatState → Bytes → Ending
  | 0, s, _ => .finished s
  | n + 1, s, format =>
    match format with
    | [] => .finished s
    | '\\' :: rest =>
      match s.escape false rest with
      | (.finished s, rest) => pass n s rest
      | (ending, _) => ending
    | '%' :: '%' :: rest => pass n (s.put ['%']) rest
    | '%' :: 'b' :: rest =>
      let (a, s) := s.next
      match escapes (a.length + 1) s a with
      | .finished s => pass n s rest
      | ending => ending
    | '%' :: 'q' :: rest =>
      if s.arguments.isEmpty then pass n s rest
      else
        let (a, s) := s.next
        pass n (s.put (shellQuoted a)) rest
    | '%' :: spec =>
      let flags := spec.takeWhile fun c => c ∈ ['I', '\x27', '-', '+', ' ', '#', '0']
      let (width, s, rest) := s.measure (spec.drop flags.length)
      let (pointed, precision, s, rest) := match rest with
        | '.' :: rest =>
          let (p, s, rest) := s.measure rest
          (true, some (p.getD 0), s, rest)
        | _ => (false, none, s, rest)
      let rest := rest.dropWhile (· ∈ ['l', 'L', 'h', 'j', 't', 'z'])
      let width := width.getD 0
      match rest with
      | letter :: rest =>
        if letter ∈ allowed flags pointed then
          let l : Layout :=
            { left := '-' ∈ flags || width < 0, plus := '+' ∈ flags, space := ' ' ∈ flags
              alternate := '#' ∈ flags, zero := '0' ∈ flags, width := width.natAbs
              precision := precision.bind fun p => if p < 0 then none else some p.toNat }
          pass n (s.convert l letter) rest
        else
          let text := '%' :: spec.take (spec.length - rest.length)
          s.fail (text ++ bytes ": invalid conversion specification")
      | [] => s.fail ('%' :: spec ++ bytes ": invalid conversion specification")
    | c :: rest =>
      let text := (c :: rest).takeWhile fun c => c ≠ '%' && c ≠ '\\'
      pass n (s.put text) ((c :: rest).drop text.length)

/-- Passes over a format as long as they use up arguments. -/
def passes (format : Bytes) : Nat → FormatState → Ending
  | 0, s => .finished s
  | n + 1, s =>
    match pass (format.length + 1) s format with
    | .finished t =>
      if t.arguments.isEmpty then .finished t
      else if t.arguments.length < s.arguments.length then passes format n t
      else
        let first := t.arguments.head?.getD []
        .finished (t.remark
          (bytes "warning: ignoring excess arguments, starting with " ++ quote first) 0)
    | ending => ending

end FormatState

def printf : Utility := fun i => do
  let args := operands i
  if args = [bytes "--help"] then
    put i (bytes "Usage: " ++ nameOf i ++ bytes " FORMAT [ARGUMENT]...\n")
  else if args = [bytes "--version"] then put i (bytes (versionOf "printf") ++ ['\n'])
  else
    match (if args.head? = some ['-', '-'] then args.drop 1 else args) with
    | [] => refuseUse i (bytes "missing operand") 1
    | format :: arguments =>
      let finish (s : FormatState) (status : Nat) : Task Nat := do
        s.complaints.reverse.forM (complain i)
        return max status (← put i s.chunks.reverse.flatten)
      match FormatState.passes format (arguments.length + 1) ⟨arguments, [], [], 0⟩ with
      | .finished s => finish s s.status
      | .stopped s => finish s 0
      | .failed s => finish s 1

end ValueInspector.Shell.Utility
