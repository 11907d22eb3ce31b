import ValueInspector.Shell.Number

/-! # Formatted output

Escapes in texts, and formats whose conversions take arguments, as the commands that print have them.
-/
namespace ValueInspector.Shell

namespace Escape

def isOctal (c : Char) : Bool := '0' ≤ c && c ≤ '7'

/-- At most `limit` octal digits, as a byte, and the rest. -/
def octal (limit : Nat) (cs : Bytes) : Char × Bytes :=
  let digits := (cs.take limit).takeWhile isOctal
  (Char.ofNat ((Text.readDigits? 8 digits).getD 0 % 256), cs.drop digits.length)

/-- The byte for the text after a backslash, and the rest. What is no escape keeps its backslash. -/
def single (cs : Bytes) : Char × Bytes :=
  match cs with
  | [] => ('\\', [])
  | c :: rest =>
    if isOctal c then octal 3 cs
    else
      match List.lookup c
          [('\\', '\\'), ('a', Char.ofNat 7), ('b', Char.ofNat 8), ('e', Char.ofNat 27),
           ('f', Char.ofNat 12), ('n', '\n'), ('r', '\r'), ('t', '\t'), ('v', Char.ofNat 11)] with
      | some d => (d, rest)
      | none => ('\\', cs)

theorem length_octal_le (limit : Nat) (cs : Bytes) : (octal limit cs).2.length ≤ cs.length := by
  simp [octal]

theorem length_single_le (cs : Bytes) : (single cs).2.length ≤ cs.length := by
  unfold single
  split
  · simp
  · split
    · exact length_octal_le _ _
    · split <;> simp

/-- The text after a zero that stands before an octal number. -/
def afterZero (cs : Bytes) : Bytes :=
  match cs with
  | '0' :: d :: rest => if isOctal d then d :: rest else cs
  | _ => cs

theorem length_afterZero_le (cs : Bytes) : (afterZero cs).length ≤ cs.length := by
  unfold afterZero
  split
  · split <;> simp
  · simp

/-- Replaces the escapes of a text, after some text in reverse. -/
def decodeFrom (acc : Bytes) (cs : Bytes) : Bytes × Bool :=
  match cs with
  | [] => (acc.reverse, false)
  | '\\' :: 'c' :: _ => (acc.reverse, true)
  | '\\' :: rest =>
    decodeFrom ((single (afterZero rest)).1 :: acc) (single (afterZero rest)).2
  | c :: rest => decodeFrom (c :: acc) rest
termination_by cs.length
decreasing_by
  · have h := length_single_le (afterZero rest)
    have := length_afterZero_le rest
    simp only [List.length_cons]
    omega
  · simp

/-- The text with its escapes replaced, and whether `\c` ended it. An octal number may have a zero
before its three digits. -/
def decode (cs : Bytes) : Bytes × Bool := decodeFrom [] cs

end Escape

/-- What a format has printed so far, with what is left of its arguments. -/
structure Printing where
  arguments : List Bytes
  /-- Chunks of the output, the latest first. -/
  chunks : List Bytes
  warnings : List Bytes
  taken : Bool

namespace Printing

def put (p : Printing) (data : Bytes) : Printing := { p with chunks := data :: p.chunks }

/-- The next argument; there is always an empty one. -/
def next (p : Printing) : Bytes × Printing :=
  match p.arguments with
  | [] => ([], p)
  | a :: rest => (a, { p with arguments := rest, taken := true })

def warning (p : Printing) (argument : Bytes) (what : String) : Printing :=
  { p with warnings := (argument ++ bytes ": " ++ bytes what) :: p.warnings }

/-- A number as an argument: a numeral, or a quote and a byte. -/
def integer (p : Printing) (least greatest : Int) : Int × Printing :=
  let (a, p) := p.next
  match a with
  | [] => (0, p)
  | '\x27' :: rest | '"' :: rest => ((rest.head?.map fun c => (c.toNat : Int)).getD 0, p)
  | _ =>
    match Numeric.integer? a with
    | none => (0, p.warning a "expected numeric value")
    | some (n, rest) =>
      if !rest.isEmpty then
        (max least (min greatest n), p.warning a "not completely converted")
      else if n < least || greatest < n then
        (max least (min greatest n), p.warning a "Numerical result out of range")
      else (n, p)

def quantity (p : Printing) : Quantity × Printing :=
  let (a, p) := p.next
  match a with
  | [] => (.zero, p)
  | '\x27' :: rest | '"' :: rest =>
    ((Quantity.ofQuotient .double false ((rest.head?.map Char.toNat).getD 0) 1).1, p)
  | _ =>
    match Numeric.quantity? .double a with
    | none => (.zero, p.warning a "expected numeric value")
    | some (x, outside, rest) =>
      (x, if !rest.isEmpty then p.warning a "not completely converted"
        else if outside then p.warning a "Numerical result out of range" else p)

/-- How a pass over a format ends. -/
inductive Ending where
  | again (p : Printing)
  /-- By `\c` in an argument. -/
  | stopped (p : Printing)
  | failed (p : Printing) (message : Bytes)

/-- A width or precision: digits, or an argument for an asterisk. -/
def measure (p : Printing) (format : Bytes) : Int × Printing × Bytes :=
  match format with
  | '*' :: rest =>
    let (n, p) := p.integer (-2147483648) 2147483647
    (n, p, rest)
  | _ =>
    let digits := format.takeWhile Char.isDigit
    ((Bytes.natural? digits).getD 0, p, format.drop digits.length)

def unsignedWord (n : Int) : Nat := (n % 18446744073709551616).toNat

/-- One conversion, by its letter. -/
def convert (p : Printing) (l : Layout) (letter : Char) : Option Ending :=
  match letter with
  | 's' =>
    let (a, p) := p.next
    some (.again (p.put (l.text a)))
  | 'b' =>
    let (a, p) := p.next
    let (text, ended) := Escape.decode a
    let p := p.put (l.text text)
    some (if ended then .stopped p else .again p)
  | 'c' =>
    let (a, p) := p.next
    some (.again (p.put (l.pad [a.head?.getD (Char.ofNat 0)])))
  | 'd' | 'i' =>
    let (n, p) := p.integer Arithmetic.leastWord Arithmetic.greatestWord
    some (.again (p.put (l.signed n)))
  | 'o' | 'u' | 'x' | 'X' =>
    let (n, p) := p.integer (-18446744073709551615) 18446744073709551615
    let base := if letter = 'o' then 8 else if letter = 'u' then 10 else 16
    some (.again (p.put (l.unsigned base (letter = 'X') (unsignedWord n))))
  | 'e' | 'E' | 'f' | 'F' | 'g' | 'G' | 'a' | 'A' =>
    let (x, p) := p.quantity
    some (.again (p.put (l.quantity .double letter x)))
  | _ => none

/-- One pass over a format. -/
def pass : Nat → Printing → Bytes → Ending
  | 0, p, _ => .again p
  | _ + 1, p, [] => .again p
  | n + 1, p, '\\' :: rest =>
    let (c, rest) := Escape.single rest
    pass n (p.put [c]) rest
  | n + 1, p, '%' :: '%' :: rest => pass n (p.put ['%']) rest
  | n + 1, p, '%' :: format =>
    let flags := format.takeWhile fun c => c ∈ ['#', '-', '+', ' ', '0']
    let (width, p, rest) := p.measure (format.drop flags.length)
    let (precision, p, rest) := match rest with
      | '.' :: rest =>
        let (n, p, rest) := p.measure rest
        (if n < 0 then none else some n.toNat, p, rest)
      | _ => (none, p, rest)
    let l : Layout :=
      { left := '-' ∈ flags || width < 0, plus := '+' ∈ flags, space := ' ' ∈ flags
        alternate := '#' ∈ flags, zero := '0' ∈ flags, width := width.natAbs, precision }
    match rest with
    | [] => .failed p (bytes "missing format character")
    | letter :: rest =>
      match p.convert l letter with
      | some (.again p) => pass n p rest
      | some ending => ending
      | none =>
        let spec := format.take (format.length - rest.length)
        .failed p ('%' :: spec ++ bytes ": invalid directive")
  | n + 1, p, c :: rest =>
    let literal := (c :: rest).takeWhile fun c => c ≠ '%' && c ≠ '\\'
    pass n (p.put literal) ((c :: rest).drop literal.length)

/-- Passes over a format as long as they use up arguments. -/
def run (format : Bytes) : Nat → Printing → Ending
  | 0, p => .again p
  | n + 1, p =>
    match pass (format.length + 1) { p with taken := false } format with
    | .again p => if p.taken && !p.arguments.isEmpty then run format n p else .again p
    | ending => ending

/-- Prints arguments under a format. -/
def all (format : Bytes) (arguments : List Bytes) : Ending :=
  run format (arguments.length + 1) ⟨arguments, [], [], false⟩

end Printing
end ValueInspector.Shell
