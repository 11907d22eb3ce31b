import ValueInspector.Shell.Growing
import ValueInspector.Shell.Number

/-! # Values of scripts

A value is a number or a text, or a text that came from outside and counts as a number if it looks like
one. Numbers are doubles, where a number that is none keeps its sign.
-/
namespace ValueInspector.Shell.Records

/-- A number, or the sign of what is none. -/
inductive Amount where
  | real (x : Float)
  | nan (negative : Bool)

namespace Amount

def zero : Amount := .real 0.0

/-- An operation that has no result yields a negative NaN. -/
def ofFloat (x : Float) : Amount := if x.isNaN then .nan true else .real x

def ofNat (n : Nat) : Amount := .real (Float.ofNat n)

def ofInt (n : Int) : Amount := .real (Float.ofInt n)

def ofBool (b : Bool) : Amount := if b then .real 1.0 else zero

def ofQuantity (q : Quantity) : Amount :=
  match q.magnitude with
  | .notANumber => .nan q.negative
  | _ => .real q.toFloat

def quantity : Amount → Quantity
  | .real x => .ofFloat x
  | .nan negative => ⟨negative, .notANumber⟩

def map (f : Float → Float) : Amount → Amount
  | .real x => .ofFloat (f x)
  | a => a

def map₂ (f : Float → Float → Float) : Amount → Amount → Amount
  | .real x, .real y => .ofFloat (f x y)
  | .nan s, _ => .nan s
  | _, .nan s => .nan s

def negate : Amount → Amount
  | .real x => .real (-x)
  | .nan s => .nan !s

def isZero : Amount → Bool
  | .real x => x == 0.0
  | .nan _ => false

/-- The order of numbers. What is no number is equal to all. -/
def compare : Amount → Amount → Ordering
  | .real x, .real y => if x < y then .lt else if y < x then .gt else .eq
  | _, _ => .eq

/-- Cuts off the fraction. -/
def truncate : Amount → Amount :=
  map fun x => if x < 0.0 then x.ceil else x.floor

/-- What a division that goes to zero leaves. -/
def remainder : Amount → Amount → Amount
  | .real x, .real y =>
    if x.isInf || y == 0.0 then .nan true
    else
      match (Quantity.ofFloat x).ratio?, (Quantity.ofFloat y).ratio? with
      | some (a, b), some (c, d) =>
        let rest := Int.tmod (a * d) (c * b)
        if rest = 0 then .real (if x < 0.0 then -0.0 else 0.0)
        else .ofQuantity (.ofRatio .double rest (b * d))
      | _, _ => .real x
  | .nan s, _ => .nan s
  | _, .nan s => .nan s

/-- The whole number to zero from here, between given bounds. A NaN is below all. -/
def whole (least greatest : Int) : Amount → Int
  | .nan _ => least
  | .real x =>
    match (Quantity.ofFloat x).ratio? with
    | some (a, b) => max least (min greatest (Int.tdiv a b))
    | none => if x < 0.0 then least else greatest

/-- The low 32 bits of the whole number to zero from here, with a sign. Numbers that do not fit into 64
bits are brought down to those that do. -/
def low (a : Amount) : Int :=
  match a with
  | .nan _ => 0
  | a => Int.bmod (a.whole (-9223372036854775807) 9223372036854775807) 4294967296

/-- The whole number that this is, if it fits into a word of 64 bits with a sign or without one. -/
def integral? : Amount → Option Int
  | .nan _ => none
  | .real x =>
    if x < -9223372036854775808.0 || 18446744073709551616.0 < x then none
    else
      match (Quantity.ofFloat x).ratio? with
      | some (a, b) => if a % b = 0 then some (min (a / b) 18446744073709551615) else none
      | none => none

/-- The number at the front of a text; zero without one. -/
def ofText (w : Bytes) : Amount :=
  match Numeric.quantity? .double w with
  | some (q, _, _) => .ofQuantity q
  | none => zero

/-- The number that a text looks like as a whole, between blanks. Its last character is a decimal digit or
a point. -/
def ofWholeText? (w : Bytes) : Option Amount :=
  match w.dropWhile Bytes.isSpace with
  | [] => none
  | c :: cs =>
    let last := (w.reverse.dropWhile Bytes.isSpace).head?
    if (c.isDigit || c = '+' || c = '-' || c = '.') && last.any (fun d => d.isDigit || d = '.') then
      match Numeric.quantity? .double (c :: cs) with
      | some (q, _, rest) => if rest.all Bytes.isSpace then some (.ofQuantity q) else none
      | none => none
    else none

end Amount

inductive Value where
  | unset
  | number (a : Amount)
  | text (w : Bytes)
  /-- Text from outside. -/
  | mixed (w : Bytes)
  /-- Text that was put together. -/
  | joined (g : Growing)

namespace Value

def ofNat (n : Nat) : Value := .number (.ofNat n)

def ofInt (n : Int) : Value := .number (.ofInt n)

def ofBool (b : Bool) : Value := .number (.ofBool b)

def amount : Value → Amount
  | .unset => .zero
  | .number a => a
  | .text w | .mixed w => .ofText w
  | .joined g => .ofText g.toBytes

/-- A text as if it were from outside. -/
def fromOutside : Value → Value
  | .text w => .mixed w
  | .joined g => .mixed g.toBytes
  | v => v

/-- The number that a value counts as in a comparison. -/
def numeric? : Value → Option Amount
  | .unset => some .zero
  | .number a => some a
  | .text _ | .joined _ => none
  | .mixed w => Amount.ofWholeText? w

def isTrue : Value → Bool
  | .unset => false
  | .number a => !a.isZero
  | .text w => !w.isEmpty
  | .joined g => g.size ≠ 0
  | .mixed w =>
    match Amount.ofWholeText? w with
    | some a => !a.isZero
    | none => !w.isEmpty

end Value

/-! ## Formats -/

namespace Fill

/-- A conversion of a format. -/
structure Directive where
  layout : Layout
  letter : Char

def flags : List Char := ['-', '+', ' ', '#', '0']

/-- A width or precision: digits, or an argument for an asterisk. -/
def measure (format : Bytes) (arguments : List Value) : Option (Int × Bytes × List Value) :=
  match format with
  | '*' :: rest =>
    match arguments with
    | v :: more => some (v.amount.whole (-2147483648) 2147483647, rest, more)
    | [] => none
  | _ =>
    let digits := format.takeWhile Char.isDigit
    some ((Bytes.natural? digits).getD 0, format.drop digits.length, arguments)

/-- The conversion after a percent sign, with what is left of the format and the arguments. -/
def directive? (format : Bytes) (arguments : List Value) :
    Option (Directive × Bytes × List Value) := do
  let set := format.takeWhile (· ∈ flags)
  let (width, format, arguments) ← measure (format.drop set.length) arguments
  let (precision, format, arguments) ← match format with
    | '.' :: rest => do
      let (n, rest, arguments) ← measure rest arguments
      some (if n < 0 then none else some n.toNat, rest, arguments)
    | _ => some (none, format, arguments)
  match format.dropWhile fun c => c = 'l' || c = 'h' with
  | letter :: rest =>
    let layout : Layout :=
      { left := '-' ∈ set || width < 0, plus := '+' ∈ set, space := ' ' ∈ set, alternate := '#' ∈ set
        zero := '0' ∈ set, width := width.natAbs, precision }
    some (⟨layout, letter⟩, rest, arguments)
  | [] => none

def character (v : Value) : Char :=
  let first (w : Bytes) : Char := w.head?.getD (Char.ofNat 0)
  let ofAmount (a : Amount) : Char :=
    Char.ofNat ((a.whole (-2147483648) 2147483647) % 256).toNat
  match v with
  | .number a => ofAmount a
  | .unset => first []
  | .text w => first w
  | .joined g => first g.toBytes
  | .mixed w =>
    match Amount.ofWholeText? w with
    | some a => ofAmount a
    | none => first w

/-- The text of an argument under a conversion, if there is such a conversion. `text` is the text of a
value elsewhere. -/
def converted? (text : Value → Bytes) (d : Directive) (v : Value) : Option Bytes :=
  let n : Int := match v.amount with
    | .nan _ => -9223372036854775808
    | a => a.whole (-18446744073709551616) 18446744073709551615
  let whole := if n < -9223372036854775808 then -9223372036854775807 else n
  let word :=
    if n = -18446744073709551616 then 1
    else (max n (-9223372036854775808) % 18446744073709551616).toNat
  match d.letter with
  | 's' => some (d.layout.text (text v))
  | 'c' => some (d.layout.pad [character v])
  | 'd' | 'i' => some (d.layout.signed whole)
  | 'o' => some (d.layout.unsigned 8 false word)
  | 'u' => some (d.layout.unsigned 10 false word)
  | 'x' => some (d.layout.unsigned 16 false word)
  | 'X' => some (d.layout.unsigned 16 true word)
  | 'e' | 'f' | 'g' | 'E' | 'G' => some (d.layout.quantity .double d.letter v.amount.quantity)
  | _ => none

/-- The text of arguments under a format, and whether it could be completed. -/
def run (text : Value → Bytes) : Nat → Bytes → List Value → List Bytes → Bytes × Bool
  | 0, _, _, acc => (acc.reverse.flatten, true)
  | n + 1, format, arguments, acc =>
    match format with
    | [] => (acc.reverse.flatten, true)
    | '%' :: '%' :: rest => run text n rest arguments (['%'] :: acc)
    | '%' :: rest =>
      match directive? rest arguments with
      | some (d, rest, v :: arguments) =>
        match converted? text d v with
        | some w => run text n rest arguments (w :: acc)
        | none => (acc.reverse.flatten, false)
      | _ => (acc.reverse.flatten, false)
    | _ =>
      let literal := format.takeWhile (· ≠ '%')
      run text n (format.drop literal.length) arguments (literal :: acc)

end Fill

/-- The text of arguments under a format, and whether it could be completed. -/
def filled (text : Value → Bytes) (format : Bytes) (arguments : List Value) : Bytes × Bool :=
  Fill.run text (format.length + 1) format arguments []

/-- The text of a number: all digits of a whole number, and what a format says of others. -/
def Amount.text (format : Bytes) (a : Amount) : Bytes :=
  match a.integral? with
  | some n => Bytes.ofInt n
  | none => (filled (fun _ => []) format [.number a]).1

def Value.asText (format : Bytes) : Value → Bytes
  | .unset => []
  | .number a => a.text format
  | .text w | .mixed w => w
  | .joined g => g.toBytes

/-- The order of two values: as numbers if both count as such, as texts otherwise. -/
def Value.compare (format : Bytes) (a b : Value) : Ordering :=
  match a.numeric?, b.numeric? with
  | some x, some y => x.compare y
  | _, _ =>
    let (u, v) := (a.asText format, b.asText format)
    if u < v then .lt else if v < u then .gt else .eq

end ValueInspector.Shell.Records
