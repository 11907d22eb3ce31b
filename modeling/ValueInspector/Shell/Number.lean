import ValueInspector.Decimal.Shortest
import ValueInspector.Shell.Arithmetic

/-! # Numbers in texts

Integers and numbers with fractions as they stand at the front of a text, and the texts that numbers
are given under a layout: sign, width, precision and padding. Numbers with fractions are binary, of a
size that their format fixes, and every text of one is made from its exact value.
-/
namespace ValueInspector.Shell

/-- The nearest natural number to a quotient, of two the even one. -/
def roundQuotient (a b : Nat) : Nat :=
  let (q, r) := (a / b, a % b)
  if b < 2 * r || (b = 2 * r && q % 2 = 1) then q + 1 else q

/-- A size of binary numbers. -/
structure BinaryFormat where
  /-- The bits of a mantissa. -/
  bits : Nat
  /-- The exponent of the last bit of the smallest numbers. -/
  least : Int
  /-- Numbers of this power of two on are infinite. -/
  limit : Int
  /-- How many bits the first digit has in hexadecimal form. -/
  leading : Nat
deriving Repr

namespace BinaryFormat

def double : BinaryFormat := ⟨53, -1074, 1024, 1⟩
def extended : BinaryFormat := ⟨64, -16445, 16384, 4⟩

end BinaryFormat

inductive Magnitude where
  | finite (x : Decimal.Binary)
  | infinite
  | notANumber
deriving DecidableEq, Repr

structure Quantity where
  negative : Bool
  magnitude : Magnitude
deriving DecidableEq, Repr

namespace Quantity

def zero : Quantity := ⟨false, .finite ⟨0, 0, false⟩⟩

/-- The number of a format nearest to a quotient, and whether it is out of the range of the format. -/
def ofQuotient (f : BinaryFormat) (negative : Bool) (a b : Nat) : Quantity × Bool :=
  if a = 0 then (⟨negative, .finite ⟨0, f.least, false⟩⟩, false)
  else
    let rough : Int := (a.log2 : Int) - (b.log2 : Int) - (f.bits : Int)
    let scaledTo (e : Int) : Nat :=
      roundQuotient (a * Nat.pow 2 (-e).toNat) (b * Nat.pow 2 e.toNat)
    let fits (e : Int) : Bool :=
      a * Nat.pow 2 (-e).toNat < Nat.pow 2 f.bits * (b * Nat.pow 2 e.toNat)
    let e := if fits rough then rough else if fits (rough + 1) then rough + 1 else rough + 2
    let e := max e f.least
    let m := scaledTo e
    let (m, e) := if m = Nat.pow 2 f.bits then (m / 2, e + 1) else (m, e)
    if f.limit < (m.log2 : Int) + 1 + e then (⟨negative, .infinite⟩, true)
    else
      let small := m < Nat.pow 2 (f.bits - 1)
      (⟨negative, .finite ⟨m, e, false⟩⟩, small && scaledTo e * b * Nat.pow 2 e.toNat ≠ a * Nat.pow 2 (-e).toNat)

/-- The number of a format nearest to `digits * 10 ^ power`. -/
def ofDecimal (f : BinaryFormat) (negative : Bool) (digits : Nat) (power : Int) : Quantity × Bool :=
  if digits = 0 then ofQuotient f negative 0 1
  else if 20000 < power then (⟨negative, .infinite⟩, true)
  else if power < -20000 && (digits.log2 : Int) < -power then
    (⟨negative, .finite ⟨0, f.least, false⟩⟩, true)
  else ofQuotient f negative (digits * Nat.pow 10 power.toNat) (Nat.pow 10 (-power).toNat)

/-- The number of a format nearest to `digits * 2 ^ power`. -/
def ofBinary (f : BinaryFormat) (negative : Bool) (digits : Nat) (power : Int) : Quantity × Bool :=
  if digits = 0 then ofQuotient f negative 0 1
  else if 40000 < power then (⟨negative, .infinite⟩, true)
  else if power < -40000 && (digits.log2 : Int) < -power / 2 then
    (⟨negative, .finite ⟨0, f.least, false⟩⟩, true)
  else ofQuotient f negative (digits * Nat.pow 2 power.toNat) (Nat.pow 2 (-power).toNat)

def ofFloat (x : Float) : Quantity :=
  let bits := x.toBits
  let negative := UInt64.toNat (bits >>> 63) = 1
  if x.isNaN then ⟨negative, .notANumber⟩
  else if x.isInf then ⟨negative, .infinite⟩
  else ⟨negative, .finite (Decimal.Binary.ofBits (bits &&& 0x7fffffffffffffff))⟩

/-- The double with the same value, if it is one. -/
def toFloat (q : Quantity) : Float :=
  let x := match q.magnitude with
    | .finite x => (Float.ofNat x.mantissa).scaleB x.exponent
    | .infinite => 1.0 / 0.0
    | .notANumber => 0.0 / 0.0
  if q.negative then -x else x

/-- The value as a fraction. -/
def fraction (x : Decimal.Binary) : Nat × Nat :=
  (x.mantissa * Nat.pow 2 x.exponent.toNat, Nat.pow 2 (-x.exponent).toNat)

/-- The value as a fraction with a sign; `none` if it is not finite. -/
def ratio? (q : Quantity) : Option (Int × Nat) :=
  match q.magnitude with
  | .finite x =>
    let (a, b) := fraction x
    some (if q.negative then -(a : Int) else a, b)
  | _ => none

/-- The number of a format nearest to a fraction. -/
def ofRatio (f : BinaryFormat) (a : Int) (b : Nat) : Quantity := (ofQuotient f (a < 0) a.natAbs b).1

end Quantity

/-! ## Reading -/

namespace Numeric

/-- Blanks and a sign at the front: whether it is a minus, and the rest. -/
def sign (cs : Bytes) : Bool × Bytes :=
  match cs.dropWhile Bytes.isSpace with
  | '-' :: rest => (true, rest)
  | '+' :: rest => (false, rest)
  | rest => (false, rest)

/-- An integer at the front and the rest; `none` without a digit. -/
def integer? (cs : Bytes) : Option (Int × Bytes) :=
  let (negative, cs) := sign cs
  if cs.head?.any Char.isDigit then
    let (n, rest) := Arithmetic.numeral cs
    some (if negative then -n else n, rest)
  else none

/-- A sign and digits after a letter that starts an exponent, and the rest; zero without them. -/
def exponent (letter : Char) (cs : Bytes) : Int × Bytes :=
  match cs with
  | e :: after =>
    if e.toLower = letter then
      let (minus, after) := match after with
        | '-' :: after => (true, after)
        | '+' :: after => (false, after)
        | _ => (false, after)
      let places := after.takeWhile Char.isDigit
      match Bytes.natural? places with
      | some n => (if minus then -n else n, after.drop places.length)
      | none => (0, cs)
    else (0, cs)
  | [] => (0, cs)

/-- Digits with at most one point: before it, after it, and the rest; `none` without a digit. -/
def digitsWithPoint? (base : Nat) (cs : Bytes) : Option (Bytes × Bytes × Bytes) :=
  let isDigit (c : Char) : Bool := (Text.digitValue? base c).isSome
  let whole := cs.takeWhile isDigit
  match cs.drop whole.length with
  | '.' :: after =>
    let fraction := after.takeWhile isDigit
    if whole.isEmpty && fraction.isEmpty then none
    else some (whole, fraction, after.drop fraction.length)
  | rest => if whole.isEmpty then none else some (whole, [], rest)

/-- What follows the letters of a NaN: a word in parentheses belongs to it. -/
def afterNaN (cs : Bytes) : Bytes :=
  match cs with
  | '(' :: rest =>
    let word := rest.takeWhile Bytes.isNameChar
    match rest.drop word.length with
    | ')' :: rest => rest
    | _ => cs
  | _ => cs

/-- A number in decimal or hexadecimal digits, an infinity or a NaN at the front, whether it was out of
range, and the rest; `none` without a number. -/
def quantity? (f : BinaryFormat) (cs : Bytes) : Option (Quantity × Bool × Bytes) :=
  let (negative, cs) := sign cs
  let lower := (cs.take 8).map Char.toLower
  if (bytes "infinity").isPrefixOf lower then some (⟨negative, .infinite⟩, false, cs.drop 8)
  else if (bytes "inf").isPrefixOf lower then some (⟨negative, .infinite⟩, false, cs.drop 3)
  else if (bytes "nan").isPrefixOf lower then
    some (⟨negative, .notANumber⟩, false, afterNaN (cs.drop 3))
  else
    match (if (bytes "0x").isPrefixOf lower then digitsWithPoint? 16 (cs.drop 2) else none) with
    | some (whole, fraction, rest) =>
      let n := (Text.readDigits? 16 (whole ++ fraction)).getD 0
      let (power, rest) := exponent 'p' rest
      let (q, outside) := Quantity.ofBinary f negative n (power - 4 * fraction.length)
      some (q, outside, rest)
    | none =>
      match digitsWithPoint? 10 cs with
      | some (whole, fraction, rest) =>
        let n := (Bytes.natural? (whole ++ fraction)).getD 0
        let (power, rest) := exponent 'e' rest
        let (q, outside) := Quantity.ofDecimal f negative n (power - fraction.length)
        some (q, outside, rest)
      | none => none

/-- A double at the front and the rest. -/
def float? (cs : Bytes) : Option (Float × Bytes) :=
  (quantity? .double cs).map fun (q, _, rest) => (q.toFloat, rest)

end Numeric

/-! ## Layouts -/

/-- How a number or text is laid out. -/
structure Layout where
  left : Bool
  plus : Bool
  space : Bool
  alternate : Bool
  zero : Bool
  width : Nat
  precision : Option Nat
deriving Repr

namespace Layout

def plain : Layout := ⟨false, false, false, false, false, 0, none⟩

def pad (l : Layout) (text : Bytes) : Bytes :=
  let fill := List.replicate (l.width - text.length) ' '
  if l.left then text ++ fill else fill ++ text

/-- Sign or base in front, and zeros between it and the digits if they fill the width. -/
def number (l : Layout) (zeros : Bool) (front digits : Bytes) : Bytes :=
  if zeros && !l.left then
    front ++ List.replicate (l.width - front.length - digits.length) '0' ++ digits
  else l.pad (front ++ digits)

def text (l : Layout) (cs : Bytes) : Bytes :=
  l.pad (match l.precision with
    | some p => cs.take p
    | none => cs)

def front (l : Layout) (negative : Bool) : Bytes :=
  if negative then ['-'] else if l.plus then ['+'] else if l.space then [' '] else []

def digitsOf (l : Layout) (digits : Bytes) : Bytes :=
  match l.precision with
  | none => digits
  | some p =>
    if p = 0 && digits = ['0'] then [] else List.replicate (p - digits.length) '0' ++ digits

def signed (l : Layout) (n : Int) : Bytes :=
  l.number (l.zero && l.precision.isNone) (l.front (n < 0)) (l.digitsOf (Bytes.ofNat n.natAbs))

def unsigned (l : Layout) (base : Nat) (upper : Bool) (n : Nat) : Bytes :=
  let digits := (Nat.toDigits base n).map fun c => if upper then c.toUpper else c
  let digits := l.digitsOf digits
  let digits := if l.alternate && base = 8 && digits.head? ≠ some '0' then '0' :: digits else digits
  let front :=
    if l.alternate && base = 16 && n ≠ 0 then ['0', if upper then 'X' else 'x'] else []
  l.number (l.zero && l.precision.isNone) front digits

/-- A binary number times a power of ten, rounded. -/
def scaled (x : Decimal.Binary) (power : Int) : Nat :=
  roundQuotient (x.mantissa * Nat.pow 2 x.exponent.toNat * Nat.pow 10 power.toNat)
    (Nat.pow 2 (-x.exponent).toNat * Nat.pow 10 (-power).toNat)

/-- Digits with a point before the last `places`. -/
def withPoint (l : Layout) (digits : Bytes) (places : Nat) : Bytes :=
  let digits := List.replicate (places + 1 - digits.length) '0' ++ digits
  let whole := digits.take (digits.length - places)
  if places = 0 then if l.alternate then whole ++ ['.'] else whole
  else whole ++ '.' :: digits.drop whole.length

def positional (l : Layout) (x : Decimal.Binary) (places : Nat) : Bytes :=
  l.withPoint (Bytes.ofNat (scaled x places)) places

/-- The digits of a number in exponent form, so many after the first, and the exponent. -/
def significant (x : Decimal.Binary) (places : Nat) : Bytes × Int :=
  if x.mantissa = 0 then (List.replicate (places + 1) '0', 0)
  else
    let e := x.scale - 1
    let n := scaled x (places - e)
    if Nat.pow 10 (places + 1) ≤ n then (Bytes.ofNat (n / 10), e + 1) else (Bytes.ofNat n, e)

def exponential (l : Layout) (digits : Bytes) (e : Int) : Bytes :=
  let exponent := Bytes.ofNat e.natAbs
  l.withPoint digits (digits.length - 1) ++ 'e' :: (if e < 0 then '-' else '+') ::
    (List.replicate (2 - exponent.length) '0' ++ exponent)

/-- Drops zeros at the end of a fraction. -/
def dropZeros (cs : Bytes) : Bytes :=
  if '.' ∈ cs then
    let kept := cs.reverse.dropWhile (· = '0')
    (if kept.head? = some '.' then kept.tail else kept).reverse
  else cs

/-- Positional form for exponents from -4 up to the precision, exponent form otherwise. -/
def general (l : Layout) (x : Decimal.Binary) (precision : Nat) : Bytes :=
  let p := max precision 1
  let (digits, e) := significant x (p - 1)
  if -4 ≤ e && e < p then
    let text := l.positional x (p - 1 - e).toNat
    if l.alternate then text else dropZeros text
  else
    let kept := if l.alternate then digits else
      match (digits.reverse.dropWhile (· = '0')).reverse with
      | [] => ['0']
      | kept => kept
    l.exponential kept e

/-- Hexadecimal digits and the exponent of a power of two. Without a precision, all digits up to the
last one that is not zero. -/
def hexadecimal (l : Layout) (f : BinaryFormat) (x : Decimal.Binary) : Bytes :=
  let places := (f.bits - f.leading) / 4
  let shift := if x.mantissa = 0 || x.exponent ≤ f.least then 0 else f.bits - 1 - x.mantissa.log2
  let m := x.mantissa * Nat.pow 2 shift
  let e : Int := if x.mantissa = 0 then 0 else x.exponent - shift + 4 * places
  let wanted := l.precision.getD places
  let digits := if wanted < places then
      Nat.toDigits 16 (roundQuotient m (Nat.pow 16 (places - wanted)))
    else Nat.toDigits 16 (m * Nat.pow 16 (wanted - places))
  let text := l.withPoint digits wanted
  let text := if l.precision.isNone && !l.alternate then dropZeros text else text
  text ++ 'p' :: (if e < 0 then '-' else '+') :: Bytes.ofNat e.natAbs

/-- A number in the form that a conversion letter names. -/
def quantity (l : Layout) (f : BinaryFormat) (letter : Char) (q : Quantity) : Bytes :=
  let front := l.front q.negative
  let upper (cs : Bytes) : Bytes := if letter.isUpper then cs.map Char.toUpper else cs
  match q.magnitude with
  | .notANumber => l.pad (upper (front ++ bytes "nan"))
  | .infinite => l.pad (upper (front ++ bytes "inf"))
  | .finite x =>
    let precision := l.precision.getD 6
    match letter.toLower with
    | 'a' => l.number l.zero (front ++ upper (bytes "0x")) (upper (l.hexadecimal f x))
    | 'f' => l.number l.zero front (l.positional x precision)
    | 'e' =>
      let (digits, e) := significant x precision
      l.number l.zero front (upper (l.exponential digits e))
    | _ => l.number l.zero front (upper (l.general x precision))

end Layout
end ValueInspector.Shell
