/-! # Shortest decimal text of a double

A finite double is the middle of an interval of reals that round to it. Its text has the fewest
digits of any decimal in that interval, and among those the digits nearest to the value; of two
equally near ones the larger. All is decided by exact arithmetic on the bits. The layout is always
positional: no exponent is ever written, and an integral value has no point.
-/
namespace ValueInspector.Decimal

/-- A finite non-negative double, `mantissa * 2 ^ exponent`; `narrow` when the next double below is
half as far away as the next one above. -/
structure Binary where
  mantissa : Nat
  exponent : Int
  narrow : Bool
deriving DecidableEq, Repr

/-- The leading bit of a normal mantissa, which is not stored: 2 to the 52. -/
def hiddenBit : Nat := 0x10000000000000

/-- Reads the exponent and fraction fields. Infinities and NaN are not finite doubles. -/
def Binary.ofBits (bits : UInt64) : Binary :=
  let field := bits.toNat / hiddenBit % 0x800
  let fraction := bits.toNat % hiddenBit
  if field = 0 then ⟨fraction, -1074, false⟩
  else ⟨hiddenBit + fraction, Int.ofNat field - 1075, fraction = 0 && 1 < field⟩

/-- The decimal `digits * 10 ^ exponent`. -/
structure Numeral where
  digits : Nat
  exponent : Int
deriving DecidableEq, Repr

/-- Compares `a * 10 ^ i` with `b * 2 ^ j`. -/
def compareScaled (a : Nat) (i : Int) (b : Nat) (j : Int) : Ordering :=
  compare (a * Nat.pow 10 i.toNat * Nat.pow 2 (-j).toNat)
    (b * Nat.pow 2 j.toNat * Nat.pow 10 (-i).toNat)

/-- Whether a decimal lies among the reals that round to the double: between the midpoints to its
two neighbours, which count themselves when the mantissa is even. -/
def Binary.readsBack (x : Binary) (d : Numeral) : Bool :=
  let lower := if x.narrow then 4 * x.mantissa - 1 else 4 * x.mantissa - 2
  let upper := 4 * x.mantissa + 2
  let below := compareScaled d.digits d.exponent lower (x.exponent - 2)
  let above := compareScaled d.digits d.exponent upper (x.exponent - 2)
  let even := x.mantissa % 2 = 0
  (below = .gt || even && below = .eq) && (above = .lt || even && above = .eq)

/-- The largest multiple of `10 ^ e` not above the double, as the factor. -/
def Binary.floorAt (x : Binary) (e : Int) : Nat :=
  x.mantissa * Nat.pow 2 x.exponent.toNat * Nat.pow 10 (-e).toNat /
    (Nat.pow 2 (-x.exponent).toNat * Nat.pow 10 e.toNat)

/-- The least `k` with the double below `10 ^ k`, searched upward from `start`. -/
def Binary.scaleFrom (x : Binary) : Nat → Int → Int
  | 0, start => start
  | steps + 1, start =>
    if compareScaled 1 start x.mantissa x.exponent = .gt then start
    else x.scaleFrom steps (start + 1)

/-- The scale of a positive double: `10 ^ (k - 1) ≤ x < 10 ^ k`. The search starts at most a few
steps below it. -/
def Binary.scale (x : Binary) : Int :=
  let log := (x.mantissa.log2 : Int) + x.exponent
  x.scaleFrom 8 (Int.fdiv (log * 30103) 100000 - 2)

/-- Of the two grid points around the double, the one to print, if any reads back. -/
def Binary.pick? (x : Binary) (e : Int) : Option Numeral :=
  let low := x.floorAt e
  let lowHit := x.readsBack ⟨low, e⟩
  let highHit := x.readsBack ⟨low + 1, e⟩
  match lowHit, highHit with
  | true, true =>
    if compareScaled (2 * low + 1) e (2 * x.mantissa) x.exponent = .gt then some ⟨low, e⟩
    else some ⟨low + 1, e⟩
  | true, false => some ⟨low, e⟩
  | false, true => some ⟨low + 1, e⟩
  | false, false => none

/-- The exact value, which always reads back. -/
def Binary.exact (x : Binary) : Numeral :=
  ⟨x.mantissa * Nat.pow 2 x.exponent.toNat * Nat.pow 5 (-x.exponent).toNat, min x.exponent 0⟩

/-- The shortest decimal of a positive double: grids of one, two, … seventeen digits are tried. -/
def Binary.shortest (x : Binary) : Numeral :=
  let k := x.scale
  ((List.range 17).findSome? fun n => x.pick? (k - Int.ofNat (n + 1))).getD x.exact

/-- Positional layout: zeros fill the places between the digits and the point. -/
def Numeral.layout (d : Numeral) : List Char :=
  let text := Nat.toDigits 10 d.digits
  if 0 ≤ d.exponent then text ++ List.replicate d.exponent.toNat '0'
  else
    let places := (-d.exponent).toNat
    let padded := List.replicate (places + 1 - text.length) '0' ++ text
    let whole := padded.take (padded.length - places)
    let fraction := ((padded.drop (padded.length - places)).reverse.dropWhile (· = '0')).reverse
    if fraction.isEmpty then whole else whole ++ '.' :: fraction

/-- The text of the double with the given bits. NaN has one text, whatever its sign and payload. -/
def textOfBits (bits : UInt64) : String :=
  let sign := 0x8000000000000000
  let magnitude := bits.toNat % sign
  let infinite := 0x7FF * hiddenBit
  if infinite < magnitude then "NaN"
  else
    let body :=
      if magnitude = infinite then "inf".toList
      else if magnitude = 0 then ['0']
      else (Binary.ofBits bits).shortest.layout
    String.ofList (if sign ≤ bits.toNat then '-' :: body else body)

end ValueInspector.Decimal
