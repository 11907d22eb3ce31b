/-! # JSON values

Values of the data format, with numbers kept in the form in which they are written and members of an
object in the order in which they are written.
-/
namespace ValueInspector

/-- A number as written: sign, integer part, digits after the point (none: no point), exponent. -/
structure JsonNumber where
  negative : Bool
  whole : Nat
  fraction : List (Fin 10)
  exponent : Option Int
deriving DecidableEq, Repr

namespace JsonNumber

def ofNat (n : Nat) : JsonNumber := ⟨false, n, [], none⟩

/-- The natural number a numeral without sign, point and exponent stands for. -/
def natural? (n : JsonNumber) : Option Nat :=
  if n.negative || !n.fraction.isEmpty || n.exponent.isSome then none else some n.whole

/-- Takes decimal digits in front as long as the number they make fits a 64-bit word; the number, and
the digits that are left. -/
def absorb : Nat → List Nat → Nat × List Nat
  | n, [] => (n, [])
  | n, d :: ds => if 10 * n + d < UInt64.size then absorb (10 * n + d) ds else (n, d :: ds)

/-- The leading digits as a 64-bit word, and the power of ten it is scaled by. Digits of the integer
part beyond the word count as places, digits of the fraction beyond it are dropped. -/
def leading (n : JsonNumber) : Nat × Int :=
  let (w, beyond) := absorb 0 ((Nat.toDigits 10 n.whole).map fun c => c.toNat - '0'.toNat)
  let (w, dropped) := absorb w (n.fraction.map (·.val))
  (w, n.exponent.getD 0 + beyond.length - (n.fraction.length - dropped.length : Nat))

/-- The double nearest to a natural number, of two the one with the even mantissa. -/
def nearestDouble (n : Nat) : Nat :=
  let unit := Nat.pow 2 (n.log2 - 52)
  let (q, r) := (n / unit, n % unit)
  if unit < 2 * r || (unit = 2 * r && q % 2 = 1) then (q + 1) * unit else q * unit

/-- The least number that rounds to no finite double. -/
def beyondDoubles : Nat := Nat.pow 2 1024 - Nat.pow 2 970

/-- Whether a number is beyond the range of doubles. Its magnitude is taken to be the product of two
doubles, the one nearest to the leading word and the one nearest to its power of ten. -/
def overflows (n : JsonNumber) : Bool :=
  let (word, scale) := n.leading
  if word = 0 || scale < 0 then false
  else
    308 < scale ||
      decide (beyondDoubles ≤ nearestDouble word * nearestDouble (Nat.pow 10 scale.toNat))

end JsonNumber

inductive Json where
  | null
  | bool (b : Bool)
  | number (n : JsonNumber)
  | string (s : String)
  | array (items : List Json)
  | object (members : List (String × Json))
deriving Inhabited

namespace Json

def nat (n : Nat) : Json := .number (.ofNat n)

/-- The value of the first member of a name. -/
def get? : Json → String → Option Json
  | .object members, name => members.lookup name
  | _, _ => none

end Json
end ValueInspector
