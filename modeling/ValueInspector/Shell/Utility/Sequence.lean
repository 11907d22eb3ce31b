import ValueInspector.Shell.Number
import ValueInspector.Shell.Utility.Basic

/-! # Sequences of numbers

`seq` counts from a number to another one by steps. Whole numbers are exact; others are rounded to the
format of extended binary numbers after each operation, as the texts that are shown depend on it.
-/
namespace ValueInspector.Shell

namespace Quantity

/-- Applies an operation on fractions; what is not finite stays. -/
def combine (f : BinaryFormat) (op : Int × Nat → Int × Nat → Int × Nat) (p q : Quantity) : Quantity :=
  match p.ratio?, q.ratio? with
  | some x, some y =>
    let (a, b) := op x y
    ofRatio f a b
  | none, _ => p
  | _, none => q

def plus (f : BinaryFormat) : Quantity → Quantity → Quantity :=
  combine f fun x y => (x.1 * y.2 + y.1 * x.2, x.2 * y.2)

def times (f : BinaryFormat) : Quantity → Quantity → Quantity :=
  combine f fun x y => (x.1 * y.1, x.2 * y.2)

/-- Whether one number is less than another. -/
def isLess (p q : Quantity) : Bool :=
  match p.magnitude, q.magnitude with
  | .notANumber, _ | _, .notANumber => false
  | .infinite, .infinite => p.negative && !q.negative
  | .infinite, _ => p.negative
  | _, .infinite => !q.negative
  | .finite _, .finite _ =>
    match p.ratio?, q.ratio? with
    | some x, some y => x.1 * y.2 < y.1 * x.2
    | _, _ => false

end Quantity

namespace Utility

/-- Writes pieces, one after the other, in large parts. -/
def putPieces {σ : Type} (i : Invocation) (next : σ → Option (Bytes × σ)) :
    Nat → σ → List Bytes → Nat → Task Nat
  | 0, _, acc, _ => put i acc.reverse.flatten
  | n + 1, s, acc, size =>
    match next s with
    | none => put i acc.reverse.flatten
    | some (piece, s) =>
      if size < 4096 then putPieces i next n s (piece :: acc) (size + piece.length)
      else do
        let status ← put i (piece :: acc).reverse.flatten
        if status ≠ 0 then return status else putPieces i next n s [] 0

/-! ## Operands -/

/-- An end or a step of a sequence, with the width and the number of places that its text has. -/
structure SequenceNumber where
  value : Quantity
  width : Int
  /-- Without one, all places that the value has are shown. -/
  places : Option Nat

namespace SequenceNumber

def one : SequenceNumber := ⟨(Quantity.ofQuotient .extended false 1 1).1, 1, some 0⟩

/-- Width and places of a decimal number. -/
def measure (text : Bytes) : Int × Nat :=
  let whole := text.takeWhile fun c => c ≠ '.' && c.toLower ≠ 'e'
  let afterWhole := text.drop whole.length
  let hasPoint := afterWhole.head? = some '.'
  let fraction := if hasPoint then (afterWhole.drop 1).takeWhile fun c => c.toLower ≠ 'e' else []
  let tail := if hasPoint then afterWhole.drop (fraction.length + 1) else afterWhole
  let digitBefore := whole.getLast?.any Char.isDigit
  let pointWidth : Int :=
    if !hasPoint then 0 else if fraction.isEmpty then -1 else if digitBefore then 0 else 1
  let width : Int := text.length + pointWidth
  match tail with
  | [] => (width, fraction.length)
  | _ :: power =>
    let e : Int := ((Numeric.integer? power).map (·.1)).getD 0
    let width := width - tail.length
    if e < 0 then
      let extra : Int := if hasPoint then (if fraction.isEmpty then 1 else 0) else 1
      (width + extra + e.natAbs, fraction.length + e.natAbs)
    else
      let places := fraction.length - min fraction.length e.natAbs
      let extra : Int := if hasPoint && places = 0 && !fraction.isEmpty then -1 else 0
      (width + extra + (e.natAbs - min fraction.length e.natAbs : Nat), places)

/-- Reads an operand. -/
def ofText (text : Bytes) : Except Bytes SequenceNumber :=
  match Numeric.quantity? .extended text with
  | none => .error (bytes "invalid floating point argument: " ++ quoted text)
  | some (q, outside, rest) =>
    if !rest.isEmpty || (outside && q.magnitude = .infinite) then
      .error (bytes "invalid floating point argument: " ++ quoted text)
    else if q.magnitude = .notANumber then
      .error (bytes "invalid 'not-a-number' argument: " ++ quoted text)
    else
      let shown := text.dropWhile fun c => Bytes.isSpace c || c = '+'
      let isHex := shown.any fun c => c.toLower = 'x'
      if q.magnitude = .infinite || isHex then
        .ok ⟨q, 0, if '.' ∈ shown || 'p' ∈ shown then none else some 0⟩
      else
        let (width, places) := measure shown
        .ok ⟨q, width, some places⟩

/-- The value if it is a whole number and shown as one. -/
def whole? (n : SequenceNumber) : Option Int :=
  match n.value.ratio?, n.places with
  | some (a, b), some 0 => if a % b = 0 && !(a = 0 && n.value.negative) then some (a / b) else none
  | _, _ => none

end SequenceNumber

/-! ## Formats -/

/-- How each number is written. -/
structure SequenceFormat where
  before : Bytes
  layout : Layout
  letter : Char
  after : Bytes

namespace SequenceFormat

def text (f : SequenceFormat) (q : Quantity) : Bytes := f.layout.quantity .extended f.letter q

/-- Text up to a percent sign that stands for a number. Two of them stand for one. -/
def literal : Bytes → Bytes → Bytes × Option Bytes
  | acc, '%' :: '%' :: rest => literal ('%' :: acc) rest
  | acc, '%' :: rest => (acc.reverse, some rest)
  | acc, c :: rest => literal (c :: acc) rest
  | acc, [] => (acc.reverse, none)

def ofText (format : Bytes) : Except Bytes SequenceFormat := do
  let named (what : String) : Bytes := bytes "format " ++ quoted format ++ bytes what
  let (before, rest?) := literal [] format
  match rest? with
  | none => throw (named " has no % directive")
  | some rest =>
    let flags := rest.takeWhile (· ∈ "-+#0 '".toList)
    let rest := rest.drop flags.length
    let width := rest.takeWhile Char.isDigit
    let rest := rest.drop width.length
    let (precision, rest) := match rest with
      | '.' :: rest =>
        let digits := rest.takeWhile Char.isDigit
        (some ((Bytes.natural? digits).getD 0), rest.drop digits.length)
      | _ => (none, rest)
    let rest := if rest.head? = some 'L' then rest.drop 1 else rest
    match rest with
    | [] => throw (named " ends in %")
    | letter :: rest =>
      if letter ∉ "efgaEFGA".toList then throw (named " has unknown %" ++ letter :: bytes " directive")
      else
        let (after, more) := literal [] rest
        if more.isSome then throw (named " has too many % directives")
        else
          let layout : Layout :=
            ⟨'-' ∈ flags, '+' ∈ flags, ' ' ∈ flags, '#' ∈ flags, '0' ∈ flags,
              (Bytes.natural? width).getD 0, precision⟩
          return ⟨before, layout, letter, after⟩

/-- A width that suits the ends of a sequence. -/
def equalWidth (first step last : SequenceNumber) : Option Nat := do
  let p1 ← first.places
  let p2 ← step.places
  let p3 ← last.places
  let places := max p1 p2
  let point (p : Nat) : Int :=
    if p = 0 && places ≠ 0 then 1 else if p ≠ 0 && places = 0 then -1 else 0
  let w1 := first.width + (places - p1 : Int) + (if p1 = 0 then point p1 else 0)
  let w3 := last.width + (places - p3 : Int) + point p3
  return (max w1 w3).toNat

/-- The form that suits the ends and the step of a sequence. -/
def default (equal : Bool) (first step last : SequenceNumber) : SequenceFormat :=
  match first.places, step.places, last.places with
  | some p1, some p2, some _ =>
    let places := max p1 p2
    let width := if equal then (equalWidth first step last).getD 0 else 0
    ⟨[], ⟨false, false, false, false, equal, width, some places⟩, 'f', []⟩
  | _, _, _ => ⟨[], .plain, 'g', []⟩

end SequenceFormat

/-! ## The sequence -/

/-- What is to come of a sequence of numbers with fractions. -/
structure SequenceState where
  count : Nat
  value : Quantity
  begun : Bool
  /-- This is the last one. -/
  final : Bool
  ended : Bool

/-- The next number. One that is only just past the end counts if it is written like the end. -/
def nextNumber (f : SequenceFormat) (first step last : Quantity) (separator : Bytes) (s : SequenceState) :
    Option (Bytes × SequenceState) :=
  if s.ended then none
  else
    let text := f.text s.value
    let piece := (if s.begun then separator else []) ++ f.before ++ text ++ f.after
    if s.final then some (piece, { s with ended := true })
    else
      let count := (Quantity.ofQuotient .extended false s.count 1).1
      let value := Quantity.plus .extended first (Quantity.times .extended count step)
      let outside := if step.negative then value.isLess last else last.isLess value
      if outside then
        let shown := f.text value
        let same := match Numeric.quantity? .extended shown with
          | some (q, _, []) => decide (q.ratio? = last.ratio?) || (!q.isLess last && !last.isLess q)
          | _ => false
        if same && shown ≠ text then some (piece, ⟨s.count + 1, value, true, true, false⟩)
        else some (piece, { s with ended := true })
      else some (piece, ⟨s.count + 1, value, true, false, false⟩)

/-- The next whole number. -/
def nextWhole (width : Nat) (step : Int) (last : Option Int) (separator : Bytes) (s : Int × Bool) :
    Option (Bytes × Int × Bool) :=
  let outside := last.any fun l => if step < 0 then s.1 < l else l < s.1
  if outside then none
  else
    let layout : Layout := ⟨false, false, false, false, true, width, none⟩
    some ((if s.2 then separator else []) ++ layout.signed s.1, (s.1 + step, true))

/-- Whether a number is beyond the last one at once. -/
def isEmptySequence (first step last : SequenceNumber) : Bool :=
  if step.value.negative then first.value.isLess last.value else last.value.isLess first.value

/-- Takes options from the front of words; a word that may be a negative number is none. -/
def sequenceOptions (words : List Bytes) : List Bytes × List Bytes :=
  let isNumber (w : Bytes) : Bool := match w with
    | '-' :: c :: _ => c = '.' || c.isDigit
    | _ => false
  let rec front : List Bytes → List Bytes → List Bytes × List Bytes
    | acc, [] => (acc.reverse, [])
    | acc, w :: rest =>
      if isNumber w then (acc.reverse, w :: rest)
      else
        match w, rest with
        | ['-', 's'], v :: rest | ['-', 'f'], v :: rest => front (v :: w :: acc) rest
        | ['-', '-'], rest => ((w :: acc).reverse, rest)
        | '-' :: _ :: _, rest => front (w :: acc) rest
        | _, rest => (acc.reverse, w :: rest)
  front [] words

def seq : Utility := fun i =>
  let (front, rest) := sequenceOptions (operands i)
  let manual : Manual :=
    { usage := " [OPTION]... LAST", version := versionOf "seq"
      options := ["f,format=", "s,separator=", "w,equal-width"], mixed := false, trouble := 1 }
  withOptions manual (run rest) { i with arguments := i.arguments.take 1 ++ front }
where
  run (rest : List Bytes) (o : Options) (early : List Bytes) (i : Invocation) : Task Nat :=
    let words := early ++ rest
    let numbers := words.mapM SequenceNumber.ofText
    match words.length, (o.value? "f").mapM SequenceFormat.ofText with
    | 0, _ => refuseUse i (bytes "missing operand") 1
    | _, .error message => refuse i message 1
    | _, .ok format =>
      match words[3]?, numbers with
      | some w, _ => refuseUse i (bytes "extra operand " ++ quoted w) 1
      | none, .error message => refuseUse i message 1
      | none, .ok numbers =>
        if format.isSome && o.has "w" then
          refuseUse i (bytes "format string may not be specified when printing equal width strings") 1
        else
          let (first, step, last) := match numbers with
            | [l] => (SequenceNumber.one, SequenceNumber.one, l)
            | [f, l] => (f, .one, l)
            | [f, s, l] => (f, s, l)
            | _ => (.one, .one, .one)
          if step.value.ratio?.any (·.1 = 0) then
            refuseUse i (bytes "invalid Zero increment value: " ++ quoted (words[1]?.getD [])) 1
          else count o format first step last words i
  count (o : Options) (format : Option SequenceFormat) (first step last : SequenceNumber)
      (words : List Bytes) (i : Invocation) : Task Nat := do
    let separator := (o.value? "s").getD ['\n']
    let digits := words.all fun w => !w.isEmpty && w.all Char.isDigit
    let wholes : Option (Int × Int × Option Int) := do
      if format.isSome then failure
      else if digits && !o.has "w" && words.length < 3 then
        let l ← words.getLast?.bind Bytes.natural?
        let f ← if words.length = 2 then words.head?.bind Bytes.natural? else some 1
        return (f, 1, some l)
      else
        let f ← first.whole?
        let s ← step.whole?
        if last.value.magnitude = .infinite then
          if last.value.negative = (s < 0) then return (f, s, none) else failure
        else return (f, s, some (← last.whole?))
    match wholes with
    | some (f, s, l) =>
      if (l.any fun l => if s < 0 then f < l else l < f) then return 0
      else
        let width := if o.has "w" then (SequenceFormat.equalWidth first step last).getD 0 else 0
        let status ← putPieces i (nextWhole width s l separator) Sh.repeats (f, false) [] 0
        return max status (← put i ['\n'])
    | none =>
      if isEmptySequence first step last then return 0
      else
        let format := format.getD (.default (o.has "w") first step last)
        let next := nextNumber format first.value step.value last.value separator
        let status ← putPieces i next Sh.repeats ⟨1, first.value, false, false, false⟩ [] 0
        return max status (← put i ['\n'])

end Utility
end ValueInspector.Shell
