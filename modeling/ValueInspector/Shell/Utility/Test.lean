import ValueInspector.Shell.Condition
import ValueInspector.Shell.Utility.Basic

/-! # Conditions as a program

The program `test` decides conditions by itself, with integers of any size. The number of words tells
what the first ones are: up to four of them have their meaning by their places.
-/
namespace ValueInspector.Shell.Utility

/-- A condition. Sides of a comparison may be lengths of texts. -/
inductive TestExpression where
  | text (w : Bytes)
  | unary (c : Char) (w : Bytes)
  | binary (c : Comparison) (lengths : Bool × Bool) (a b : Bytes)
  | not (e : TestExpression)
  | and (a b : TestExpression)
  | or (a b : TestExpression)

namespace TestExpression

/-- Why words are no condition. -/
inductive Fault where
  | missingArgument
  | unaryExpected (w : Bytes)
  | binaryExpected (w : Bytes)
  | closeExpected (found : Option Bytes)
  | lengthRefused (w : Bytes)
  | extra (w : Bytes)
  | notInteger (w : Bytes)

/-- The message for a condition whose last word is given. -/
def Fault.text (last : Bytes) : Fault → Bytes
  | .missingArgument => bytes "missing argument after " ++ quoted last
  | .unaryExpected w => quoted w ++ bytes ": unary operator expected"
  | .binaryExpected w => quoted w ++ bytes ": binary operator expected"
  | .closeExpected none => bytes "')' expected"
  | .closeExpected (some w) => bytes "')' expected, found " ++ w
  | .lengthRefused w => w ++ bytes " does not accept -l"
  | .extra w => bytes "extra argument " ++ quoted w
  | .notInteger w => bytes "invalid integer " ++ quoted w

abbrev Reader := List Bytes → Except Fault (TestExpression × List Bytes)

def comparison? (w : Bytes) : Option Comparison :=
  if w = bytes "==" then some .same
  else if w = ['<'] || w = ['>'] then none
  else List.lookup (String.ofList w) Condition.comparisons

def isBinary (ws : List Bytes) : Bool := (ws[1]?.bind comparison?).isSome

def isLength (w? : Option Bytes) : Bool := w? = some ['-', 'l']

def oneWord : Reader
  | [] => .error .missingArgument
  | w :: rest => .ok (.text w, rest)

def unaryLetters : List Char := "bcdefgGhkLnNOprsStuwxz".toList

def unaryWords : Reader
  | ['-', c] :: rest =>
    if c ∉ unaryLetters then .error (.unaryExpected ['-', c])
    else
      match rest with
      | w :: rest => .ok (.unary c w, rest)
      | [] => .error .missingArgument
  | _ => .error .missingArgument

/-- A comparison. A side after `-l` is the length of a text. -/
def binaryWords (leftLength : Bool) (ws : List Bytes) : Except Fault (TestExpression × List Bytes) :=
  match (if leftLength then ws.drop 1 else ws) with
  | a :: op :: rest =>
    let rightLength := isLength rest.head? && 2 ≤ rest.length
    match comparison? op, (if rightLength then rest.drop 1 else rest) with
    | some c, b :: rest =>
      if (leftLength || rightLength) && c ∈ [Comparison.newer, .older, .sameFile] then
        .error (.lengthRefused op)
      else .ok (.binary c (leftLength, rightLength) a b, rest)
    | none, _ => .error (.binaryExpected op)
    | some _, [] => .error .missingArgument
  | _ => .error .missingArgument

def twoWords : Reader
  | ['!'] :: rest => do
    let (e, rest) ← oneWord rest
    return (.not e, rest)
  | ['-', c] :: rest => unaryWords (['-', c] :: rest)
  | _ => .error .missingArgument

mutual

/-- A condition of so many words. -/
def ofCount : Nat → Nat → Reader
  | 0, _, _ => .error .missingArgument
  | n + 1, count, ws =>
    match count with
    | 1 => oneWord ws
    | 2 => twoWords ws
    | 3 => threeWords n ws
    | 4 =>
      if ws.head? = some ['!'] then do
        let (e, rest) ← threeWords n (ws.drop 1)
        return (.not e, rest)
      else if ws.head? = some ['('] && ws[3]? = some [')'] then do
        let (e, rest) ← twoWords (ws.drop 1)
        return (e, rest.drop 1)
      else disjunction n ws
    | _ => disjunction n ws

def threeWords : Nat → Reader
  | 0, _ => .error .missingArgument
  | n + 1, ws =>
    if isBinary ws then binaryWords false ws
    else if ws.head? = some ['!'] then do
      let (e, rest) ← twoWords (ws.drop 1)
      return (.not e, rest)
    else if ws.head? = some ['('] && ws[2]? = some [')'] then do
      let (e, rest) ← oneWord (ws.drop 1)
      return (e, rest.drop 1)
    else if ws[1]? = some (bytes "-a") || ws[1]? = some (bytes "-o") then disjunction n ws
    else .error (.binaryExpected (ws[1]?.getD []))

def disjunction : Nat → Reader
  | 0, _ => .error .missingArgument
  | n + 1, ws => do
    let (a, rest) ← conjunction n ws
    match rest with
    | ['-', 'o'] :: rest =>
      let (b, rest) ← disjunction n rest
      return (.or a b, rest)
    | _ => return (a, rest)

def conjunction : Nat → Reader
  | 0, _ => .error .missingArgument
  | n + 1, ws => do
    let (a, rest) ← term n ws
    match rest with
    | ['-', 'a'] :: rest =>
      let (b, rest) ← conjunction n rest
      return (.and a b, rest)
    | _ => return (a, rest)

def term : Nat → Reader
  | 0, _ => .error .missingArgument
  | n + 1, ws =>
    match ws with
    | [] => .error .missingArgument
    | ['!'] :: rest => do
      let (e, rest) ← term n rest
      return (.not e, rest)
    | ['('] :: rest => do
      if rest.isEmpty then throw .missingArgument
      else
        let inside := ((rest.drop 1).takeWhile (· ≠ [')'])).length + 1
        let count := if inside ≤ 4 then inside else rest.length
        let (e, rest) ← ofCount n count rest
        match rest with
        | [')'] :: rest => return (e, rest)
        | found => throw (.closeExpected found.head?)
    | w :: _ =>
      if isLength (some w) && 4 ≤ ws.length && isBinary (ws.drop 1) then binaryWords true ws
      else if 3 ≤ ws.length && isBinary ws then binaryWords false ws
      else
        match w with
        | ['-', _] => unaryWords ws
        | _ => oneWord ws

end

def ofWords (ws : List Bytes) : Except Fault TestExpression := do
  let (e, rest) ← ofCount (8 * (ws.length + 2)) ws.length ws
  match rest with
  | [] => return e
  | w :: _ => throw (.extra w)

/-! ## Deciding -/

/-- A decimal integer of any size, with blanks around it. -/
def integer (w : Bytes) : Except Fault Int :=
  let text := w.dropWhile Bytes.isBlank
  let (negative, text) : Bool × Bytes := match text with
    | '-' :: rest => (true, rest)
    | '+' :: rest => (false, rest)
    | _ => (false, text)
  let digits := text.takeWhile Char.isDigit
  match Bytes.natural? digits, (text.drop digits.length).all Bytes.isBlank with
  | some n, true => .ok (if negative then -(n : Int) else n)
  | _, _ => .error (.notInteger w)

def inspect? (i : Invocation) (follow : Bool) (name : Bytes) : Task (Option FileInfo) := do
  if name.isEmpty then return none
  else
    match ← Task.call (.inspect follow (pathOf i name)) with
    | .ok info => return some info
    | .error _ => return none

def compareNumbers (c : Comparison) (x y : Int) : Bool :=
  match c with
  | .equal => x = y
  | .unequal => x ≠ y
  | .greater => y < x
  | .greaterEqual => y ≤ x
  | .less => x < y
  | _ => x ≤ y

/-- Whether a condition holds. Both sides of an operator are looked at. -/
def holds (i : Invocation) : TestExpression → Task (Except Fault Bool)
  | .text w => return .ok !w.isEmpty
  | .unary 'n' w => return .ok !w.isEmpty
  | .unary 'z' w => return .ok w.isEmpty
  | .unary 't' w => return (integer w).map fun _ => false
  | .unary c w => do return .ok ((← inspect? i (Condition.follows c) w).any (Condition.holdsOf c))
  | .binary c (left, right) a b => do
    match c with
    | .same => return .ok (a = b)
    | .different => return .ok (a ≠ b)
    | .newer | .older | .sameFile =>
      match ← inspect? i true a, ← inspect? i true b with
      | some x, some y =>
        return .ok (if c = .newer then y.changed < x.changed
          else if c = .older then x.changed < y.changed
          else x.id = y.id && x.kind = y.kind)
      | some _, none => return .ok (c = .newer)
      | none, some _ => return .ok (c = .older)
      | none, none => return .ok false
    | c =>
      let side (length : Bool) (w : Bytes) : Except Fault Int := if length then .ok w.length else integer w
      return do
        let x ← side left a
        let y ← side right b
        return compareNumbers c x y
  | .not e => do return (← holds i e).map fun b => !b
  | .and a b => do
    match ← holds i a, ← holds i b with
    | .ok x, .ok y => return .ok (x && y)
    | .error f, _ | _, .error f => return .error f
  | .or a b => do
    match ← holds i a, ← holds i b with
    | .ok x, .ok y => return .ok (x || y)
    | .error f, _ | _, .error f => return .error f

end TestExpression

/-- Decides a condition. Under its second name it wants a closing bracket. -/
def test (bracket : Bool) : Utility := fun i => do
  let words := operands i
  if bracket && words = [bytes "--help"] then put i (bytes "Usage: test EXPRESSION\n")
  else if bracket && words = [bytes "--version"] then put i (bytes (versionOf "[") ++ ['\n'])
  else if bracket && words.getLast? ≠ some [']'] then refuse i (bytes "missing ']'") 2
  else
    let words := if bracket then words.dropLast else words
    if words.isEmpty then return 1
    else
      let refused (f : TestExpression.Fault) : Task Nat := refuse i (f.text (words.getLast?.getD [])) 2
      match TestExpression.ofWords words with
      | .error f => refused f
      | .ok e =>
        match ← e.holds i with
        | .error f => refused f
        | .ok b => return if b then 0 else 1

end ValueInspector.Shell.Utility
