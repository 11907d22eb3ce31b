import ValueInspector.Shell.Format
import ValueInspector.Shell.State

/-! # Conditions

The language of tests: operands with operators before or between them, negation, conjunction,
disjunction and parentheses. Up to four words are told apart by their number first.
-/
namespace ValueInspector.Shell

/-- A test of two operands. -/
inductive Comparison where
  | same
  | different
  | before
  | after
  | equal
  | unequal
  | greater
  | greaterEqual
  | less
  | lessEqual
  | newer
  | older
  | sameFile
deriving DecidableEq, Repr

inductive ConditionWord where
  | unary (c : Char)
  | binary (c : Comparison)
  | not
  | and
  | or
  | left
  | right
  | operand
  | none
deriving DecidableEq, Repr

namespace Condition

def comparisons : List (String × Comparison) :=
  [("=", .same), ("!=", .different), ("<", .before), (">", .after), ("-eq", .equal),
   ("-ne", .unequal), ("-gt", .greater), ("-ge", .greaterEqual), ("-lt", .less),
   ("-le", .lessEqual), ("-nt", .newer), ("-ot", .older), ("-ef", .sameFile)]

def unaryLetters : List Char := "rwxefdcbpugkstznhOGLS".toList

def operatorOf? (w : Bytes) : Option ConditionWord :=
  match List.lookup (String.ofList w) comparisons with
  | some c => some (.binary c)
  | none =>
    match w with
    | ['!'] => some .not
    | ['('] => some .left
    | [')'] => some .right
    | ['-', 'a'] => some .and
    | ['-', 'o'] => some .or
    | ['-', c] => if c ∈ unaryLetters then some (.unary c) else none
    | _ => none

def isBinary (w : Bytes) : Bool :=
  match operatorOf? w with
  | some (.binary _) => true
  | _ => false

/-- What the first word is where it stands: an operator with nothing to work on is an operand. -/
def classify (ws : List Bytes) : ConditionWord :=
  match ws with
  | [] => .none
  | w :: rest =>
    match operatorOf? w with
    | none => .operand
    | some (.unary c) =>
      match rest with
      | [] => .operand
      | [_] => .unary c
      | next :: _ => if isBinary next then .operand else .unary c
    | some .left => if rest.isEmpty then .operand else .left
    | some op => op

open Sh

def unexpected {α : Type} (w : Bytes) : Sh α :=
  fail ((if w.isEmpty then [] else w ++ bytes ": ") ++ bytes "unexpected operator")

def missingArgument {α : Type} (w : Bytes) : Sh α := fail (w ++ bytes ": argument expected")

/-- A decimal integer with blanks around it. -/
def integer (w : Bytes) : Sh Int := do
  let (negative, rest) := Numeric.sign w
  let digits := rest.takeWhile Char.isDigit
  match Bytes.natural? digits with
  | some n =>
    let value : Int := if negative then -n else n
    if (rest.drop digits.length).all Bytes.isSpace && Arithmetic.leastWord ≤ value &&
        value ≤ Arithmetic.greatestWord then return value
    else fail (bytes "Illegal number: " ++ w)
  | none => fail (bytes "Illegal number: " ++ w)

/-- A test of what is at a path, by its letter. -/
def holdsOf (c : Char) (info : FileInfo) : Bool :=
  match c with
  | 'd' => info.isDirectory
  | 'f' => info.kind = .regular
  | 'c' => info.kind = .device
  | 'p' => info.kind = .pipe
  | 'h' | 'L' => info.kind = .link
  | 's' => 0 < info.size
  | 'x' => info.isDirectory || info.isExecutable
  | 'u' => info.mode / 2048 % 2 = 1
  | 'g' => info.mode / 1024 % 2 = 1
  | 'k' => info.mode / 512 % 2 = 1
  | 'e' | 'r' | 'w' | 'O' | 'G' => true
  | _ => false

/-- Whether a test looks at what a link leads to. -/
def follows (c : Char) : Bool := c ≠ 'h' && c ≠ 'L'

def fileTest (c : Char) (w : Bytes) : Sh Bool := do
  match ← system (.inspect (follows c) (← path w)) with
  | .error _ => return false
  | .ok info => return holdsOf c info

def unaryTest (c : Char) (w : Bytes) : Sh Bool := do
  match c with
  | 'z' => return w.isEmpty
  | 'n' => return !w.isEmpty
  | 't' =>
    let _ ← integer w
    return false
  | _ => fileTest c w

def compare (c : Comparison) (a b : Bytes) : Sh Bool := do
  match c with
  | .same => return a = b
  | .different => return a ≠ b
  | .before => return a < b
  | .after => return b < a
  | .newer | .older | .sameFile =>
    match ← inspect a, ← inspect b with
    | some x, some y =>
      return if c = .newer then y.changed < x.changed
        else if c = .older then x.changed < y.changed
        else x.id = y.id && x.kind = y.kind
    | _, _ => return false
  | c =>
    let x ← integer a
    let y ← integer b
    match c with
    | .equal => return x = y
    | .unequal => return x ≠ y
    | .greater => return y < x
    | .greaterEqual => return y ≤ x
    | .less => return x < y
    | _ => return x ≤ y

mutual

/-- Disjunctions of words, of which the first was classified. The words that are left start with the
last one that was used. -/
def disjunction : Nat → ConditionWord → List Bytes → Sh (Bool × List Bytes)
  | 0, _, _ => endless
  | n + 1, first, ws => do
    let (a, ws) ← conjunction n first ws
    match classify (ws.drop 1) with
    | .or =>
      let ws := ws.drop 2
      let (b, ws) ← disjunction n (classify ws) ws
      return (a || b, ws)
    | _ => return (a, ws)

def conjunction : Nat → ConditionWord → List Bytes → Sh (Bool × List Bytes)
  | 0, _, _ => endless
  | n + 1, first, ws => do
    let (a, ws) ← negation n first ws
    match classify (ws.drop 1) with
    | .and =>
      let ws := ws.drop 2
      let (b, ws) ← conjunction n (classify ws) ws
      return (a && b, ws)
    | _ => return (a, ws)

def negation : Nat → ConditionWord → List Bytes → Sh (Bool × List Bytes)
  | 0, _, _ => endless
  | n + 1, first, ws => do
    match first with
    | .not =>
      let next := classify (ws.drop 1)
      let (a, ws) ← negation n next (if next = .none then ws else ws.drop 1)
      return (!a, ws)
    | _ => primary n first ws

def primary : Nat → ConditionWord → List Bytes → Sh (Bool × List Bytes)
  | 0, _, _ => endless
  | n + 1, first, ws => do
    match first with
    | .none => return (false, ws)
    | .left =>
      let ws := ws.drop 1
      match classify ws with
      | .right => return (false, ws)
      | next =>
        let (a, ws) ← disjunction n next ws
        let ws := ws.drop 1
        match classify ws with
        | .right => return (a, ws)
        | _ => fail (bytes "closing paren expected")
    | .unary c =>
      match ws with
      | _ :: w :: rest => return (← unaryTest c w, w :: rest)
      | _ => missingArgument (ws.head?.getD [])
    | _ =>
      match classify (ws.drop 1) with
      | .binary c =>
        match ws with
        | a :: _ :: b :: rest => return (← compare c a b, b :: rest)
        | _ => missingArgument ((ws.drop 1).head?.getD [])
      | _ => return (!(ws.head?.getD []).isEmpty, ws)

end

/-- Evaluates a whole condition. With three or four words a negation in front is taken off first; any
number of those count as one. -/
def evaluate : Nat → Bool → List Bytes → Sh Bool
  | 0, _, _ => endless
  | n + 1, negated, ws => do
    let whole (first : ConditionWord) (ws : List Bytes) : Sh Bool := do
      let (a, rest) ← disjunction (8 * (ws.length + 2)) first ws
      match rest with
      | w :: _ :: _ => unexpected w
      | _ => return a != negated
    let grouped : Sh Bool := do
      if ws.head? = some ['('] && ws.getLast? = some [')'] then
        let inner := (ws.drop 1).dropLast
        whole (classify inner) inner
      else if ws.head? = some ['!'] then evaluate n true (ws.drop 1)
      else whole (classify ws) ws
    match ws with
    | [] => return negated
    | [_, op, _] => if isBinary op then whole .operand ws else grouped
    | [_, _, _, _] => grouped
    | _ => whole (classify ws) ws

end Condition
end ValueInspector.Shell
