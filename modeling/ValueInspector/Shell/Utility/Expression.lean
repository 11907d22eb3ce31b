import ValueInspector.Shell.Regex.Reader
import ValueInspector.Shell.Utility.Basic

/-! # Expressions as words

`expr` evaluates an expression whose operators and operands are words of their own, over integers and
texts. What an operator does not need is read, but not evaluated.
-/
namespace ValueInspector.Shell.Utility

namespace Expression

def integer? (w : Bytes) : Option Int :=
  match w with
  | '-' :: digits => (Bytes.natural? digits).map fun n => -(n : Int)
  | digits => (Bytes.natural? digits).map fun n => (n : Int)

/-- Whether a value counts as false: empty, or zero. -/
def isNull (v : Bytes) : Bool :=
  match v with
  | '-' :: rest => !rest.isEmpty && rest.all (· = '0')
  | _ => v.all (· = '0')

inductive Fault where
  | missingAfter (word : Bytes)
  | unexpectedClose
  | openAfter (word : Bytes)
  | openBefore (word : Bytes)
  | unexpected (word : Bytes)
  | notInteger
  | divisionByZero
  | pattern (f : RegexFault)

def Fault.text : Fault → Bytes
  | .missingAfter w => bytes "syntax error: missing argument after " ++ quoted w
  | .unexpectedClose => bytes "syntax error: unexpected ')'"
  | .openAfter w => bytes "syntax error: expecting ')' after " ++ quoted w
  | .openBefore w => bytes "syntax error: expecting ')' instead of " ++ quoted w
  | .unexpected w => bytes "syntax error: unexpected argument " ++ quoted w
  | .notInteger => bytes "non-integer argument"
  | .divisionByZero => bytes "division by zero"
  | .pattern f => f.text

/-- The words that are left, and the word before them. -/
structure Place where
  last : Bytes
  rest : List Bytes

abbrev Reader := Place → Except Fault (Bytes × Place)

/-- The next word, which must be there. -/
def word : Reader
  | ⟨last, []⟩ => .error (.missingAfter last)
  | ⟨_, w :: rest⟩ => .ok (w, ⟨w, rest⟩)

/-- Operators with how tightly they bind. -/
def level? (op : Bytes) : Option Nat :=
  List.lookup (String.ofList op)
    [("|", 1), ("&", 2), ("<", 3), ("<=", 3), ("=", 3), ("==", 3), ("!=", 3), (">=", 3), (">", 3),
     ("+", 4), ("-", 4), ("*", 5), ("/", 5), ("%", 5), (":", 6)]

def ofBool (b : Bool) : Bytes := if b then ['1'] else ['0']

/-- The first group of a match at the start of a text, or how long the match is. -/
def matchText (text pattern : Bytes) : Except Fault Bytes :=
  match Regex.ofText .basic pattern with
  | .error f => .error (.pattern f)
  | .ok r =>
    let found := Regex.matchAt? (r.modeFor false) r (.ofText text)
    if r.hasGroups then .ok ((found.bind fun q => q.groups.lookup 1).getD [])
    else .ok (Bytes.ofNat ((found.map (·.index)).getD 0))

def apply (op a b : Bytes) : Except Fault Bytes :=
  match op with
  | ['|'] => .ok (if !isNull a then a else if isNull b then ['0'] else b)
  | ['&'] => .ok (if isNull a || isNull b then ['0'] else a)
  | [':'] => matchText a b
  | _ =>
    let order : Ordering := match integer? a, integer? b with
      | some x, some y => compare x y
      | _, _ => if a < b then .lt else if b < a then .gt else .eq
    match String.ofList op with
    | "<" => .ok (ofBool (order = .lt))
    | "<=" => .ok (ofBool (order ≠ .gt))
    | "=" | "==" => .ok (ofBool (order = .eq))
    | "!=" => .ok (ofBool (order ≠ .eq))
    | ">=" => .ok (ofBool (order ≠ .lt))
    | ">" => .ok (ofBool (order = .gt))
    | op =>
      match integer? a, integer? b with
      | some x, some y =>
        if op = "+" then .ok (Bytes.ofInt (x + y))
        else if op = "-" then .ok (Bytes.ofInt (x - y))
        else if op = "*" then .ok (Bytes.ofInt (x * y))
        else if y = 0 then .error .divisionByZero
        else if op = "/" then .ok (Bytes.ofInt (x.tdiv y))
        else .ok (Bytes.ofInt (x.tmod y))
      | _, _ => .error .notInteger

/-- Whether the right side of an operator counts. -/
def needsRight (op a : Bytes) : Bool :=
  if op = ['|'] then isNull a else if op = ['&'] then !isNull a else true

/-- The part of a text from a place on, of some length. -/
def part (text start count : Bytes) : Bytes :=
  match integer? start, integer? count with
  | some s, some c => if s < 1 || c < 1 then [] else (text.drop (s.toNat - 1)).take c.toNat
  | _, _ => []

mutual

/-- Operators that bind at least as tightly as given. -/
def operation : Nat → Bool → Nat → Reader
  | 0, _, _, p => .error (.missingAfter p.last)
  | n + 1, counts, least, p => do
    let (a, p) ← operand n counts p
    operationFrom n counts least a p

def operationFrom : Nat → Bool → Nat → Bytes → Reader
  | 0, _, _, _, p => .error (.missingAfter p.last)
  | n + 1, counts, least, a, p =>
    match p.rest with
    | op :: rest =>
      match level? op with
      | some level =>
        if level < least then .ok (a, p)
        else do
          let (b, p) ← operation n (counts && needsRight op a) (level + 1) ⟨op, rest⟩
          operationFrom n counts least (← if counts then apply op a b else pure a) p
      | none => .ok (a, p)
    | [] => .ok (a, p)

/-- A word, an expression in parentheses, or a function of such operands. -/
def operand : Nat → Bool → Reader
  | 0, _, p => .error (.missingAfter p.last)
  | n + 1, counts, p => do
    let (w, p) ← word p
    match String.ofList w with
    | "+" => word p
    | "length" =>
      let (a, p) ← operand n counts p
      return (Bytes.ofNat a.length, p)
    | "match" =>
      let (a, p) ← operand n counts p
      let (b, p) ← operand n counts p
      return (← if counts then matchText a b else pure a, p)
    | "index" =>
      let (a, p) ← operand n counts p
      let (b, p) ← operand n counts p
      return (Bytes.ofNat (((a.findIdx? (· ∈ b)).map (· + 1)).getD 0), p)
    | "substr" =>
      let (a, p) ← operand n counts p
      let (start, p) ← operand n counts p
      let (count, p) ← operand n counts p
      return (part a start count, p)
    | "(" =>
      let (a, p) ← operation n counts 1 p
      match p.rest with
      | [')'] :: rest => return (a, ⟨[')'], rest⟩)
      | w :: _ => throw (.openBefore w)
      | [] => throw (.openAfter p.last)
    | ")" => throw .unexpectedClose
    | _ => return (w, p)

end

/-- The value of an expression that takes all words. -/
def ofWords (ws : List Bytes) : Except Fault Bytes := do
  let (value, p) ← operation (8 * (ws.length + 2)) true 1 ⟨[], ws⟩
  match p.rest with
  | [] => return value
  | w :: _ => throw (.unexpected w)

end Expression

def expr : Utility := fun i => do
  let ws := operands i
  match ws with
  | [] => refuseUse i (bytes "missing operand") 2
  | [w] =>
    if w = bytes "--help" then put i (bytes "Usage: " ++ nameOf i ++ bytes " EXPRESSION\n")
    else if w = bytes "--version" then put i (bytes (versionOf "expr") ++ ['\n'])
    else if w = bytes "--" then refuseUse i (bytes "missing operand") 2
    else value i ws
  | _ => value i (if ws.head? = some ['-', '-'] then ws.drop 1 else ws)
where
  value (i : Invocation) (ws : List Bytes) : Task Nat := do
    match Expression.ofWords ws with
    | .error f => refuse i f.text 2
    | .ok v =>
      let written ← put i (v ++ ['\n'])
      return if written ≠ 0 then 3 else if Expression.isNull v then 1 else 0

end ValueInspector.Shell.Utility
