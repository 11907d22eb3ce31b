import ValueInspector.Shell.Bytes

/-! # Arithmetic of the shell

Expressions over 64-bit words with the operators of C, without steps and commas. What stands in front
of a fault in the text is evaluated before the fault is reported.
-/
namespace ValueInspector.Shell

inductive ArithmeticOperator where
  | multiply
  | divide
  | remainder
  | add
  | subtract
  | shiftLeft
  | shiftRight
  | less
  | lessEqual
  | greater
  | greaterEqual
  | equal
  | unequal
  | bitAnd
  | bitXor
  | bitOr
deriving DecidableEq, Repr

inductive ArithmeticSign where
  | plus
  | minus
  | logicalNot
  | complement
deriving DecidableEq, Repr

inductive ArithmeticFault where
  | primary
  | unfinished
  | parenthesis
  | colon
  | divisionByZero
  | notNumber (text : Bytes)
  /-- The quotient is not a 64-bit word. -/
  | overflow
deriving DecidableEq, Repr

inductive Arithmetic where
  | number (n : Int64)
  | variable (name : Bytes)
  | signed (s : ArithmeticSign) (e : Arithmetic)
  | binary (op : ArithmeticOperator) (a b : Arithmetic)
  | both (a b : Arithmetic)
  | either (a b : Arithmetic)
  | choice (test yes no : Arithmetic)
  /-- With an operator, the old value is its left operand. -/
  | assign (name : Bytes) (op : Option ArithmeticOperator) (e : Arithmetic)
  /-- The text goes wrong here, after an expression that is still evaluated. -/
  | broken (before : Arithmetic) (f : ArithmeticFault)
deriving Repr

/-- The message for a fault in an expression. -/
def ArithmeticFault.message (expression : Bytes) : ArithmeticFault → Bytes
  | .notNumber text => bytes "Illegal number: " ++ text
  | f =>
    let what := match f with
      | .primary => "expecting primary"
      | .unfinished => "expecting EOF"
      | .parenthesis => "expecting ')'"
      | .colon => "expecting ':'"
      | .divisionByZero => "division by zero"
      | _ => ""
    bytes "arithmetic expression: " ++ bytes what ++ bytes ": \"" ++ expression ++ ['"']

namespace Arithmetic

def leastWord : Int := -9223372036854775808
def greatestWord : Int := 9223372036854775807

/-- The nearest 64-bit word. -/
def clamp (n : Int) : Int64 := Int64.ofInt (max leastWord (min greatestWord n))

/-- A numeral at the front, with base 8 after a zero and base 16 after `0x`, and the rest. -/
def numeral (cs : Bytes) : Nat × Bytes :=
  let digits (base : Nat) (cs : Bytes) : Nat × Bytes :=
    let found := cs.takeWhile fun c => (Text.digitValue? base c).isSome
    ((Text.readDigits? base found).getD 0, cs.drop found.length)
  match cs with
  | '0' :: x :: d :: rest =>
    if (x = 'x' || x = 'X') && (Text.digitValue? 16 d).isSome then digits 16 (d :: rest)
    else digits 8 cs
  | '0' :: _ => digits 8 cs
  | _ => digits 10 cs

/-- The value of a variable's text: blanks, a sign and a numeral, or blanks alone. -/
def ofText (text : Bytes) : Except ArithmeticFault Int64 :=
  let cs := text.dropWhile Bytes.isSpace
  let (negative, cs) := match cs with
    | '-' :: rest => (true, rest)
    | '+' :: rest => (false, rest)
    | _ => (false, cs)
  let startsNumber := cs.head?.any Char.isDigit
  let (n, rest) := numeral cs
  let value : Int := if negative then -n else n
  let blank := text.all Bytes.isSpace
  if blank then .ok 0
  else if !startsNumber || !rest.all Bytes.isSpace || value < leastWord || greatestWord < value then
    .error (.notNumber text)
  else .ok (Int64.ofInt value)

inductive ArithmeticToken where
  | number (n : Int64)
  | name (cs : Bytes)
  | symbol (s : String)
  | stray
deriving DecidableEq, Repr

/-- The symbols with their bytes, longer ones first. -/
def symbols : List (Bytes × String) :=
  ["<<=", ">>=", "<<", ">>", "<=", ">=", "==", "!=", "&&", "||", "+=", "-=", "*=", "/=", "%=", "&=",
   "^=", "|=", "<", ">", "=", "+", "-", "*", "/", "%", "&", "^", "|", "!", "~", "?", ":", "(", ")"].map fun s =>
    (bytes s, s)

def tokens : Nat → Bytes → List ArithmeticToken
  | 0, _ => []
  | _ + 1, [] => []
  | n + 1, c :: rest =>
    if Bytes.isSpace c then tokens n rest
    else if c.isDigit then
      let (value, rest) := numeral (c :: rest)
      .number (clamp value) :: tokens n rest
    else if Bytes.isNameStart c then
      let name := (c :: rest).takeWhile Bytes.isNameChar
      .name name :: tokens n ((c :: rest).drop name.length)
    else
      match symbols.find? fun s => s.1.isPrefixOf (c :: rest) with
      | some s => .symbol s.2 :: tokens n ((c :: rest).drop s.1.length)
      | none => [.stray]

/-- Binary operators with how tightly they bind. -/
def operators : List (String × Nat × ArithmeticOperator) :=
  [("*", 10, .multiply), ("/", 10, .divide), ("%", 10, .remainder), ("+", 9, .add),
   ("-", 9, .subtract), ("<<", 8, .shiftLeft), (">>", 8, .shiftRight), ("<", 7, .less),
   ("<=", 7, .lessEqual), (">", 7, .greater), (">=", 7, .greaterEqual), ("==", 6, .equal),
   ("!=", 6, .unequal), ("&", 5, .bitAnd), ("^", 4, .bitXor), ("|", 3, .bitOr)]

/-- Assignments with the operators that go before them. Comparisons have none. -/
def assignments : List (String × Option ArithmeticOperator) :=
  ("=", none) :: (operators.filter fun o => o.2.1 ≠ 7 && o.2.1 ≠ 6).map fun o => (o.1 ++ "=", some o.2.2)

/-- The operator of an assignment. -/
def assignmentOf? (symbol : String) : Option (Option ArithmeticOperator) := assignments.lookup symbol

/-- What is read of the tokens, and the tokens after it. -/
abbrev Reader := List ArithmeticToken → Arithmetic × List ArithmeticToken

/-- A fault with nothing in front of it. -/
def missing (f : ArithmeticFault) : Arithmetic := .broken (.number 0) f

/-- Whether reading goes no further. -/
def isBroken : Arithmetic → Bool
  | .broken _ _ => true
  | .signed _ e | .assign _ _ e => isBroken e
  | .binary _ _ b | .both _ b | .either _ b => isBroken b
  | .choice test yes no => isBroken test || isBroken yes || isBroken no
  | _ => false

/-- Operators that bind at least as tightly as `least`, after a left operand. `operand` reads a right
operand, up to an operator that binds less tightly than given. -/
def binaryFrom (operand : Nat → Reader) (least : Nat) : Nat → Arithmetic → Reader
  | 0, a, ts => (a, ts)
  | n + 1, a, ts =>
    match ts with
    | .symbol s :: rest =>
      match operators.lookup s with
      | some (level, op) =>
        if level < least || isBroken a then (a, ts)
        else
          let (b, rest) := operand (level + 1) rest
          binaryFrom operand least n (.binary op a b) rest
      | none => (a, ts)
    | _ => (a, ts)

mutual

/-- An assignment or a choice. -/
def assignment : Nat → Reader
  | 0, ts => (missing .primary, ts)
  | n + 1, ts =>
    match ts with
    | .name name :: .symbol s :: rest =>
      match assignmentOf? s with
      | some op =>
        let (e, rest) := assignment n rest
        (.assign name op e, rest)
      | none => conditional n ts
    | _ => conditional n ts

def conditional : Nat → Reader
  | 0, ts => (missing .primary, ts)
  | n + 1, ts =>
    let (test, rest) := disjunction n ts
    match rest with
    | .symbol "?" :: rest =>
      if isBroken test then (test, rest)
      else
        let (yes, rest) := assignment n rest
        if isBroken yes then (.choice test yes (.number 0), rest)
        else
          match rest with
          | .symbol ":" :: rest =>
            let (no, rest) := conditional n rest
            (.choice test yes no, rest)
          | _ => (.choice test (.broken yes .colon) (.number 0), rest)
    | _ => (test, rest)

def disjunction : Nat → Reader
  | 0, ts => (missing .primary, ts)
  | n + 1, ts =>
    let (a, rest) := conjunction n ts
    match rest with
    | .symbol "||" :: rest =>
      if isBroken a then (a, rest)
      else
        let (b, rest) := disjunction n rest
        (.either a b, rest)
    | _ => (a, rest)

def conjunction : Nat → Reader
  | 0, ts => (missing .primary, ts)
  | n + 1, ts =>
    let (a, rest) := operation n 0 ts
    match rest with
    | .symbol "&&" :: rest =>
      if isBroken a then (a, rest)
      else
        let (b, rest) := conjunction n rest
        (.both a b, rest)
    | _ => (a, rest)

/-- Binary operators that bind at least as tightly as given. -/
def operation : Nat → Nat → Reader
  | 0, _, ts => (missing .primary, ts)
  | n + 1, least, ts =>
    let (a, rest) := primary n ts
    binaryFrom (fun level ts => operation n level ts) least n a rest

def primary : Nat → Reader
  | 0, ts => (missing .primary, ts)
  | n + 1, ts =>
    match ts with
    | .number v :: rest => (.number v, rest)
    | .name name :: rest => (.variable name, rest)
    | .symbol s :: rest =>
      if s = "(" then
        let (e, rest) := assignment n rest
        if isBroken e then (e, rest)
        else
          match rest with
          | .symbol ")" :: rest => (e, rest)
          | _ => (.broken e .parenthesis, rest)
      else
        match List.lookup s
            [("+", ArithmeticSign.plus), ("-", .minus), ("!", .logicalNot), ("~", .complement)] with
        | some sign =>
          let (e, rest) := primary n rest
          (.signed sign e, rest)
        | none => (missing .primary, ts)
    | _ => (missing .primary, ts)

end

/-- Reads a whole expression. -/
def parse (text : Bytes) : Arithmetic :=
  let ts := tokens (text.length + 1) text
  let (e, rest) := assignment (8 * (ts.length + 1)) ts
  if isBroken e || rest.isEmpty then e else .broken e .unfinished

def ofBool (b : Bool) : Int64 := if b then 1 else 0

def apply (op : ArithmeticOperator) (a b : Int64) : Except ArithmeticFault Int64 :=
  match op with
  | .multiply => .ok (a * b)
  | .divide =>
    if b = 0 then .error .divisionByZero
    else if b = -1 && a = Int64.minValue then .error .overflow
    else .ok (a / b)
  | .remainder =>
    if b = 0 then .error .divisionByZero
    else if b = -1 && a = Int64.minValue then .error .overflow
    else .ok (a % b)
  | .add => .ok (a + b)
  | .subtract => .ok (a - b)
  | .shiftLeft => .ok (a <<< b)
  | .shiftRight => .ok (a >>> b)
  | .less => .ok (ofBool (a < b))
  | .lessEqual => .ok (ofBool (a ≤ b))
  | .greater => .ok (ofBool (b < a))
  | .greaterEqual => .ok (ofBool (b ≤ a))
  | .equal => .ok (ofBool (a = b))
  | .unequal => .ok (ofBool (a ≠ b))
  | .bitAnd => .ok (a &&& b)
  | .bitXor => .ok (a ^^^ b)
  | .bitOr => .ok (a ||| b)

section Evaluation
variable {m : Type → Type} [Monad m]

/-- Evaluates an expression with the variables of a monad, and the fault that ends it. What is skipped
is still looked through for faults in its text. -/
def eval (get : Bytes → m Int64) (set : Bytes → Int64 → m Unit)
    (fault : ArithmeticFault → m Int64) (skip : Bool) : Arithmetic → m Int64
  | .number n => pure n
  | .variable name => if skip then pure 0 else get name
  | .signed s e => do
    let v ← eval get set fault skip e
    pure (match s with
      | .plus => v
      | .minus => -v
      | .logicalNot => ofBool (v = 0)
      | .complement => ~~~v)
  | .binary op a b => do
    let x ← eval get set fault skip a
    let y ← eval get set fault skip b
    if skip then pure y
    else
      match apply op x y with
      | .ok v => pure v
      | .error f => fault f
  | .both a b => do
    let x ← eval get set fault skip a
    let y ← eval get set fault (skip || x = 0) b
    pure (ofBool (x ≠ 0 && y ≠ 0))
  | .either a b => do
    let x ← eval get set fault skip a
    let y ← eval get set fault (skip || x ≠ 0) b
    pure (ofBool (x ≠ 0 || y ≠ 0))
  | .choice test yes no => do
    let x ← eval get set fault skip test
    let y ← eval get set fault (skip || x = 0) yes
    let z ← eval get set fault (skip || x ≠ 0) no
    pure (if x ≠ 0 then y else z)
  | .assign name op e => do
    let y ← eval get set fault skip e
    if skip then pure y
    else
      match op with
      | none =>
        set name y
        pure y
      | some op =>
        let x ← get name
        match apply op x y with
        | .ok v =>
          set name v
          pure v
        | .error f => fault f
  | .broken before f => do
    let _ ← eval get set fault skip before
    fault f

end Evaluation

end Arithmetic
end ValueInspector.Shell
