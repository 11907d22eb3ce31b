import ValueInspector.Shell.Regex

/-! # Scripts over records

A script of `awk` has rules for records and functions. Names are told apart when a script is read:
parameters of the function around them go by their places, all others are global.
-/
namespace ValueInspector.Shell.Records

inductive Arithmetic where
  | add
  | sub
  | mul
  | div
  | mod
  | pow
deriving DecidableEq, Repr

inductive Relation where
  | less
  | lessEqual
  | equal
  | unequal
  | greater
  | greaterEqual
deriving DecidableEq, Repr

inductive Builtin where
  | length
  | substr
  | index
  | split
  | sub
  | gsub
  | fit
  | sprintf
  | lower
  | upper
  | sin
  | cos
  | atan2
  | exp
  | log
  | sqrt
  | int
  | rand
  | srand
  | system
  | close
  | flush
  | systime
  | strftime
  | mktime
deriving DecidableEq, Repr

/-- A variable that is used as an array. -/
inductive ArrayName where
  | global (name : Bytes)
  | param (k : Nat)
deriving DecidableEq, Repr

inductive Expr where
  | number (x : Float)
  | text (w : Bytes)
  /-- A match of the record. -/
  | regex (r : Regex)
  | global (name : Bytes)
  | param (k : Nat)
  | field (e : Expr)
  | element (a : ArrayName) (subscripts : List Expr)
  | array (a : ArrayName)
  | assign (target : Expr) (op : Option Arithmetic) (e : Expr)
  | choose (c a b : Expr)
  | both (a b : Expr)
  | either (a b : Expr)
  | not (e : Expr)
  | negate (e : Expr)
  | plus (e : Expr)
  | arithmetic (op : Arithmetic) (a b : Expr)
  | join (a b : Expr)
  | compare (r : Relation) (a b : Expr)
  | fits (inverted : Bool) (a b : Expr)
  | within (subscripts : List Expr) (a : ArrayName)
  /-- Counts up or down; the value is the one before or after that. -/
  | step (up before : Bool) (target : Expr)
  | call (name : Bytes) (arguments : List Expr)
  | builtin (b : Builtin) (arguments : List Expr)
  | line (target : Option Expr)
  | lineOfFile (target : Option Expr) (file : Expr)
  | lineOfCommand (target : Option Expr) (command : Expr)
  /-- An expression in parentheses. -/
  | group (e : Expr)
  /-- Several expressions in parentheses. -/
  | tuple (es : List Expr)

namespace Expr

def isTarget : Expr → Bool
  | .global _ | .param _ | .field _ | .element _ _ => true
  | _ => false

end Expr

inductive SinkKind where
  | write
  | append
  | pipe
deriving DecidableEq, Repr

/-- Where a statement prints. -/
structure Sink where
  kind : SinkKind
  name : Expr

inductive Statement where
  | expr (e : Expr)
  | print (es : List Expr) (sink : Option Sink)
  | printf (es : List Expr) (sink : Option Sink)
  | when (c : Expr) (a : Statement) (b : Option Statement)
  | while (c : Expr) (body : Statement)
  | repeat (body : Statement) (c : Expr)
  | loop (start : Option Expr) (c : Option Expr) (step : Option Expr) (body : Statement)
  | each (target : Expr) (a : ArrayName) (body : Statement)
  | block (body : List Statement)
  | next
  | nextFile
  | exit (e : Option Expr)
  | return (e : Option Expr)
  | break
  | continue
  | delete (a : ArrayName) (subscripts : List Expr)
  | clear (a : ArrayName)

/-- For which records a rule is. -/
inductive Condition where
  | always
  | when (e : Expr)
  /-- From one record to another one. -/
  | range (first last : Expr)

structure Rule where
  condition : Condition
  /-- Without statements, the record is printed. -/
  body : Option (List Statement)

structure Function where
  name : Bytes
  arity : Nat
  body : List Statement

structure Script where
  begins : List (List Statement)
  rules : List Rule
  ends : List (List Statement)
  functions : List (Bytes × Function)
  /-- Global arrays. -/
  arrays : List Bytes
  /-- Parameters of functions that are arrays. -/
  arrayParams : List (Bytes × Nat)

end ValueInspector.Shell.Records
