import ValueInspector.Shell.Regex.Reader
import ValueInspector.Shell.Utility.Basic

/-! # Scripts of the stream editor

A script is a row of commands, each for the lines that its addresses name. Blocks and branches are
positions in the row, so that a run only has to go from position to position.
-/
namespace ValueInspector.Shell.Edit

/-- An expression that is searched for. -/
structure Search where
  regex : Regex
  mode : Regex.Mode

/-- Which lines a command is for. An empty expression is the one that was used last. -/
inductive Address where
  | line (n : Nat)
  /-- Every so many lines from the first one on. -/
  | steps (first step : Nat)
  | last
  | fits (s : Option Search)

/-- Where a range of lines ends. -/
inductive Bound where
  | at (a : Address)
  | after (count : Nat)
  | multiple (of : Nat)

inductive LetterCase where
  | lower
  | upper
deriving DecidableEq, Repr

/-- How the letters of a replacement are changed: the first one, and the others. -/
structure Recasing where
  first : Option LetterCase
  rest : Option LetterCase
deriving DecidableEq, Repr

/-- A part of a replacement: a text, then perhaps a group of the match. -/
structure ReplacePart where
  text : Bytes
  group : Option Nat
  recasing : Recasing
deriving Repr

/-- Whether a branch depends on replacements since the last line was read. -/
inductive Condition where
  | always
  | replaced
  | unchanged
deriving DecidableEq, Repr

structure Substitution where
  search : Option Search
  parts : List ReplacePart
  /-- The first match that is replaced. -/
  nth : Nat
  everywhere : Bool
  prints : Bool
  evaluates : Bool
  file : Option Bytes

inductive Action where
  /-- A block, and the position after it. -/
  | block (past : Nat)
  | nothing
  | print (firstLine : Bool)
  | delete (firstLine : Bool)
  | next (append : Bool)
  | fetch (append : Bool)
  | keep (append : Bool)
  | exchange
  | clear
  | lineNumber
  | fileName
  | list (width : Option Nat)
  | substitute (s : Substitution)
  | exchangeChars (table : List (Char × Char))
  | append (text : Bytes)
  | insert (text : Bytes)
  | change (text : Bytes)
  | readFile (name : Bytes)
  | readLine (name : Bytes)
  | write (name : Bytes) (firstLine : Bool)
  | branch (condition : Condition) (target : Nat)
  | quit (status : Nat) (prints : Bool)
  /-- Runs a command; without one, the line is the command and its output the new line. -/
  | run (command : Option Bytes)

structure Step where
  first : Option Address
  second : Option Bound
  negated : Bool
  action : Action

structure Script where
  steps : Array Step
  /-- The script asks that lines are written only when it says so. -/
  silent : Bool

end ValueInspector.Shell.Edit
