import ValueInspector.Shell.Bytes

/-! # Scripts

Words with their expansions, redirections and commands, as they stand after reading and before any
expansion.
-/
namespace ValueInspector.Shell

/-- What is done about a parameter that has no value. -/
inductive Fallback where
  | use
  | assign
  | fail
  /-- The word is used if there is a value. -/
  | instead
deriving DecidableEq, Repr

inductive RedirectKind where
  | input
  | output
  | append
  /-- Output that may replace a file in any case. -/
  | clobber
  | both
  | duplicate
  /-- A text that follows the command, by its number. -/
  | document (id : Nat)
deriving DecidableEq, Repr

mutual

/-- A part of a word. -/
inductive Piece where
  | plain (c : Char)
  /-- Quoted characters; none for a pair of quotes alone. -/
  | quoted (cs : Bytes)
  | parameter (name : Bytes) (m : Modifier) (quoted : Bool)
  | substitution (body : Option Command) (quoted : Bool)
  | arithmetic (expression : List Piece) (quoted : Bool)

inductive Modifier where
  | value
  | length
  /-- A colon counts an empty value as none. -/
  | fallback (colon : Bool) (f : Fallback) (w : List Piece)
  | trim (front longest : Bool) (pattern : List Piece)
  /-- A form that is refused when it is expanded. -/
  | unknown

inductive Redirection where
  | mk (fd : Nat) (kind : RedirectKind) (target : List Piece)

inductive Command where
  | simple (line : Nat) (assignments : List (Bytes × List Piece)) (words : List (List Piece))
      (redirections : List Redirection)
  | pipeline (parts : List Command)
  | not (c : Command)
  | and (first second : Command)
  | or (first second : Command)
  | sequence (first second : Command)
  | background (c : Command)
  | redirected (line : Nat) (c : Command) (redirections : List Redirection)
  | subshell (line : Nat) (c : Command) (redirections : List Redirection)
  | choice (test : Command) (yes : Command) (no : Option Command)
  | loop (untilTrue : Bool) (test body : Command)
  /-- Without words, the positional parameters. -/
  | each (line : Nat) (name : Bytes) (words : Option (List (List Piece))) (body : Command)
  | select (line : Nat) (word : List Piece) (clauses : List (List (List Piece) × Option Command))
  | define (name : Bytes) (body : Command)

end

instance : Inhabited Piece := ⟨.plain 'a'⟩
instance : Inhabited Command := ⟨.pipeline []⟩

abbrev Word := List Piece

/-- The text of a word without quotes and expansions. -/
def Word.literal? (w : Word) : Option Bytes := w.mapM fun
  | .plain c => some c
  | _ => none

def Piece.isQuoted : Piece → Bool
  | .quoted _ => true
  | _ => false

/-- Whether some character of a word was quoted. -/
def Word.hasQuotes (w : Word) : Bool := w.any Piece.isQuoted

/-- Name and value of an assignment: an unquoted name and an equals sign at the front. -/
def Word.assignment? (w : Word) : Option (Bytes × Word) :=
  let rec name (acc : Bytes) : Word → Option (Bytes × Word)
    | .plain c :: rest =>
      if c = '=' then if acc.isEmpty then none else some (acc.reverse, rest)
      else if Bytes.isNameChar c && !(acc.isEmpty && c.isDigit) then name (c :: acc) rest
      else none
    | _ => none
  name [] w

end ValueInspector.Shell
