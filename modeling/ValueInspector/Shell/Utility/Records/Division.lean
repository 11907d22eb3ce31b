import ValueInspector.Shell.Utility.Records.Pattern

/-! # Dividing texts

Records out of input, fields out of records, and the replacement of matches. Separators are blanks, a
single character or a regular expression.
-/
namespace ValueInspector.Shell.Records

/-! ## Fields -/

/-- What stands between fields. -/
inductive Separator where
  | blanks
  | characters
  | one (c : Char)
  | pattern (r : Regex)

/-- The separator that a text names. -/
def Separator.ofText (w : Bytes) : Except PatternFault Separator :=
  match w with
  | [] => .ok .characters
  | [' '] => .ok .blanks
  | [c] => .ok (.one c)
  | _ => (Pattern.ofText w).map .pattern

def isFieldBlank (c : Char) : Bool := c = ' ' || c = '\t' || c = '\n'

/-- The words between blanks, after those before in reverse. -/
def words : Nat → Bytes → List Bytes → List Bytes
  | 0, _, acc => acc.reverse
  | n + 1, cs, acc =>
    match cs.dropWhile isFieldBlank with
    | [] => acc.reverse
    | cs =>
      let w := cs.takeWhile fun c => !isFieldBlank c
      words n (cs.drop w.length) (w :: acc)

/-- The next match that is not empty. -/
def nextMatch? (r : Regex) (p : Regex.Place) : Option (Regex.Place × Regex.Place) :=
  p.scan fun a =>
    match Regex.matchAt? patternMode r a with
    | some b => if a.index < b.index then some (a, b) else none
    | none => none

/-- The parts between matches that are not empty, after those before in reverse. -/
def parts (r : Regex) : Nat → Regex.Place → List Bytes → List Bytes
  | 0, p, acc => (p.ahead :: acc).reverse
  | n + 1, p, acc =>
    match nextMatch? r p with
    | some (a, b) => parts r n b (p.between a :: acc)
    | none => (p.ahead :: acc).reverse

/-- The fields of a text. An empty text has none. -/
def Separator.divide (s : Separator) (text : Bytes) : List Bytes :=
  if text.isEmpty then []
  else
    match s with
    | .blanks => words (text.length + 1) text []
    | .characters => text.map ([·])
    | .one c => text.splitOn c
    | .pattern r => parts r (text.length + 1) (.ofText text) []

/-! ## Records -/

/-- What ends a record. -/
inductive RecordEnd where
  | one (c : Char)
  /-- Empty lines. -/
  | emptyLines
  | pattern (r : Regex)

def RecordEnd.ofText (w : Bytes) : Except PatternFault RecordEnd :=
  match w with
  | [] => .ok .emptyLines
  | [c] => .ok (.one c)
  | _ => (Pattern.ofText w).map .pattern

/-- The text before the first empty line, and what follows the line feeds there. -/
def beforeEmptyLine? : Bytes → Bytes → Option (Bytes × Bytes)
  | _, [] => none
  | acc, '\n' :: '\n' :: rest => some (acc.reverse, rest.dropWhile (· = '\n'))
  | acc, c :: rest => beforeEmptyLine? (c :: acc) rest

/-- The first record of the input so far, and the rest of it. `final` says that no more will come. -/
def RecordEnd.first? (e : RecordEnd) (final : Bool) (data : Bytes) : Option (Bytes × Bytes) :=
  let last (data : Bytes) : Option (Bytes × Bytes) :=
    if final && !data.isEmpty then some (data, []) else none
  match e with
  | .one c =>
    let record := data.takeWhile (· ≠ c)
    match data.drop record.length with
    | _ :: rest => some (record, rest)
    | [] => last data
  | .emptyLines =>
    let data := data.dropWhile (· = '\n')
    match beforeEmptyLine? [] data with
    | some found => some found
    | none => last (if data.getLast? = some '\n' then data.dropLast else data)
  | .pattern r =>
    match nextMatch? r (.ofText data) with
    | some (a, b) => if b.ahead.isEmpty && !final then none else some (data.take a.index, b.ahead)
    | none => last data

/-! ## Replacing -/

/-- A part of a replacement: a text, or the match itself. -/
inductive Piece where
  | text (w : Bytes)
  | found
deriving Repr

/-- Reads a replacement. Of backslashes right before an ampersand, two are one, and one that is left
takes the meaning from the ampersand. -/
def Piece.ofText : Nat → Bytes → Bytes → List Piece
  | 0, acc, _ => [.text acc.reverse]
  | n + 1, acc, cs =>
    match cs with
    | [] => [.text acc.reverse]
    | '&' :: rest => .text acc.reverse :: .found :: Piece.ofText n [] rest
    | '\\' :: _ =>
      let slashes := cs.takeWhile (· = '\\')
      match cs.drop slashes.length with
      | '&' :: rest =>
        let acc := List.replicate (slashes.length / 2) '\\' ++ acc
        if slashes.length % 2 = 1 then Piece.ofText n ('&' :: acc) rest
        else .text acc.reverse :: .found :: Piece.ofText n [] rest
      | rest => Piece.ofText n (slashes ++ acc) rest
    | c :: rest => Piece.ofText n (c :: acc) rest

def Piece.fill (found : Bytes) (ps : List Piece) : Bytes :=
  (ps.map fun
    | .text w => w
    | .found => found).flatten

/-- Replaces the first match. -/
def replaceFirst (r : Regex) (ps : List Piece) (text : Bytes) : Option Bytes :=
  (Regex.search? patternMode r (.ofText text)).map fun (a, b) =>
    text.take a.index ++ Piece.fill (a.between b) ps ++ b.ahead

/-- Replaces all matches from a place on, and counts them. An empty match right after a match is none;
`blocked` is where such a match would stand. -/
def replaceFrom (r : Regex) (ps : List Piece) :
    Nat → Regex.Place → Option Nat → List Bytes → Nat → Bytes × Nat
  | 0, p, _, acc, k => ((p.ahead :: acc).reverse.flatten, k)
  | n + 1, p, blocked, acc, k =>
    match Regex.search? patternMode r p with
    | none => ((p.ahead :: acc).reverse.flatten, k)
    | some (a, b) =>
      let acc := p.between a :: acc
      if a.index < b.index then
        replaceFrom r ps n b (some b.index) (Piece.fill (a.between b) ps :: acc) (k + 1)
      else
        let (acc, k) :=
          if blocked = some a.index then (acc, k) else (Piece.fill [] ps :: acc, k + 1)
        match a.step with
        | some (c, q) => replaceFrom r ps n q none ([c] :: acc) k
        | none => (acc.reverse.flatten, k)

/-- Replaces all matches, and counts them. -/
def replaceAll (r : Regex) (ps : List Piece) (text : Bytes) : Bytes × Nat :=
  replaceFrom r ps (2 * text.length + 2) (.ofText text) none [] 0

end ValueInspector.Shell.Records
