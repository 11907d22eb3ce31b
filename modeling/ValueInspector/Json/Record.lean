import ValueInspector.Json.Parse
import ValueInspector.Json.Skip

/-! # Reading records from JSON

A record is read into a value that starts from defaults. Its text is an object with any of the known
names, each at most once, or an array that gives the fields in order. The text is read from left to
right and the first fault decides.
-/
namespace ValueInspector.Json

/-- The fault of a value that is not of the kind wanted. A scalar is read first, and its own fault
comes before the mismatch. -/
def refusal : List Char → Fault
  | [] => .ended
  | c :: rest =>
    if c = '[' || c = '\x7b' then .mismatched
    else
      match scalar c rest with
      | .error fault => fault
      | .ok _ => .mismatched

def readBool : Reader Bool := fun cs =>
  match skipBlanks cs with
  | 't' :: rest => (true, ·) <$> word "rue".toList rest
  | 'f' :: rest => (false, ·) <$> word "alse".toList rest
  | rest => .error (refusal rest)

/-- A natural number below a bound, written without sign, point and exponent. -/
def readBelow (bound : Nat) : Reader Nat := fun cs =>
  match skipBlanks cs with
  | [] => .error .ended
  | c :: rest =>
    match scalar c rest with
    | .ok (.number n, rest) =>
      match n.natural? with
      | some w => if w < bound then .ok (w, rest) else .error .mismatched
      | none => .error .mismatched
    | _ => .error (refusal (c :: rest))

def readString : Reader String := fun cs =>
  match skipBlanks cs with
  | '"' :: rest => stringBody rest
  | rest => .error (refusal rest)

/-- What stands before the next item of an array: nothing before the first, a comma before another;
`none` at the closing bracket. -/
def nextItem (first : Bool) (cs : List Char) : Except Fault (Option (List Char) × List Char) :=
  match skipBlanks cs with
  | [] => .error .ended
  | c :: rest =>
    if c = ']' then .ok (none, rest)
    else if first then .ok (some (c :: rest), [])
    else if c = ',' then
      match skipBlanks rest with
      | [] => .error .ended
      | d :: rest => if d = ']' then .error .malformed else .ok (some (d :: rest), [])
    else .error .malformed

/-- The items of a list from the next one on, those before it in reverse. -/
def itemsOf {α : Type} (item : Reader α) : Nat → List α → Reader (List α)
  | 0, _, _ => .error .ended
  | count + 1, acc, cs =>
    match nextItem acc.isEmpty cs with
    | .error fault => .error fault
    | .ok (none, rest) => .ok (acc.reverse, rest)
    | .ok (some rest, _) =>
      match item rest with
      | .error fault => .error fault
      | .ok (a, rest) => itemsOf item count (a :: acc) rest

def readList {α : Type} (item : Reader α) : Reader (List α) := fun cs =>
  match skipBlanks cs with
  | '[' :: rest => itemsOf item (rest.length + 1) [] rest
  | rest => .error (refusal rest)

/-- A field of a record: its name, and how its value is read into the record. -/
structure RecordField (σ : Type) where
  name : String
  read : Reader (σ → σ)

/-- A field whose value is read and then stored. -/
def field {σ α : Type} (name : String) (reader : Reader α) (store : α → σ → σ) : RecordField σ where
  name := name
  read cs := do
    let (a, rest) ← reader cs
    return (store a, rest)

section Records
variable {σ : Type}

/-- The fields in order, as the items of an array. Fields past the end keep their values. -/
def recordItems : List (RecordField σ) → Bool → σ → Reader σ
  | [], _, acc, cs => (acc, ·) <$> mark ']' cs
  | f :: fields, first, acc, cs =>
    match nextItem first cs with
    | .error fault => .error fault
    | .ok (none, rest) => .ok (acc, rest)
    | .ok (some rest, _) =>
      match f.read rest with
      | .error fault => .error fault
      | .ok (update, rest) => recordItems fields false (update acc) rest

/-- What stands before the name of the next member; `none` at the closing bracket. -/
def nextMember (first : Bool) (cs : List Char) : Except Fault (Option (List Char) × List Char) :=
  match skipBlanks cs with
  | [] => .error .ended
  | c :: rest =>
    if c = '\x7d' then .ok (none, rest)
    else if first then
      if c = '"' then .ok (some rest, []) else .error .malformed
    else if c = ',' then
      match skipBlanks rest with
      | [] => .error .ended
      | d :: rest => if d = '"' then .ok (some rest, []) else .error .malformed
    else .error .malformed

/-- One member after the quote that opens its name: the record and the names seen, updated. A known
name that was seen before is refused before its value is read; an unknown one is skipped. -/
def recordMember (fields : List (RecordField σ)) (seen : List String) (acc : σ) :
    Reader (List String × σ) := fun cs => do
  let (name, rest) ← stringBody cs
  match fields.find? (·.name = name) with
  | none =>
    let rest ← skipValue (← mark ':' rest)
    return ((seen, acc), rest)
  | some f =>
    if name ∈ seen then throw .mismatched
    let (update, rest) ← f.read (← mark ':' rest)
    return ((name :: seen, update acc), rest)

/-- The members of an object from the next one on. -/
def recordMembers (fields : List (RecordField σ)) : Nat → List String → Bool → σ → Reader σ
  | 0, _, _, _, _ => .error .ended
  | count + 1, seen, first, acc, cs =>
    match nextMember first cs with
    | .error fault => .error fault
    | .ok (none, rest) => .ok (acc, rest)
    | .ok (some rest, _) =>
      match recordMember fields seen acc rest with
      | .error fault => .error fault
      | .ok ((seen, acc), rest) => recordMembers fields count seen false acc rest

/-- A record, read over the given defaults. -/
def readRecord (fields : List (RecordField σ)) (defaults : σ) : Reader σ := fun cs =>
  match skipBlanks cs with
  | '[' :: rest => recordItems fields true defaults rest
  | '\x7b' :: rest => recordMembers fields (rest.length + 1) [] true defaults rest
  | rest => .error (refusal rest)

end Records

/-- Reads a text to its end. -/
def readAll {α : Type} (reader : Reader α) (s : String) : Except Fault α := do
  let (a, rest) ← reader s.toList
  if (skipBlanks rest).isEmpty then return a else throw .malformed

end ValueInspector.Json
