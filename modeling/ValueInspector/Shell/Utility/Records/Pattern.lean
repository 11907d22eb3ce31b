import ValueInspector.Shell.Regex

/-! # Regular expressions of scripts

Extended expressions without references to groups. A backslash names characters everywhere, also
within sets. Of an interval that starts at two or more, only the start counts.
-/
namespace ValueInspector.Shell.Records

/-- Why a text is no regular expression. -/
inductive PatternFault where
  | missingOperand
  | missingClose
  | badClass
  | placeRepeated
deriving DecidableEq, Repr

def PatternFault.text : PatternFault → Bytes
  | .missingOperand => bytes "missing operand"
  | .missingClose => bytes "missing ')'"
  | .badClass => bytes "bad class -- [], [^] or ["
  | .placeRepeated => bytes "syntax error ^* or ^+"

namespace Pattern

/-- The digits of a base at the front, at most so many, and the rest. -/
def digits (test : Char → Bool) (most : Nat) (cs : Bytes) : Bytes × Bytes :=
  let ds := (cs.take most).takeWhile test
  (ds, cs.drop ds.length)

def isOctal (c : Char) : Bool := '0' ≤ c && c ≤ '7'
def isHex (c : Char) : Bool := (Text.readDigits? 16 [c]).isSome

/-- Letters that stand for control characters after a backslash. -/
def controls : List (Char × Nat) :=
  [('a', 7), ('b', 8), ('f', 12), ('n', 10), ('r', 13), ('t', 9), ('v', 11)]

/-- The character that the text after a backslash stands for, if it is an escape sequence for one. -/
def escape? (cs : Bytes) : Option (Char × Bytes) :=
  match cs with
  | [] => none
  | c :: rest =>
    match controls.lookup c with
    | some n => some (Char.ofNat n, rest)
    | none =>
      if isOctal c then
        let (ds, rest) := digits isOctal 3 cs
        some (Char.ofNat ((Text.readDigits? 8 ds).getD 0 % 256), rest)
      else if c = 'x' then
        match digits isHex 2 rest with
        | ([], _) => none
        | (ds, rest) => some (Char.ofNat ((Text.readDigits? 16 ds).getD 0), rest)
      else none

/-- A character after a backslash, whatever it is. -/
def escaped (cs : Bytes) : Char × Bytes :=
  match escape? cs, cs with
  | some found, _ => found
  | none, c :: rest => (c, rest)
  | none, [] => ('\\', [])

/-- The members of a set up to its closing bracket. -/
def members : Nat → Bool → List SetMember → Bytes → Except PatternFault (List SetMember × Bytes)
  | 0, _, _, _ => .error .badClass
  | n + 1, first, acc, cs =>
    match cs with
    | [] => .error .badClass
    | ']' :: rest => if first then member n acc ']' rest else .ok (acc, rest)
    | '[' :: ':' :: rest =>
      let name := rest.takeWhile Char.isAlpha
      match rest.drop name.length with
      | ':' :: ']' :: after =>
        match ValueInspector.Shell.Pattern.classOf? name with
        | some test => members n false (.named test :: acc) after
        | none => .error .badClass
      | _ => member n acc '[' (':' :: rest)
    | '\\' :: rest =>
      let (c, rest) := escaped rest
      member n acc c rest
    | c :: rest => member n acc c rest
where
  /-- A character, or a range that starts with it. -/
  member (n : Nat) (acc : List SetMember) (c : Char) (rest : Bytes) :
      Except PatternFault (List SetMember × Bytes) :=
    match rest with
    | '-' :: ']' :: _ => members n false (.range c c :: acc) rest
    | '-' :: d :: after =>
      let (high, after) := if d = '\\' then escaped after else (d, after)
      if high < c then
        members n false (.range high high :: .range '-' '-' :: .range c c :: acc) after
      else members n false (.range c high :: acc) after
    | _ => members n false (.range c c :: acc) rest

/-- The bounds in braces, and the rest, if there are such. -/
def interval? (cs : Bytes) : Option ((Nat × Option Nat) × Bytes) :=
  let (low, rest) := digits Char.isDigit cs.length cs
  let least := (Bytes.natural? low).getD 0
  match rest with
  | '\x7d' :: rest => if low.isEmpty then none else some ((least, some least), rest)
  | ',' :: rest =>
    let (high, rest) := digits Char.isDigit rest.length rest
    match rest with
    | '\x7d' :: rest =>
      if 2 ≤ least then some ((least, some least), rest)
      else if low.isEmpty && high.isEmpty then some ((0, some 0), rest)
      else some ((least, Bytes.natural? high), rest)
    | _ => none
  | _ => none

def isPlace : Regex → Bool
  | .start _ => true
  | _ => false

/-- Repetition signs after an operand. -/
def repeats : Nat → Regex → Bytes → Except PatternFault (Regex × Bytes)
  | 0, r, cs => .ok (r, cs)
  | n + 1, r, cs =>
    let again (least : Nat) (most : Option Nat) (rest : Bytes) : Except PatternFault (Regex × Bytes) :=
      if isPlace r then .error .placeRepeated else repeats n (.repeated r least most) rest
    match cs with
    | '*' :: rest => again 0 none rest
    | '+' :: rest => again 1 none rest
    | '?' :: rest => again 0 (some 1) rest
    | '\x7b' :: rest =>
      match interval? rest with
      | some ((least, most), rest) => again least most rest
      | none => .ok (r, cs)
    | _ => .ok (r, cs)

mutual

def alternatives : Nat → Bool → Bytes → Except PatternFault (Regex × Bytes)
  | 0, _, _ => .error .missingOperand
  | n + 1, inGroup, cs => do
    let (a, rest) ← sequence n inGroup none cs
    match rest with
    | '|' :: rest =>
      let (b, rest) ← alternatives n inGroup rest
      return (.either a b, rest)
    | _ => return (a, rest)

def sequence : Nat → Bool → Option Regex → Bytes → Except PatternFault (Regex × Bytes)
  | 0, _, _, _ => .error .missingOperand
  | n + 1, inGroup, before, cs =>
    let ended := match cs with
      | [] => true
      | c :: _ => c = '|' || (inGroup && c = ')')
    if ended then
      match before with
      | some r => .ok (r, cs)
      | none => .error .missingOperand
    else do
      let (r, rest) ← operand n cs
      let (r, rest) ← repeats (rest.length + 1) r rest
      sequence n inGroup (some (match before with
        | some b => .both b r
        | none => r)) rest

def operand : Nat → Bytes → Except PatternFault (Regex × Bytes)
  | 0, _ => .error .missingOperand
  | n + 1, cs =>
    match cs with
    | [] => .error .missingOperand
    | '(' :: rest => do
      let (r, rest) ← alternatives n true rest
      match rest with
      | ')' :: rest => return (r, rest)
      | _ => throw .missingClose
    | '.' :: rest => .ok (.any, rest)
    | '^' :: rest => .ok (.start true, rest)
    | '$' :: rest => .ok (.stop true, rest)
    | '[' :: rest => do
      let (inverted, rest) := match rest with
        | '^' :: rest => (true, rest)
        | _ => (false, rest)
      let (found, rest) ← members (rest.length + 1) true [] rest
      return (.set inverted found, rest)
    | '\\' :: rest =>
      let (c, rest) := escaped rest
      .ok (.one c, rest)
    | '*' :: _ | '+' :: _ | '?' :: _ => .error .missingOperand
    | '\x7b' :: rest => if (interval? rest).isSome then .error .missingOperand else .ok (.one '\x7b', rest)
    | c :: rest => .ok (.one c, rest)

end

/-- Reads a regular expression. The empty one fits everywhere. -/
def ofText (text : Bytes) : Except PatternFault Regex := do
  if text.isEmpty then return .empty
  else
    let (r, _) ← alternatives (4 * text.length + 8) false text
    return r

end Pattern

/-- Single lines do not matter, nor does the case of letters. -/
def patternMode : Regex.Mode := ⟨false, false, false⟩

end ValueInspector.Shell.Records
