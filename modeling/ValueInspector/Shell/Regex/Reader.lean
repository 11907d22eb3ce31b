import ValueInspector.Shell.Regex

/-! # Reading regular expressions

Basic expressions, whose operators stand after backslashes, and extended ones. Programs differ in what
they make of operators that have nothing to work on, and of signs without their partners.
-/
namespace ValueInspector.Shell

/-- Why a text is no regular expression. -/
inductive RegexFault where
  | nothingToRepeat
  | openGroup
  | openInterval
  | openSet
  | lonelyClose
  | interval
  | tooBig
  | className
  | classBrackets
  | range
  | character
  | reference
  | backslash
deriving DecidableEq, Repr

def RegexFault.text : RegexFault → Bytes
  | .nothingToRepeat => bytes "Invalid preceding regular expression"
  | .openGroup => bytes "Unmatched ( or \\("
  | .openInterval => bytes "Unmatched \\\x7b"
  | .openSet => bytes "Unmatched [, [^, [:, [., or [="
  | .lonelyClose => bytes "Unmatched ) or \\)"
  | .interval => bytes "Invalid content of \\\x7b\\\x7d"
  | .tooBig => bytes "Regular expression too big"
  | .className => bytes "Invalid character class name"
  | .classBrackets => bytes "character class syntax is [[:space:]], not [:space:]"
  | .range => bytes "Invalid range end"
  | .character => bytes "Invalid collation character"
  | .reference => bytes "Invalid back reference"
  | .backslash => bytes "Trailing backslash"

namespace Regex

/-- What becomes of a repetition sign with nothing to repeat. -/
inductive Stray where
  | refused
  | skipped
  | literal
deriving DecidableEq, Repr

/-- A way of writing regular expressions. -/
structure Dialect where
  extended : Bool
  stray : Stray
  /-- No repetition sign may follow another one at once. -/
  once : Bool
  /-- Braces that are no interval, and a closing sign without its partner, stand for themselves. -/
  lenient : Bool
  /-- Letters after a backslash stand for classes and places, and digits for groups. -/
  classes : Bool
deriving Repr

namespace Dialect

def basic : Dialect := ⟨false, .literal, false, false, true⟩
def strictBasic : Dialect := ⟨false, .literal, true, false, true⟩
def lenientExtended : Dialect := ⟨true, .skipped, false, true, true⟩
def strictExtended : Dialect := ⟨true, .refused, false, false, true⟩

/-- An operator that stands after a backslash in basic expressions. -/
def sign (d : Dialect) (c : Char) : Bytes := if d.extended then [c] else ['\\', c]

def opens? (d : Dialect) (cs : Bytes) : Option Bytes := Bytes.after? (d.sign '(') cs
def closes? (d : Dialect) (cs : Bytes) : Option Bytes := Bytes.after? (d.sign ')') cs
def separates? (d : Dialect) (cs : Bytes) : Option Bytes := Bytes.after? (d.sign '|') cs

end Dialect

/-! ## Sets -/

/-- An element of a set. -/
inductive Element where
  | char (c : Char)
  | named (test : Char → Bool)

/-- The name in a pair of brackets within a set, and what follows it. -/
def nameUpTo (mark : Char) : Bytes → Bytes → Option (Bytes × Bytes)
  | acc, c :: ']' :: rest => if c = mark then some (acc.reverse, rest) else nameUpTo mark (c :: acc) (']' :: rest)
  | acc, c :: rest => nameUpTo mark (c :: acc) rest
  | _, [] => none
termination_by _ cs => cs.length

def element (cs : Bytes) : Except RegexFault (Element × Bytes) :=
  match cs with
  | '[' :: ':' :: rest =>
    match nameUpTo ':' [] rest with
    | none => .error .openSet
    | some (name, rest) =>
      match Pattern.classOf? name with
      | some test => .ok (.named test, rest)
      | none => .error .className
  | '[' :: mark :: rest =>
    if mark = '.' || mark = '=' then
      match nameUpTo mark [] rest with
      | none => .error .openSet
      | some ([c], rest) => .ok (.char c, rest)
      | some _ => .error .character
    else .ok (.char '[', mark :: rest)
  | c :: rest => .ok (.char c, rest)
  | [] => .error .openSet

/-- The members of a set up to its closing bracket, and the rest. The bracket may be the first
member. -/
def elements : Nat → Bool → List SetMember → Bytes → Except RegexFault (List SetMember × Bytes)
  | 0, _, _, _ => .error .openSet
  | n + 1, first, acc, cs =>
    match cs with
    | [] => .error .openSet
    | c :: after =>
      if c = ']' && !first then .ok (acc, after)
      else do
        let (low, rest) ← element cs
        match rest with
        | '-' :: more =>
          if more.head? = some ']' then elements n false (memberOf low :: acc) rest
          else
            let (high, rest) ← element more
            match low, high with
            | .char a, .char b =>
              if b < a then throw .range else elements n false (.range a b :: acc) rest
            | _, _ => throw .range
        | _ => elements n false (memberOf low :: acc) rest
where
  memberOf : Element → SetMember
    | .char c => .range c c
    | .named test => .named test

/-- A set after its opening bracket, and the rest. A class name whose outer brackets are missing is
refused. -/
def setOf (cs : Bytes) : Except RegexFault (Regex × Bytes) := do
  let (inverted, cs) := match cs with
    | '^' :: rest => (true, rest)
    | _ => (false, cs)
  let (found, rest) ← elements (cs.length + 1) true [] cs
  let inside := cs.take (cs.length - rest.length - 1)
  let plain := found.length = inside.length
  if plain && 2 < inside.length && inside.head? = some ':' && inside.getLast? = some ':' then
    throw .classBrackets
  else return (.set inverted found, rest)

/-! ## Atoms and repetition -/

/-- A regular expression being read: what is left of it, how many groups were opened so far, and which
ones are complete. -/
structure Source where
  rest : Bytes
  groups : Nat
  complete : List Nat

abbrev Reader (α : Type) := Source → Except RegexFault (α × Source)

/-- More repetitions than this are refused. -/
def repeatLimit : Nat := 32767

/-- The bounds in an interval after its opening brace, and what follows it. -/
def interval (d : Dialect) (cs : Bytes) : Except RegexFault ((Nat × Option Nat) × Bytes) := do
  let close := d.sign '\x7d'
  let low := cs.takeWhile Char.isDigit
  let after := cs.drop low.length
  let (high, after) : Option Bytes × Bytes := match after with
    | ',' :: rest =>
      let high := rest.takeWhile Char.isDigit
      (some high, rest.drop high.length)
    | _ => (none, after)
  let least := Bytes.natural? low
  let most : Option Nat := match high with
    | none => least
    | some h => Bytes.natural? h
  match Bytes.after? close after with
  | some rest =>
    if low.isEmpty && high.isNone then throw .interval
    else
      let least := least.getD 0
      if most.any (· < least) then throw .interval
      else if repeatLimit < max least (most.getD 0) then throw .tooBig
      else return ((least, most), rest)
  | none =>
    -- without its partner the brace is open; with anything else between, the content is wrong
    let closed := (List.range after.length).any fun k => (Bytes.after? close (after.drop k)).isSome
    throw (if closed then .interval else .openInterval)

/-- Whether what follows an opening brace is so close to an interval that the brace cannot stand for
itself: nothing at all, numbers in the wrong order, or more than two of them. -/
def mustBeInterval (cs : Bytes) : Bool :=
  let low := cs.takeWhile Char.isDigit
  match cs.drop low.length with
  | '\x7d' :: _ => low.isEmpty
  | ',' :: rest =>
    let high := rest.takeWhile Char.isDigit
    match rest.drop high.length with
    | ',' :: _ => true
    | '\x7d' :: _ => (Bytes.natural? high).any (· < (Bytes.natural? low).getD 0)
    | _ => false
  | _ => false

/-- The bounds of a repetition sign at the front of a text, and the rest. -/
def repetition? (d : Dialect) (cs : Bytes) :
    Except RegexFault (Option ((Nat × Option Nat) × Bytes)) := do
  match cs with
  | '*' :: rest => return some ((0, none), rest)
  | _ =>
    match Bytes.after? (d.sign '+') cs with
    | some rest => return some ((1, none), rest)
    | none =>
      match Bytes.after? (d.sign '?') cs with
      | some rest => return some ((0, some 1), rest)
      | none =>
        match Bytes.after? (d.sign '\x7b') cs with
        | some rest =>
          match interval d rest with
          | .ok found => return some found
          | .error f =>
            if d.lenient && f ≠ .tooBig && !mustBeInterval rest then return none else throw f
        | none => return none

/-- Repetition signs after an atom. -/
def repeatsOf (d : Dialect) : Nat → Regex → Bytes → Except RegexFault (Regex × Bytes)
  | 0, r, cs => .ok (r, cs)
  | n + 1, r, cs => do
    match ← repetition? d cs with
    | none => return (r, cs)
    | some ((least, most), rest) =>
      let again := rest.head? = some '*' || (Bytes.after? (d.sign '\x7b') rest).isSome
      if d.once && again then throw .nothingToRepeat
      else repeatsOf d n (.repeated r least most) rest

/-- What a letter after a backslash stands for. -/
def escapeOf (c : Char) : Regex :=
  let word : List SetMember := [.named Bytes.isNameChar]
  let space : List SetMember := [.named Bytes.isSpace]
  match c with
  | 'w' => .set false word
  | 'W' => .set true word
  | 's' => .set false space
  | 'S' => .set true space
  | 'b' => .edge fun before after => before != after
  | 'B' => .edge fun before after => before = after
  | '<' => .edge fun before after => !before && after
  | '>' => .edge fun before after => before && !after
  | '\x60' => .start true
  | '\x27' => .stop true
  | c => .one c

/-- Whether an atom is only a place, which cannot be repeated. -/
def isPlace : Regex → Bool
  | .start _ | .stop _ | .edge _ => true
  | _ => false

/-- A repetition sign with nothing before it: what becomes of it, the sign, and the rest. -/
def stray (d : Dialect) (cs : Bytes) : Except RegexFault (Option (Stray × Char × Bytes)) := do
  let brace := (Bytes.after? (d.sign '\x7b') cs).isSome
  let signs := ['*'] :: (['+', '?', '\x7b'].map d.sign)
  match signs.findSome? fun w => (Bytes.after? w cs).map fun rest => (w.getLast?.getD '*', rest) with
  | none => return none
  | some (c, rest) =>
    if brace && d.once then throw .nothingToRepeat
    else
      match d.stray with
      | .refused => throw .nothingToRepeat
      | .literal => return some (.literal, c, rest)
      | .skipped =>
        if brace then
          match interval d (rest) with
          | .ok (_, rest) => return some (.skipped, c, rest)
          | .error _ => return some (.literal, c, rest)
        else return some (.skipped, c, rest)

mutual

def alternatives (d : Dialect) (inGroup : Bool) : Nat → Reader Regex
  | 0, _ => .error .tooBig
  | n + 1, s => do
    let (a, s) ← sequence d inGroup n true .empty s
    match d.separates? s.rest with
    | some rest =>
      let (b, s) ← alternatives d inGroup n { s with rest }
      return (.either a b, s)
    | none => return (a, s)

/-- Atoms one after the other; `first` where a caret is the start of a line. -/
def sequence (d : Dialect) (inGroup : Bool) : Nat → Bool → Regex → Reader Regex
  | 0, _, _, _ => .error .tooBig
  | n + 1, first, before, s =>
    let finished := s.rest.isEmpty || (inGroup && (d.closes? s.rest).isSome) ||
      (d.separates? s.rest).isSome
    if finished then .ok (before, s)
    else do
      let (r, s) ← atom d n first s
      let (r, rest) ← if isPlace r then pure (r, s.rest) else repeatsOf d (s.rest.length + 1) r s.rest
      sequence d inGroup n (isPlace r) (.both before r) { s with rest }

def atom (d : Dialect) : Nat → Bool → Reader Regex
  | 0, _, _ => .error .tooBig
  | n + 1, first, s =>
    match d.opens? s.rest with
    | some rest => do
      let k := s.groups + 1
      let (r, s) ← alternatives d true n { s with rest, groups := k }
      match d.closes? s.rest with
      | some rest => return (.group k r, { s with rest, complete := k :: s.complete })
      | none => throw .openGroup
    | none => plainAtom d n first s

/-- An atom that is no group. -/
def plainAtom (d : Dialect) : Nat → Bool → Reader Regex
  | 0, _, _ => .error .tooBig
  | n + 1, first, s => do
    match ← stray d s.rest with
    | some (.skipped, _, rest) =>
      if rest.isEmpty || (d.separates? rest).isSome || (d.closes? rest).isSome then
        return (.empty, { s with rest })
      else atom d n first { s with rest }
    | some (_, c, rest) => return (.one c, { s with rest })
    | none =>
      if (d.closes? s.rest).isSome && !d.lenient then throw .lonelyClose
      else
        match s.rest with
        | [] => return (.empty, s)
        | '.' :: rest => return (.any, { s with rest })
        | '[' :: rest =>
          let (r, rest) ← setOf rest
          return (r, { s with rest })
        | '^' :: rest =>
          return (if d.extended || first then .start false else .one '^', { s with rest })
        | '$' :: rest =>
          let last := d.extended || rest.isEmpty || (d.closes? rest).isSome ||
            (d.separates? rest).isSome
          return (if last then .stop false else .one '$', { s with rest })
        | '\\' :: [] => throw .backslash
        | '\\' :: c :: rest =>
          if !d.classes then return (.one c, { s with rest })
          else if '1' ≤ c && c ≤ '9' then
            let k := c.toNat - '0'.toNat
            if k ∈ s.complete then return (.again k, { s with rest }) else throw .reference
          else return (escapeOf c, { s with rest })
        | c :: rest => return (.one c, { s with rest })

end

/-- Reads a whole regular expression. -/
def ofText (d : Dialect) (text : Bytes) : Except RegexFault Regex := do
  let (r, s) ← alternatives d false (6 * text.length + 12) ⟨text, 0, []⟩
  if s.rest.isEmpty then return r
  else throw .lonelyClose

end Regex
end ValueInspector.Shell
