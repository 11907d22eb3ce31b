import ValueInspector.Shell.Bytes

/-! # Patterns

Patterns of the shell, with `*` for any text, `?` for any byte and sets in brackets. A quoted byte
stands for itself.
-/
namespace ValueInspector.Shell

/-- A byte of an expanded word, and whether it was quoted. -/
structure Marked where
  char : Char
  quoted : Bool
deriving DecidableEq, Repr

namespace Marked

def text (ms : List Marked) : Bytes := ms.map (·.char)

def plain (cs : Bytes) : List Marked := cs.map fun c => ⟨c, false⟩

end Marked

/-- A member of a set of bytes. -/
inductive SetMember where
  | range (low high : Char)
  | named (test : Char → Bool)

def SetMember.holds (m : SetMember) (c : Char) : Bool :=
  match m with
  | .range low high => low ≤ c && c ≤ high
  | .named test => test c

inductive PatternItem where
  | one (c : Char)
  | any
  | many
  | set (inverted : Bool) (members : List SetMember)

abbrev Pattern := List PatternItem

namespace Pattern

def isPunctuation (c : Char) : Bool :=
  let n := c.toNat
  (33 ≤ n && n ≤ 126) && !c.isAlphanum

/-- The classes that a set may name. -/
def classOf? (name : Bytes) : Option (Char → Bool) :=
  List.lookup (String.ofList name)
    [("alpha", Char.isAlpha), ("digit", Char.isDigit), ("alnum", Char.isAlphanum),
     ("upper", Char.isUpper), ("lower", Char.isLower), ("space", Bytes.isSpace),
     ("blank", Bytes.isBlank), ("punct", isPunctuation),
     ("print", fun c => 32 ≤ c.toNat && c.toNat ≤ 126),
     ("graph", fun c => 33 ≤ c.toNat && c.toNat ≤ 126),
     ("cntrl", fun c => c.toNat < 32 || c.toNat = 127),
     ("xdigit", fun c => c.isDigit || ('a' ≤ c && c ≤ 'f') || ('A' ≤ c && c ≤ 'F'))]

/-- A class at the front of a set, after its bracket, and the rest. -/
def namedClass? (ms : List Marked) : Option ((Char → Bool) × List Marked) :=
  match ms with
  | ⟨':', false⟩ :: rest =>
    let name := rest.takeWhile fun m => m.char.isAlpha
    match rest.drop name.length with
    | ⟨':', false⟩ :: ⟨']', false⟩ :: rest => (classOf? (Marked.text name)).map (·, rest)
    | _ => none
  | _ => none

/-- The members of a set up to its closing bracket, and the rest. The bracket may be the first
member. -/
def members : Nat → Bool → List SetMember → List Marked → Option (List SetMember × List Marked)
  | 0, _, _, _ => none
  | _ + 1, _, _, [] => none
  | n + 1, first, acc, m :: rest =>
    if m.char = ']' && !m.quoted && !first then some (acc, rest)
    else
      match (if m.char = '[' && !m.quoted then namedClass? rest else none) with
      | some (test, rest) => members n false (.named test :: acc) rest
      | none =>
        let (m, rest) := match (if m.char = '\\' && !m.quoted then rest else []) with
          | e :: rest => (e, rest)
          | [] => (m, rest)
        match rest with
        | ⟨'-', false⟩ :: high :: after =>
          if high.char = ']' && !high.quoted then
            members n false (.range m.char m.char :: acc) rest
          else members n false (.range m.char high.char :: acc) after
        | _ => members n false (.range m.char m.char :: acc) rest

/-- A set after its opening bracket, and the rest. -/
def set? (ms : List Marked) : Option (PatternItem × List Marked) :=
  let (inverted, ms) := match ms with
    | ⟨'!', false⟩ :: rest => (true, rest)
    | _ => (false, ms)
  (members (ms.length + 1) true [] ms).map fun (found, rest) => (.set inverted found, rest)

def ofMarkedFrom : Nat → List Marked → Pattern
  | 0, _ => []
  | _ + 1, [] => []
  | n + 1, m :: rest =>
    if m.quoted then .one m.char :: ofMarkedFrom n rest
    else if m.char = '*' then .many :: ofMarkedFrom n rest
    else if m.char = '?' then .any :: ofMarkedFrom n rest
    else if m.char = '\\' then
      match rest with
      | e :: rest => .one e.char :: ofMarkedFrom n rest
      | [] => [.one '\\']
    else if m.char = '[' then
      match set? rest with
      | some (item, rest) => item :: ofMarkedFrom n rest
      | none => .one '[' :: ofMarkedFrom n rest
    else .one m.char :: ofMarkedFrom n rest

/-- The pattern that an expanded word stands for. -/
def ofMarked (ms : List Marked) : Pattern := ofMarkedFrom ms.length ms

/-- A text and all its parts up to its end, the longest first, after those before in reverse. -/
def suffixesFrom : List Bytes → Bytes → List Bytes
  | acc, [] => ([] :: acc).reverse
  | acc, cs@(_ :: rest) => suffixesFrom (cs :: acc) rest

/-- What may be left of texts after an item, the longest first as before. -/
def restsAfter (texts : List Bytes) (item : PatternItem) : List Bytes :=
  let single (test : Char → Bool) : List Bytes := texts.filterMap fun
    | c :: cs => if test c then some cs else none
    | [] => none
  match item with
  | .one c => single (· = c)
  | .any => single fun _ => true
  | .set inverted found => single fun c => (found.any (·.holds c)) != inverted
  | .many =>
    match texts with
    | longest :: _ => suffixesFrom [] longest
    | [] => []

/-- What may be left of a text after a part of it that fits, the longest first. -/
def rests (p : Pattern) (cs : Bytes) : List Bytes := p.foldl restsAfter [cs]

/-- Whether the whole text fits. -/
def fits (p : Pattern) (cs : Bytes) : Bool := (p.rests cs).any (·.isEmpty)

/-- Whether a pattern is more than literal text. -/
def isProper (p : Pattern) : Bool := p.any fun
  | .one _ => false
  | _ => true

/-- Removes a fitting part at the front or the back: the shortest, or the longest. Nothing is removed
if no part fits. A part counts up to its first zero byte, which ends a field in a list of fields. -/
def trim (front longest : Bool) (p : Pattern) (cs : Bytes) : Bytes :=
  let mark := Char.ofNat 0
  if cs.contains mark then
    let cuts := List.range (cs.length + 1)
    let cuts := if front = longest then cuts.reverse else cuts
    let part (cut : Nat) : Bytes := (if front then cs.take cut else cs.drop cut).takeWhile (· ≠ mark)
    match cuts.find? fun cut => p.fits (part cut) with
    | some cut => if front then cs.drop cut else cs.take cut
    | none => cs
  else
    let rests := if front then p.rests cs else rests p.reverse cs.reverse
    match if longest then rests.getLast? else rests.head? with
    | some rest => if front then rest else rest.reverse
    | none => cs

end Pattern
end ValueInspector.Shell
