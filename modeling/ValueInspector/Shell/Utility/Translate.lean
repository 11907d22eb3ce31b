import ValueInspector.Shell.Pattern
import ValueInspector.Shell.Utility.Basic

/-! # Translating bytes

`tr` replaces, removes or squeezes bytes. Its sets are written as bytes, ranges, classes and repeated
bytes, and the order of the elements matters.
-/
namespace ValueInspector.Shell.Utility

/-- An element of a set. -/
inductive TranslateElement where
  | range (low high : Char)
  | named (name : Bytes) (test : Char → Bool)
  | equivalent (c : Char)
  /-- A byte so many times; as often as needed if there is no number. -/
  | repeated (c : Char) (count : Option Nat)

namespace TranslateElement

/-- The bytes for which a test holds, in order. -/
def ofTest (test : Char → Bool) : Bytes := ((List.range 256).map Char.ofNat).filter test

/-- The bytes of an element, with so many of one that is repeated as needed. -/
def expand (missing : Nat) : TranslateElement → Bytes
  | .range low high => (List.range (high.toNat + 1 - low.toNat)).map fun k => Char.ofNat (low.toNat + k)
  | .named _ test => ofTest test
  | .equivalent c => [c]
  | .repeated c count => List.replicate (count.getD missing) c

def isOpen : TranslateElement → Bool
  | .repeated _ none => true
  | _ => false

/-- A class that pairs with another one of letters. -/
def isCase : TranslateElement → Bool
  | .named name _ => name = bytes "upper" || name = bytes "lower"
  | _ => false

def isNamed : TranslateElement → Bool
  | .named _ _ => true
  | _ => false

end TranslateElement

namespace TranslateSet

/-- Takes the escapes of a set apart. Escaped bytes have no special meaning. -/
def marked : Nat → Bytes → List Marked
  | 0, _ => []
  | n + 1, cs =>
    match cs with
    | [] => []
    | '\\' :: c :: rest =>
      if '0' ≤ c && c ≤ '7' then
        let digits := (c :: rest).take 3 |>.takeWhile fun d => '0' ≤ d && d ≤ '7'
        let digits := if 255 < (Text.readDigits? 8 digits).getD 0 then digits.take 2 else digits
        let value := (Text.readDigits? 8 digits).getD 0
        ⟨Char.ofNat value, true⟩ :: marked n ((c :: rest).drop digits.length)
      else
        let found := List.lookup c
          [('a', Char.ofNat 7), ('b', Char.ofNat 8), ('f', Char.ofNat 12), ('n', '\n'), ('r', '\r'),
           ('t', '\t'), ('v', Char.ofNat 11)]
        ⟨found.getD c, true⟩ :: marked n rest
    | c :: rest => ⟨c, false⟩ :: marked n rest

/-- The text up to a sign and a closing bracket, and the rest. -/
def closing (sign : Char) : Bytes → List Marked → Option (Bytes × List Marked)
  | acc, ⟨c, false⟩ :: ⟨']', false⟩ :: rest =>
    if c = sign then some (acc.reverse, rest) else closing sign (c :: acc) (⟨']', false⟩ :: rest)
  | acc, m :: rest => closing sign (m.char :: acc) rest
  | _, [] => none
termination_by _ ms => ms.length

/-- A byte and an asterisk, perhaps with a number, up to a closing bracket. -/
def repeated? (ms : List Marked) : Except Bytes (Option (TranslateElement × List Marked)) :=
  match ms with
  | c :: ⟨'*', false⟩ :: rest =>
    let inside := rest.takeWhile fun m => !(m.char = ']' && !m.quoted)
    match rest.drop inside.length with
    | [] => .ok none
    | _ :: after =>
      let digits := Marked.text inside
      let value := match digits with
        | '0' :: _ => Text.readDigits? 8 digits
        | _ => Bytes.natural? digits
      match digits, value with
      | [], _ => .ok (some (.repeated c.char none, after))
      | _, some 0 => .ok (some (.repeated c.char none, after))
      | _, some n => .ok (some (.repeated c.char (some n), after))
      | _, none =>
        .error (bytes "invalid repeat count " ++ quoted digits ++ bytes " in [c*n] construct")
  | _ => .ok none

/-- An element that is written in brackets, after the opening one. -/
def bracketed? (ms : List Marked) : Except Bytes (Option (TranslateElement × List Marked)) :=
  let starred (rest : List Marked) : Bool :=
    -- such as an asterisk, digits and a bracket
    match rest with
    | ⟨'*', false⟩ :: more =>
      (more.dropWhile fun m => m.char.isDigit && !m.quoted).head?.any fun m => m.char = ']' && !m.quoted
    | _ => false
  match ms with
  | ⟨sign, false⟩ :: rest =>
    if sign = ':' || sign = '=' then
      match closing sign [] rest with
      | none => repeated? ms
      | some (name, after) =>
        if sign = ':' then
          if name.isEmpty then .error (bytes "missing character class name '[::]'")
          else
            match Pattern.classOf? name with
            | some test => .ok (some (.named name test, after))
            | none =>
              if starred rest then repeated? ms
              else .error (bytes "invalid character class " ++ quoted name)
        else
          match name with
          | [c] => .ok (some (.equivalent c, after))
          | [] => .error (bytes "missing equivalence class character '[==]'")
          | _ =>
            if starred rest then repeated? ms
            else
              .error (name ++ bytes ": equivalence class operand must be a single character")
    else repeated? ms
  | _ => repeated? ms

def elements : Nat → List Marked → Except Bytes (List TranslateElement)
  | 0, _ => .ok []
  | n + 1, ms => do
    match ms with
    | [] => return []
    | m :: rest =>
      let special ← if m.char = '[' && !m.quoted && 2 ≤ rest.length then bracketed? rest else pure none
      match special with
      | some (e, after) => return e :: (← elements n after)
      | none =>
        match rest with
        | ⟨'-', false⟩ :: high :: after =>
          if high.char < m.char then
            throw (bytes "range-endpoints of '" ++ [m.char, '-', high.char] ++
              bytes "' are in reverse collating sequence order")
          else return .range m.char high.char :: (← elements n after)
        | _ => return .range m.char m.char :: (← elements n rest)

def ofText (text : Bytes) : Except Bytes (List TranslateElement) :=
  let ms := marked (text.length + 1) text
  elements (ms.length + 1) ms

/-- All bytes of a set, in order; one that is repeated as needed fills it up to a length. -/
def expand (es : List TranslateElement) (length : Nat) : Bytes :=
  let fixed := (es.map fun e => (e.expand 0).length).foldl (· + ·) 0
  es.flatMap (·.expand (length - fixed))

/-- Where the elements of a set begin that are classes of small letters or capitals. -/
def casePlaces (es : List TranslateElement) : List Nat :=
  let sizes := es.map fun e => (e.expand 0).length
  (es.zipIdx 0).filterMap fun (e, k) =>
    if e.isCase then some ((sizes.take k).foldl (· + ·) 0) else none

end TranslateSet

/-- What becomes of bytes: which ones are removed, what replaces the others, and which ones are squeezed. -/
structure Translation where
  removed : Char → Bool
  table : List (Char × Char)
  squeezed : Char → Bool

namespace Translation

/-- All pairs of bytes as a table by number. -/
def tableOf (pairs : List (Char × Char)) : Array Char :=
  pairs.foldl (fun t p => t.setIfInBounds p.1.toNat p.2) ((List.range 256).map Char.ofNat).toArray

/-- Translates a piece of input; the state is the last byte that went out. -/
def stage (t : Translation) : Stage (Option Char) :=
  let table := tableOf t.table
  let removed := ((List.range 256).map fun k => t.removed (Char.ofNat k)).toArray
  let squeezed := ((List.range 256).map fun k => t.squeezed (Char.ofNat k)).toArray
  let step (last : Option Char) (data : Bytes) : Option Char × Bytes × Bool :=
    let (last, out) := data.foldl
      (fun ((last, out) : Option Char × Bytes) c =>
        if (removed[c.toNat]?).getD false then (last, out)
        else
          let d := (table[c.toNat]?).getD c
          if last = some d && (squeezed[d.toNat]?).getD false then (last, out) else (some d, d :: out))
      (last, [])
    (last, out.reverse, false)
  ⟨step, fun _ => []⟩

/-- The translation from one set to another, or why there is none. -/
def between (complemented shortened : Bool) (es1 es2 : List TranslateElement) :
    Except Bytes (List (Char × Char) × Bytes) := do
  let named := es1.any TranslateElement.isNamed
  let set1 := TranslateSet.expand es1 0
  let set1 := if complemented then TranslateElement.ofTest (· ∉ set1) else set1
  let set2 := TranslateSet.expand es2 set1.length
  if es2.any fun e => match e with
      | .equivalent _ => true
      | _ => false then
    throw (bytes "[=c=] expressions may not appear in string2 when translating")
  if es2.any fun e => e.isNamed && !e.isCase then
    throw (bytes "when translating, the only character classes that may appear in " ++
      bytes "string2 are 'upper' and 'lower'")
  if !complemented && !(TranslateSet.casePlaces es2).all (· ∈ TranslateSet.casePlaces es1) then
    throw (bytes "misaligned [:upper:] and/or [:lower:] construct")
  let long := set2.length < set1.length && !shortened
  if long && set2.isEmpty then
    throw (bytes "when not truncating set1, string2 must be non-empty")
  if long && es2.getLast?.any TranslateElement.isCase then
    throw (bytes "when translating with string1 longer than string2, " ++
      bytes "the latter string must not end with a character class")
  let padded := if long then
      set2 ++ List.replicate (set1.length - set2.length) (set2.getLast?.getD ' ')
    else set2
  if complemented && named && !(padded.length = set1.length && padded.all (some · = padded.head?)) then
    throw (bytes "when translating with complemented character classes, " ++
      bytes "string2 must map all characters in the domain to one")
  return (set1.zip padded, padded)

end Translation

def tr : Utility :=
  let manual : Manual :=
    { usage := " [OPTION]... STRING1 [STRING2]", version := versionOf "tr"
      options := ["c,C,complement", "d,delete", "s,squeeze-repeats", "t,truncate-set1"]
      mixed := false, trouble := 1 }
  withOptions manual fun o rest i => do
    let (complemented, deletes, squeezes) := (o.has "c", o.has "d", o.has "s")
    let translates := !deletes && (!squeezes || rest.length = 2)
    let most := if deletes && !squeezes then 1 else 2
    match rest with
    | [] => refuseUse i (bytes "missing operand") 1
    | first :: others =>
      if others.isEmpty && (translates || (deletes && squeezes)) then
        let reason := if deletes then
            "Two strings must be given when both deleting and squeezing repeats."
          else "Two strings must be given when translating."
        refuseUse i (bytes "missing operand after " ++ quoted first ++ '\n' :: bytes reason) 1
      else if most < rest.length then
        let extra := (rest[most]?).getD []
        let reason := if most = 1 && rest.length = 2 then
            bytes "\nOnly one string may be given when deleting without squeezing repeats."
          else []
        refuseUse i (bytes "extra operand " ++ quoted extra ++ reason) 1
      else
        let sets : Except Bytes (List TranslateElement × List TranslateElement) := do
          let es1 ← TranslateSet.ofText first
          let es2 ← TranslateSet.ofText (others.head?.getD [])
          if es1.any TranslateElement.isOpen then
            throw (bytes "the [c*] repeat construct may not appear in string1")
          if 1 < (es2.filter TranslateElement.isOpen).length then
            throw (bytes "only one [c*] repeat construct may appear in string2")
          if !translates && es2.any TranslateElement.isOpen then
            throw (bytes "the [c*] construct may appear in string2 only when translating")
          return (es1, es2)
        let translation : Except Bytes Translation := do
          let (es1, es2) ← sets
          let set1 := TranslateSet.expand es1 0
          let first (c : Char) : Bool := (c ∈ set1) != complemented
          let none (_ : Char) : Bool := false
          if translates then
            let (table, set2) ← Translation.between complemented (o.has "t") es1 es2
            return ⟨none, table, if squeezes then (· ∈ set2) else none⟩
          else if deletes then
            let set2 := TranslateSet.expand es2 0
            return ⟨first, [], if squeezes then (· ∈ set2) else none⟩
          else return ⟨none, [], first⟩
        match translation with
        | .error message => refuse i message 1
        | .ok t => stream i [] t.stage Option.none

end ValueInspector.Shell.Utility
