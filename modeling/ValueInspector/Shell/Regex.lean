import Std.Data.HashSet
import ValueInspector.Shell.Pattern

/-! # Regular expressions

What a regular expression means: the places where a match that starts at a place can end, in the order
in which repetition and alternatives prefer them. Of the matches that start first, the longest one
counts, and of several ways to it the preferred one.
-/
namespace ValueInspector.Shell

inductive Regex where
  | empty
  | one (c : Char)
  | any
  | set (inverted : Bool) (members : List SetMember)
  /-- The start of a line, or of the text alone. -/
  | start (ofText : Bool)
  | stop (ofText : Bool)
  /-- A place where the bytes before and after it, as parts of words or not, pass a test. -/
  | edge (test : Bool → Bool → Bool)
  | both (a b : Regex)
  | either (a b : Regex)
  | repeated (r : Regex) (least : Nat) (most : Option Nat)
  | group (n : Nat) (r : Regex)
  /-- The text of a group again. -/
  | again (n : Nat)

namespace Regex

/-! ## Places -/

/-- A place in a text: its number, what is behind it in reverse, what is ahead, and the groups so far. -/
structure Place where
  index : Nat
  behind : Bytes
  ahead : Bytes
  groups : List (Nat × Bytes)

namespace Place

def ofText (text : Bytes) : Place := ⟨0, [], text, []⟩

def step (p : Place) : Option (Char × Place) :=
  match p.ahead with
  | [] => none
  | c :: rest => some (c, { p with index := p.index + 1, behind := c :: p.behind, ahead := rest })

/-- Takes a text that must stand at a place. -/
def take (p : Place) (text : Bytes) : Option Place :=
  (Bytes.after? text p.ahead).map fun rest =>
    { p with index := p.index + text.length, behind := text.reverse ++ p.behind, ahead := rest }

/-- The text between two places. -/
def between (p q : Place) : Bytes := p.ahead.take (q.index - p.index)

/-- The first result at one of the places in a text ahead. -/
def scanFrom {α : Type} (groups : List (Nat × Bytes)) (f : Place → Option α) :
    (ahead : Bytes) → (index : Nat) → (behind : Bytes) → Option α
  | [], index, behind => f ⟨index, behind, [], groups⟩
  | ahead@(c :: rest), index, behind =>
    match f ⟨index, behind, ahead, groups⟩ with
    | some a => some a
    | none => scanFrom groups f rest (index + 1) (c :: behind)

/-- The first result at a place or one of those ahead of it. -/
def scan {α : Type} (p : Place) (f : Place → Option α) : Option α :=
  scanFrom p.groups f p.ahead p.index p.behind

end Place

/-- Numbers of places: those near a base as bits, and the others. -/
structure PlaceSet where
  base : Nat
  near : UInt64
  far : Std.HashSet Nat

namespace PlaceSet

def empty (base : Nat) : PlaceSet := ⟨base, 0, ∅⟩

def contains (s : PlaceSet) (index : Nat) : Bool :=
  let k := index - s.base
  if k < 64 then s.near &&& ((1 : UInt64) <<< k.toUInt64) != 0 else s.far.contains index

def insert (s : PlaceSet) (index : Nat) : PlaceSet :=
  let k := index - s.base
  if k < 64 then { s with near := s.near ||| ((1 : UInt64) <<< k.toUInt64) }
  else { s with far := s.far.insert index }

/-- The first of the places with one number, after those before in reverse. -/
def firsts : PlaceSet → List Place → List Place → List Place
  | _, acc, [] => acc.reverse
  | s, acc, p :: rest => if s.contains p.index then firsts s acc rest else firsts (s.insert p.index) (p :: acc) rest

end PlaceSet

/-! ## Matching -/

/-- How expressions are taken. -/
structure Mode where
  /-- Small letters and capitals are the same. -/
  fold : Bool
  /-- A text has several lines, and each has a start and a stop. -/
  lines : Bool
  /-- Groups may stand again, so that places differ by their groups too. -/
  texts : Bool
deriving Repr

namespace Mode

def distinct (m : Mode) (ps : List Place) : List Place :=
  if m.texts then ps.eraseDupsBy fun p q => p.index = q.index && p.groups = q.groups
  else
    match ps with
    | [] | [_] => ps
    | first :: rest =>
      PlaceSet.firsts (.empty (rest.foldl (fun least p => min least p.index) first.index)) [] (first :: rest)

end Mode

/-- The test of an expression for one character. -/
def single? (m : Mode) : Regex → Option (Char → Bool)
  | .one c => some fun d => if m.fold then c.toLower = d.toLower else c = d
  | .any => some fun d => !(m.lines && d = '\n')
  | .set inverted members => some fun d =>
    let found (d : Char) : Bool := members.any (·.holds d)
    (found d || (m.fold && (found d.toLower || found d.toUpper))) != inverted &&
      !(inverted && m.lines && d = '\n')
  | _ => none

/-- The places after each of the next characters that pass a test, at most so many if there is a limit,
the farthest first. -/
def runsFrom (test : Char → Bool) (groups : List (Nat × Bytes)) :
    (ahead : Bytes) → (most : Option Nat) → (index : Nat) → (behind : Bytes) → List Place → List Place
  | [], _, index, behind, acc => ⟨index, behind, [], groups⟩ :: acc
  | ahead@(c :: rest), most, index, behind, acc =>
    let acc := ⟨index, behind, ahead, groups⟩ :: acc
    match most with
    | some 0 => acc
    | some (n + 1) => if test c then runsFrom test groups rest (some n) (index + 1) (c :: behind) acc else acc
    | none => if test c then runsFrom test groups rest none (index + 1) (c :: behind) acc else acc

/-- A repetition that got nowhere leaves its groups as they are, if they had a text before. -/
def emptyPass (p : Place) (next : List Place) : Place :=
  match next.find? (·.index = p.index) with
  | some q =>
    match q.groups with
    | (k, _) :: _ => if (p.groups.lookup k).isNone then q else p
    | [] => p
  | none => p

/-- A place to go on from, or one that is reached when all beyond it is. -/
inductive Visit where
  | enter (p : Place)
  | leave (p : Place)

/-- The places that a step reaches again and again, those reached by more steps first. -/
def closure (m : Mode) (next : Place → List Place) :
    Nat → List Visit → List Place → PlaceSet → List Place → List Place
  | 0, _, _, _, out => out.reverse
  | _, [], _, _, out => out.reverse
  | n + 1, .leave p :: todo, visited, seen, out => closure m next n todo visited seen (p :: out)
  | n + 1, .enter p :: todo, visited, seen, out =>
    let known :=
      if m.texts then visited.any fun q => p.index = q.index && p.groups = q.groups
      else seen.contains p.index
    if known then closure m next n todo visited seen out
    else
      let reached := next p
      let visited := if m.texts then p :: visited else visited
      closure m next n
        ((reached.filter (·.index ≠ p.index)).map .enter ++ .leave (emptyPass p reached) :: todo)
        visited (seen.insert p.index) out

/-- The places after a step was made so many times. -/
def times (m : Mode) (next : Place → List Place) : Nat → List Place → List Place
  | 0, ps => ps
  | n + 1, ps => if ps.isEmpty then [] else times m next n (m.distinct (ps.flatMap next))

/-- The places after a step was made at most so many times, or `p` itself. -/
def upTo (m : Mode) (next : Place → List Place) (p : Place) : Nat → List Place
  | 0 => [p]
  | n + 1 =>
    let far := m.distinct ((upTo m next p n).flatMap next ++ [p])
    if m.texts then far
    else far.map fun q => if q.index = p.index then emptyPass p [q] else q

/-- How many steps a closure may take: more than there are places to enter. -/
def closureSteps : Nat := 1000000000

/-- The places where a match that starts at a place can end, the preferred ones first. -/
def ends (m : Mode) : Regex → Place → List Place
  | .empty, p => [p]
  | .one c, p => oneStep (.one c) p
  | .any, p => oneStep .any p
  | .set inverted members, p => oneStep (.set inverted members) p
  | .start ofText, p =>
    if p.behind.isEmpty || (!ofText && m.lines && p.behind.head? = some '\n') then [p] else []
  | .stop ofText, p =>
    if p.ahead.isEmpty || (!ofText && m.lines && p.ahead.head? = some '\n') then [p] else []
  | .edge test, p =>
    if test (p.behind.head?.any Bytes.isNameChar) (p.ahead.head?.any Bytes.isNameChar) then [p] else []
  | .both a b, p =>
    match ends m a p with
    | [] => []
    | [q] => ends m b q
    | qs =>
      let reached := qs.flatMap (ends m b)
      match single? m b with
      | some _ => reached
      | none => m.distinct reached
  | .either a b, p => m.distinct (ends m a p ++ ends m b p)
  | .repeated r least most, p =>
    match single? m r with
    | some test =>
      let all := runsFrom test p.groups p.ahead most p.index p.behind []
      all.take (all.length - least)
    | none =>
      let next := ends m r
      let begun := times m next least [p]
      match most with
      | none => m.distinct (begun.flatMap fun q => closure m next closureSteps [.enter q] [] (.empty q.index) [])
      | some k => m.distinct (begun.flatMap fun q => upTo m next q (k - least))
  | .group k r, p =>
    (ends m r p).map fun q => { q with groups := (k, p.between q) :: q.groups.filter (·.1 ≠ k) }
  | .again k, p =>
    match p.groups.lookup k with
    | some text =>
      if m.fold then
        if (p.ahead.take text.length).map Char.toLower = text.map Char.toLower then
          (p.take (p.ahead.take text.length)).toList
        else []
      else (p.take text).toList
    | none => []
where
  oneStep (r : Regex) (p : Place) : List Place :=
    match single? m r, p.step with
    | some test, some (d, q) => if test d then [q] else []
    | _, _ => []

/-- The end of the longest match at a place. -/
def matchAt? (m : Mode) (r : Regex) (p : Place) : Option Place :=
  (ends m r { p with groups := [] }).foldl
    (fun best q =>
      match best with
      | some b => if b.index < q.index then some q else best
      | none => some q)
    none

/-- The first match from a place on: where it starts and where it ends. -/
def search? (m : Mode) (r : Regex) (p : Place) : Option (Place × Place) :=
  p.scan fun start => (matchAt? m r start).map (start, ·)

def occursIn (m : Mode) (r : Regex) (text : Bytes) : Bool := (search? m r (.ofText text)).isSome

/-- The expression that fits a text as it stands. -/
def ofLiteral (text : Bytes) : Regex := text.foldl (fun r c => .both r (.one c)) .empty

/-- Whether a group stands again. -/
def refersBack : Regex → Bool
  | .again _ => true
  | .both a b | .either a b => refersBack a || refersBack b
  | .repeated r _ _ | .group _ r => refersBack r
  | _ => false

def hasGroups : Regex → Bool
  | .group _ _ => true
  | .both a b | .either a b => hasGroups a || hasGroups b
  | .repeated r _ _ => hasGroups r
  | _ => false

/-- Single lines, small letters and capitals apart or not. -/
def modeFor (r : Regex) (fold : Bool) : Mode := ⟨fold, false, r.refersBack⟩

end Regex
end ValueInspector.Shell
