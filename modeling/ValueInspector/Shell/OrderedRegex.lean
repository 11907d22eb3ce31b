import ValueInspector.Shell.Regex

/-! # Regular expressions with an order

Expressions in which the order of the ways to match is part of the meaning: alternatives count from left
to right, repetitions say whether more or fewer rounds come first, and of all matches at a place the
first one counts, however long it is. Such expressions may look around, may cut off ways, and may stand
for a part of themselves.
-/
namespace ValueInspector.Shell

open Regex (Place Mode)

inductive OrderedRegex where
  | empty
  | one (test : Char → Bool)
  | place (test : Place → Bool)
  | both (a b : OrderedRegex)
  | either (a b : OrderedRegex)
  /-- Rounds within bounds; if `few` holds, fewer of them come first. -/
  | repeated (r : OrderedRegex) (least : Nat) (most : Option Nat) (few : Bool)
  | group (n : Nat) (r : OrderedRegex)
  /-- The text of a group again. -/
  | again (n : Nat) (fold : Bool)
  /-- Whether a match starts here, as wanted or not. -/
  | ahead (wanted : Bool) (r : OrderedRegex)
  /-- Whether a match of a fixed width ends here, as wanted or not. -/
  | behind (wanted : Bool) (width : Nat) (r : OrderedRegex)
  /-- The first way alone. -/
  | first (r : OrderedRegex)
  /-- What is shown of the match begins here. -/
  | keep
  /-- The expression of a group again, or the whole expression for number zero. -/
  | part (n : Nat)
  /-- The one or the other, depending on whether a group has a text. -/
  | ifGroup (n : Nat) (a b : OrderedRegex)

namespace OrderedRegex

/-- The expression of a group. -/
def groupOf? (n : Nat) : OrderedRegex → Option OrderedRegex
  | .both a b | .either a b | .ifGroup _ a b => (groupOf? n a).or (groupOf? n b)
  | .repeated r _ _ _ | .ahead _ r | .behind _ _ r | .first r => groupOf? n r
  | .group k r => if k = n then some r else groupOf? n r
  | _ => none

/-- Whether the texts of groups matter to what comes later. -/
def usesTexts : OrderedRegex → Bool
  | .again _ _ | .keep | .ifGroup _ _ _ => true
  | .both a b | .either a b => usesTexts a || usesTexts b
  | .repeated r _ _ _ | .ahead _ r | .behind _ _ r | .first r | .group _ r => usesTexts r
  | _ => false

/-- The width that all texts of an expression have. -/
def width? : OrderedRegex → Option Nat
  | .empty | .place _ | .ahead _ _ | .behind _ _ _ | .keep => some 0
  | .one _ => some 1
  | .both a b => do return (← width? a) + (← width? b)
  | .either a b | .ifGroup _ a b => do
    let x ← width? a
    let y ← width? b
    if x = y then some x else none
  | .repeated r least most _ => if most = some least then (width? r).map (least * ·) else none
  | .group _ r | .first r => width? r
  | .again _ _ | .part _ => none

/-! ## Matching -/

/-- A place to go on from with so many rounds left, or one that is reached after all beyond it. -/
inductive Visit where
  | enter (p : Place) (left : Option Nat)
  | leave (p : Place)

/-- The places that rounds reach. No place is entered twice with as many rounds left. -/
def rounds (texts few : Bool) (next : Place → List Place) :
    Nat → List Visit → List (Place × Option Nat) → List Place → List Place
  | 0, _, _, out => out.reverse
  | _, [], _, out => out.reverse
  | n + 1, .leave p :: todo, seen, out => rounds texts few next n todo seen (p :: out)
  | n + 1, .enter p left :: todo, seen, out =>
    let known := seen.any fun e => e.1.index = p.index && e.2 = left && (!texts || e.1.groups = p.groups)
    if known then rounds texts few next n todo seen out
    else
      let farther := if left = some 0 then [] else (next p).filter (·.index ≠ p.index)
      let visits := farther.map fun q => Visit.enter q (left.map (· - 1))
      let seen := (p, left) :: seen
      if few then rounds texts few next n (visits ++ todo) seen (p :: out)
      else rounds texts few next n (visits ++ .leave p :: todo) seen out

/-- The place so many bytes before another one. -/
def back (p : Place) (k : Nat) : Place :=
  { p with
    index := p.index - k, behind := p.behind.drop k, ahead := (p.behind.take k).reverse ++ p.ahead }

/-- How deep expressions may be followed. -/
def depth : Nat := 20000

/-- The places where a match that starts at a place can end, in order. -/
def ends (all : OrderedRegex) (m : Mode) : Nat → OrderedRegex → Place → List Place
  | 0, _, _ => []
  | n + 1, r, p =>
    match r with
    | .empty => [p]
    | .one test =>
      match p.step with
      | some (c, q) => if test c then [q] else []
      | none => []
    | .place test => if test p then [p] else []
    | .both a b => m.distinct ((ends all m n a p).flatMap (ends all m n b))
    | .either a b => m.distinct (ends all m n a p ++ ends all m n b p)
    | .repeated r least most few =>
      match r with
      | .one test =>
        let found := Regex.runsFrom test p.groups p.ahead most p.index p.behind []
        let found := found.take (found.length - least)
        if few then found.reverse else found
      | r =>
        let begun := Regex.times m (ends all m n r) least [p]
        let left := most.map (· - least)
        m.distinct (begun.flatMap fun q =>
          rounds m.texts few (ends all m n r) Regex.closureSteps [.enter q left] [] [])
    | .group k r =>
      (ends all m n r p).map fun q => { q with groups := (k, p.between q) :: q.groups.filter (·.1 ≠ k) }
    | .again k fold =>
      match p.groups.lookup k with
      | some text =>
        let found := p.ahead.take text.length
        if fold && found.map Char.toLower = text.map Char.toLower then (p.take found).toList
        else (p.take text).toList
      | none => []
    | .ahead wanted r =>
      match ends all m n r p with
      | q :: _ => if wanted then [{ p with groups := q.groups }] else []
      | [] => if wanted then [] else [p]
    | .behind wanted width r =>
      let found := if p.index < width then [] else (ends all m n r (back p width)).filter (·.index = p.index)
      match found with
      | q :: _ => if wanted then [{ p with groups := q.groups }] else []
      | [] => if wanted then [] else [p]
    | .first r => (ends all m n r p).take 1
    | .keep => [{ p with groups := (0, p.behind) :: p.groups.filter (·.1 ≠ 0) }]
    | .part k =>
      match if k = 0 then some all else groupOf? k all with
      | some r => m.distinct ((ends all m n r p).map fun q => { q with groups := p.groups })
      | none => []
    | .ifGroup k a b => if (p.groups.lookup k).isSome then ends all m n a p else ends all m n b p

/-- The match at a place: what is shown of it begins at the first place and ends at the second. -/
def matchAt? (r : OrderedRegex) (p : Place) : Option (Place × Place) :=
  let p := { p with groups := [] }
  (ends r ⟨false, false, r.usesTexts⟩ depth r p).head?.map fun q =>
    match q.groups.lookup 0 with
    | some before =>
      (back q (q.index - before.length), q)
    | none => (p, q)

end OrderedRegex
end ValueInspector.Shell
