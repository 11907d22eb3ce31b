import ValueInspector.Shell.Arithmetic
import ValueInspector.Shell.Lifetime
import ValueInspector.Shell.Pattern

/-! # Expansion of words

A word is first expanded to atoms: bytes that know whether they were quoted and whether they may be
split, and boundaries between fields. The atoms are then split into fields, and a field with a pattern
in it becomes the paths that fit.
-/
namespace ValueInspector.Shell

inductive Atom where
  | byte (c : Char) (quoted splits : Bool)
  /-- Quotes without text, which make a field all the same. -/
  | empty
  /-- An expansion begins that is not quoted, or that is the list of all parameters in quotes. -/
  | opening (list : Bool)
  /-- The end of one parameter in a list of them. -/
  | boundary (quoted : Bool)
deriving DecidableEq, Repr

namespace Atom

/-- The bytes, with boundaries left out. -/
def text (as : List Atom) : Bytes := as.filterMap fun
  | .byte c _ _ => some c
  | _ => none

def marked (as : List Atom) : List Marked := as.filterMap fun
  | .byte c quoted _ => some ⟨c, quoted⟩
  | _ => none

/-- A field that is being put together and the fields before it, both in reverse. -/
structure Splitter where
  field : Option (List Marked)
  fields : List (List Marked)
  /-- A blank was the latest separator, so that one more separator may belong to it. -/
  afterBlank : Bool
  /-- How many fields may still come. The last one takes all that is left. -/
  left : Option Nat
  /-- How long the last field is without separators at its end. -/
  cut : Option Nat
  /-- The latest expansion was a list in quotes, whose last field counts even when it is empty. -/
  list : Bool

namespace Splitter

def start (limit : Option Nat) : Splitter := ⟨none, [], false, limit, none, false⟩

def finish (s : Splitter) (afterBlank : Bool) : Splitter :=
  { s with field := none, fields := (s.field.getD []).reverse :: s.fields, afterBlank }

def put (s : Splitter) (c : Char) (quoted : Bool) : Splitter :=
  { s with field := some (⟨c, quoted⟩ :: s.field.getD []) }

/-- Takes a separator. One that is blank ends a field; each other one does, even an empty field. -/
def separate (s : Splitter) (blank : Bool) (keep : Splitter → Splitter) : Splitter :=
  if s.field.isNone && blank then s
  else if s.field.isNone && s.afterBlank then { s with afterBlank := false }
  else
    match s.left with
    | some 1 => keep { s with left := some 0, cut := some (s.field.getD []).length, afterBlank := blank }
    | some (n + 1) => { s with left := some n }.finish blank
    | _ => s.finish blank

/-- Takes a byte of the field that takes all. -/
def takeRest (s : Splitter) (isSeparator blank : Bool) (keep : Splitter → Splitter) : Splitter :=
  if isSeparator && blank then keep { s with cut := s.cut.or (some (s.field.getD []).length) }
  else
    let cut := if isSeparator && s.afterBlank then s.cut else none
    keep { s with cut, afterBlank := false }

def step (separators : Bytes) (s : Splitter) (a : Atom) : Splitter :=
  match a with
  | .opening list => { s with list, afterBlank := false }
  | .boundary true => s.finish false
  | .boundary false => if s.field.isNone then s else s.finish true
  | .empty => { s with field := some (s.field.getD []), afterBlank := false }
  | .byte c quoted splits =>
    let isSeparator := c ∈ separators
    let blank := c = ' ' || c = '\t' || c = '\n'
    let keep (s : Splitter) : Splitter := s.put c quoted
    if !splits then keep s
    else if s.left = some 0 then s.takeRest isSeparator blank keep
    else if isSeparator then s.separate blank keep
    else { keep s with afterBlank := false }

def result (s : Splitter) : List (List Marked) :=
  let last := s.field.map fun f => match s.cut with
    | some n => f.reverse.take n
    | none => f.reverse
  match last with
  | some f => (f :: s.fields).reverse
  | none => (if s.list then [] :: s.fields else s.fields).reverse

end Splitter

/-- The fields of a word, at most so many if there is a limit. -/
def split (separators : Bytes) (limit : Option Nat) (as : List Atom) : List (List Marked) :=
  (as.foldl (Splitter.step separators) (.start limit)).result

end Atom

namespace Sh

/-- The separators of fields. -/
def separators : Sh Bytes := return (← value? (bytes "IFS")).getD [' ', '\t', '\n']

/-! ## Paths that fit a pattern -/

def splitPath (ms : List Marked) : List (List Marked) := ms.splitOnP (·.char = '/')

/-- The paths that go on from a start and fit the steps of a pattern. -/
def pathsFrom : Bytes → List (List Marked) → Sh (List Bytes)
  | start, [] => return [start]
  | start, step :: rest => do
    let fitting := Pattern.ofMarked step
    let slash := if rest.isEmpty then [] else ['/']
    if fitting.isProper then
      let listed ← system (.list (← path (if start.isEmpty then ['.'] else start)))
      let names := listed.toOption.getD []
      let hidden := match fitting with
        | .one '.' :: _ => true
        | _ => false
      let names := (if hidden then [['.'], ['.', '.']] else []) ++ names
      let found := names.filter fun name => (hidden || name.head? ≠ some '.') && fitting.fits name
      let paths ← found.mapM fun name => pathsFrom (start ++ name ++ slash) rest
      return paths.flatten
    else pathsFrom (start ++ Marked.text step ++ slash) rest

/-- The text of a field, or the paths that fit it. -/
def paths (field : List Marked) : Sh (List Bytes) := do
  let literal := [Marked.text field]
  if (← option 'f') || !(field.any fun m => !m.quoted && m.char ∈ ['*', '?', '[']) then return literal
  else if !(Pattern.ofMarked field).isProper then return literal
  else
    let found ← pathsFrom [] (splitPath field)
    let found ← found.filterM fun p => do
      return (← system (.inspect false (← path p))).toOption.isSome
    return if found.isEmpty then literal else found.mergeSort Bytes.isAtMost

/-! ## Parameters -/

/-- Option letters in the order in which they are shown. -/
def optionLetters : List Char := "pubaCEVvxsnmiIfe".toList

/-- The value of a parameter that is no list of parameters. -/
def parameter? (name : Bytes) : Sh (Option Bytes) := do
  let s ← get
  match name with
  | ['#'] => return some (Bytes.ofNat s.positional.length)
  | ['?'] => return some (Bytes.ofNat s.status)
  | ['$'] => return some (Bytes.ofNat s.processId)
  | ['!'] => return s.lastJob.map Bytes.ofNat
  | ['-'] => return some (optionLetters.filter (· ∈ s.options))
  | _ =>
    match Bytes.natural? name with
    | some 0 => return some s.name
    | some n => return s.positional[n - 1]?
    | none => value? name

/-- Bytes of an expansion, which may be split unless they are quoted. -/
def atomsOf (quoted : Bool) (cs : Bytes) : List Atom :=
  let as := cs.map fun c => .byte c quoted !quoted
  if quoted then as else .opening false :: as

/-- The parameters of a list with boundaries between them. -/
def atomsOfFields (quoted : Bool) (fields : List Bytes) : List Atom :=
  let parts := fields.map fun f => f.map fun c => Atom.byte c quoted !quoted
  .opening quoted :: List.flatten (parts.intersperse [.boundary quoted])

/-- The byte that stands between fields while they are one text. -/
def fieldMark : Char := Char.ofNat 0

/-- The text of a parameter, and whether field marks in it are boundaries. -/
def parameterText? (full : Bool) (name : Bytes) (quoted : Bool) : Sh (Option Bytes × Bool) := do
  if name = ['@'] || name = ['*'] then
    let all := (← get).positional
    if all.isEmpty then return (some [], false)
    else if full && !(quoted && name = ['*']) then
      return (some (Bytes.join [fieldMark] all), true)
    else
      let between := ((← separators).head?.map fun c => [c]).getD []
      return (some (Bytes.join between all), false)
  else return (← parameter? name, false)

def failUnset {α : Type} (name : Bytes) (orEmpty : Bool) : Sh α :=
  fail (name ++ bytes (if orEmpty then ": parameter not set or null" else ": parameter not set"))

/-! ## Pieces of words -/

/-- The home directory of a login name; the empty name is that of the shell's own user. -/
def homeOf? (login : Bytes) : Sh (Option Bytes) := do
  if login.isEmpty then value? (bytes "HOME")
  else return if login = bytes "root" then some (bytes "/root") else none

/-- Puts a home directory in place of a tilde at the front. -/
def expandTilde (inAssignment : Bool) (w : Word) : Sh (List Atom × Word) := do
  match w with
  | .plain '~' :: rest =>
    let ends (c : Char) : Bool := c = '/' || (inAssignment && c = ':')
    let login := rest.takeWhile fun
      | .plain c => !ends c
      | _ => false
    let after := rest.drop login.length
    let closed := match after with
      | [] => true
      | .plain _ :: _ => true
      | _ => false
    let name := login.filterMap fun
      | .plain c => some c
      | _ => none
    if !closed then return ([], w)
    else
      match ← homeOf? name with
      | some home => return (home.map fun c => .byte c true false, after)
      | none => return ([], w)
  | _ => return ([], w)

/-- A command in a child process whose output is read, less the line feeds at its end. -/
def commandOutput (g : Evaluator) (body : Command) : Sh Bytes := do
  let _ ← freeSlot
  let (out, inn) ← system .pipe
  let pid ← forkChild g false do
    system (.close out)
    let _ ← system (.copy inn 1)
    unless inn = 1 do system (.close inn)
    g.command ⟨false, true⟩ body
  system (.close inn)
  let data ← task (readAll out repeats [])
  system (.close out)
  let status ← waitForChild pid repeats
  modify ({ · with substituted := status })
  let text := match data with
    | .ok text => text.filter (· ≠ fieldMark)
    | .error _ => []
  return (text.reverse.dropWhile (· = '\n')).reverse

/-- The value of an arithmetic expression. -/
def evaluate (expression : Bytes) : Sh Bytes := do
  let fault {α : Type} (f : ArithmeticFault) : Sh α := do
    if f = .overflow then
      let (pid, _) ← system .identity
      let _ ← system (.kill pid 8)
      throw .exit
    else fail (f.message expression)
  let get (name : Bytes) : Sh Int64 := do
    match ← value? name with
    | none => if ← option 'u' then failUnset name false else return 0
    | some text =>
      match Arithmetic.ofText text with
      | .ok n => return n
      | .error f => fault f
  let store (name : Bytes) (n : Int64) : Sh Unit := assign name (Bytes.ofInt n.toInt) false
  return Bytes.ofInt (← Arithmetic.eval get store fault false (Arithmetic.parse expression)).toInt

/-- The atoms of a piece without expansions. Its text may be split if it is part of an expansion. -/
def literal? (splits : Bool) : Piece → Option (List Atom)
  | .plain c => some [.byte c false splits]
  | .quoted [] => some [.empty]
  | .quoted cs => some (cs.map fun c => .byte c true false)
  | .substitution none _ => some []
  | _ => none

/-- The text of a piece that stands for one text, whatever is around it. -/
def directText? : Piece → Option (Sh Bytes)
  | .plain c => some (return [c])
  | .quoted cs => some (return cs)
  | .parameter name .value _ =>
    if name = ['@'] || name = ['*'] then none
    else some do
      match ← parameter? name with
      | some text => return text
      | none => if ← option 'u' then failUnset name false else return []
  | _ => none

/-- Whether a piece is one text that is never split and fits only itself. -/
def isQuoted : Piece → Bool
  | .quoted _ | .parameter _ _ true => true
  | _ => false

/-- Puts the results of the expansions in their places among the other pieces. -/
def assemble (splits : Bool) (w : Word) (expanded : List (List Atom)) : List Atom :=
  let (parts, _) := w.foldl
    (fun (acc, left) piece =>
      match literal? splits piece with
      | some as => (as :: acc, left)
      | none => (left.head?.getD [] :: acc, left.tail))
    ([], expanded)
  parts.reverse.flatten

/-- Expands the pieces of a word. In a full expansion the parameters may be several fields. -/
def atoms (g : Evaluator) (full splits : Bool) : Nat → Word → Sh (List Atom)
  | 0, _ => endless
  | n + 1, w => do
    let expanded ← (w.filter fun piece => (literal? splits piece).isNone).mapM fun piece : Piece => do
      match piece with
      | .plain _ | .quoted _ | .substitution none _ => return []
      | .substitution (some body) quoted =>
        return atomsOf quoted (← commandOutput g body)
      | .arithmetic e quoted =>
        let text ← match e.mapM directText? with
          | some texts => do pure (List.flatten (← texts.mapM id))
          | none => do pure (Atom.text (← atoms g false false n e))
        return atomsOf quoted (← evaluate text)
      | .parameter name m quoted =>
        let (text?, listed) ← parameterText? full name quoted
        let fieldsOf (text : Bytes) : List Atom :=
          if listed then atomsOfFields quoted (text.splitOn fieldMark) else atomsOf quoted text
        let list := name = ['@'] || name = ['*']
        let needed : Sh Bytes := do
          match text? with
          | some text => return text
          | none => if !list && (← option 'u') then failUnset name false else return []
        match m with
        | .unknown => fail (bytes "Bad substitution")
        | .value =>
          let text ← needed
          return if text?.isNone then atomsOf quoted [] else fieldsOf text
        | .length =>
          let (joined?, _) ← parameterText? false name quoted
          let _ ← needed
          return atomsOf quoted (Bytes.ofNat (joined?.getD []).length)
        | .trim front longest pattern =>
          let text ← needed
          let p := Pattern.ofMarked (Atom.marked (← atoms g false false n pattern))
          return if text?.isNone then [] else fieldsOf (p.trim front longest text)
        | .fallback colon f word =>
          let missing := text?.isNone || (colon && text? = some [])
          match f with
          | .use => if missing then inPlace n quoted word else return fieldsOf (text?.getD [])
          | .instead => if missing then return atomsOf quoted [] else inPlace n quoted word
          | .assign =>
            if !missing then return fieldsOf (text?.getD [])
            else if !Bytes.isName name then fail (name ++ bytes ": bad variable name")
            else
              let (home, word) ← if quoted then pure ([], word) else expandTilde true word
              let value := Atom.text (home ++ (← atoms g false false n word))
              assign name value false
              return atomsOf quoted value
          | .fail =>
            if !missing then return fieldsOf (text?.getD [])
            else if word.isEmpty then failUnset name colon
            else
              let (home, word) ← if quoted then pure ([], word) else expandTilde false word
              let message := Atom.text (home ++ (← atoms g false false n word))
              fail (name ++ bytes ": " ++ message)
    match w, expanded with
    | [_], [as] => return as
    | w, expanded => return assemble splits w expanded
where
  inPlace (n : Nat) (quoted : Bool) (word : Word) : Sh (List Atom) := do
    if quoted then atoms g full false n word
    else
      let (home, word) ← expandTilde false word
      return home ++ (← atoms g full full n word)

end Sh

namespace Word
open Sh
variable (g : Evaluator) (n : Nat)

/-- The text of a word that is its only field as it stands, because none of its characters means
anything. -/
def plainField? (w : Word) : Option Bytes :=
  match Word.literal? w with
  | some (c :: cs) =>
    if c = '~' || (c :: cs).any (fun d => d = '*' || d = '?') || ((c :: cs).contains '[' && cs.contains ']')
    then none
    else some (c :: cs)
  | _ => none

/-- The text of a word that is not split, with no tilde in it. -/
def text (w : Word) : Sh Bytes := do
  match w.mapM directText? with
  | some texts => return List.flatten (← texts.mapM id)
  | none => return Atom.text (← atoms g false false n w)

/-- The text of a word that is its only field, because all of it is quoted. -/
def quotedField? (w : Word) : Sh (Option Bytes) := do
  match if w.all isQuoted then w.mapM directText? else none with
  | some texts => return some (List.flatten (← texts.mapM id))
  | none => return none

/-- The fields of a word. -/
def fields (w : Word) : Sh (List Bytes) := do
  match (plainField? w).or (← quotedField? w) with
  | some (c :: cs) => return [c :: cs]
  | _ =>
    let (home, w) ← expandTilde false w
    let found := Atom.split (← separators) none (home ++ (← atoms g true false n w))
    match found with
    | [field] => paths field
    | found => return (← found.mapM paths).flatten

/-- The value of an assignment, with a tilde after each colon expanded. -/
def value (w : Word) : Sh Bytes := do
  let parts := w.splitOnP fun
    | .plain ':' => true
    | _ => false
  let texts ← parts.mapM fun part => do
    let (home, part) ← expandTilde true part
    return Atom.text home ++ (← text g n part)
  return Bytes.join [':'] texts

/-- One text, for the target of a redirection or a word that is compared. -/
def single (w : Word) : Sh (List Marked) := do
  let (home, w) ← expandTilde false w
  return Atom.marked (home ++ (← atoms g false false n w))

/-- The text of a document. -/
def document (w : Word) : Sh Bytes := text g n w

end Word
end ValueInspector.Shell
