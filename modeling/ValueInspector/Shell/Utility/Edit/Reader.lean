import ValueInspector.Shell.Utility.Edit.Script

/-! # Reading scripts of the stream editor

Reading takes a script apart from front to back. A fault tells how much was left when it was found.
-/
namespace ValueInspector.Shell.Edit

inductive ScriptFault where
  | missingCommand
  | unknownCommand (c : Char)
  | extraCharacters
  | unexpectedComma
  | lineZero
  | firstStep
  | manyNegations
  | oneAddress
  | noAddress (c : Char)
  | noAddressForComment
  | openBlock
  | lonelyClose
  | labelMissing
  | textMissing
  | fileMissing
  | openAddress
  | openSubstitution
  | openExchange
  | exchangeLengths
  | unknownFlag
  | repeatedFlag (c : Char)
  | manyNumbers
  | numberZero
  | group (n : Nat)
  | emptyWithFlags
  | regex (f : RegexFault)
  | unknownLabel (name : Bytes)

namespace ScriptFault

def text : ScriptFault → Bytes
  | .missingCommand => bytes "missing command"
  | .unknownCommand c => bytes "unknown command: \x60" ++ [c, '\x27']
  | .extraCharacters => bytes "extra characters after command"
  | .unexpectedComma => bytes "unexpected \x60,'"
  | .lineZero => bytes "invalid usage of line address 0"
  | .firstStep => bytes "invalid usage of +N or ~N as first address"
  | .manyNegations => bytes "multiple \x60!'s"
  | .oneAddress => bytes "command only uses one address"
  | .noAddress '\x7d' => bytes "\x60\x7d' doesn't want any addresses"
  | .noAddress c => c :: bytes " doesn't want any addresses"
  | .noAddressForComment => bytes "comments don't accept any addresses"
  | .openBlock => bytes "unmatched \x60\x7b'"
  | .lonelyClose => bytes "unexpected \x60\x7d'"
  | .labelMissing => bytes "\":\" lacks a label"
  | .textMissing => bytes "expected \\ after \x60a', \x60c' or \x60i'"
  | .fileMissing => bytes "missing filename in r/R/w/W commands"
  | .openAddress => bytes "unterminated address regex"
  | .openSubstitution => bytes "unterminated \x60s' command"
  | .openExchange => bytes "unterminated \x60y' command"
  | .exchangeLengths => bytes "strings for \x60y' command are different lengths"
  | .unknownFlag => bytes "unknown option to \x60s'"
  | .repeatedFlag c => bytes "multiple \x60" ++ c :: bytes "' options to \x60s' command"
  | .manyNumbers => bytes "multiple number options to \x60s' command"
  | .numberZero => bytes "number option to \x60s' command may not be zero"
  | .group n => bytes "invalid reference \\" ++ Bytes.ofNat n ++ bytes " on \x60s' command's RHS"
  | .emptyWithFlags => bytes "cannot specify modifiers on empty regexp"
  | .regex f => f.text
  | .unknownLabel name => bytes "can't find label for jump to \x60" ++ name ++ ['\x27']

/-- The status for a fault. -/
def status : ScriptFault → Nat
  | .unknownLabel _ | .regex .classBrackets => 4
  | _ => 1

end ScriptFault

/-- A fault, and how much was left of the script when it was found; nothing if it concerns the whole
script. -/
structure Misreading where
  fault : ScriptFault
  left : Option Nat

/-- Fails where so much of the script is left. -/
def failAt {α : Type} (f : ScriptFault) (rest : Bytes) : Except Misreading α :=
  .error ⟨f, some rest.length⟩

def skipBlanks (cs : Bytes) : Bytes := cs.dropWhile Bytes.isBlank

/-! ## Delimited texts -/

/-- The members of a set in brackets, up to its closing bracket, if it is closed on the line. -/
def setText : Nat → Bool → Bytes → Bytes → Option (Bytes × Bytes)
  | 0, _, _, _ => none
  | n + 1, first, acc, cs =>
    match cs with
    | [] | '\n' :: _ => none
    | ']' :: rest =>
      if first then setText n false (']' :: acc) rest else some ((']' :: acc).reverse, rest)
    | '[' :: mark :: rest =>
      if mark ∈ [':', '.', '='] then
        match Regex.nameUpTo mark [] rest with
        | some (name, rest) =>
          setText n false (']' :: mark :: name.reverse ++ mark :: '[' :: acc) rest
        | none => setText n false (mark :: '[' :: acc) rest
      else setText n false ('[' :: acc) (mark :: rest)
    | '\\' :: 'n' :: rest => setText n false ('\n' :: acc) rest
    | c :: rest => setText n false (c :: acc) rest

/-- A text up to a delimiter without a backslash before it, and the rest. In an expression a delimiter
within brackets is a member, and `\n` is a line feed. -/
def delimited (d : Char) (isRegex : Bool) : Nat → Bytes → Bytes → Option (Bytes × Bytes)
  | 0, _, _ => none
  | n + 1, acc, cs =>
    match cs with
    | [] | '\n' :: _ => none
    | '\\' :: c :: rest =>
      if isRegex && c = 'n' && d ≠ 'n' then delimited d isRegex n ('\n' :: acc) rest
      else if c = '\n' then delimited d isRegex n ('\n' :: acc) rest
      else if c = d && (isRegex || c ≠ '&') then delimited d isRegex n (c :: acc) rest
      else delimited d isRegex n (c :: '\\' :: acc) rest
    | c :: rest =>
      if c = d then some (acc.reverse, rest)
      else if isRegex && c = '[' then
        let (caret, inside) : Bytes × Bytes := match rest with
          | '^' :: more => (['^'], more)
          | _ => ([], rest)
        match setText n true [] inside with
        | some (members, rest) => delimited d isRegex n (members.reverse ++ caret ++ '[' :: acc) rest
        | none => none
      else delimited d isRegex n (c :: acc) rest

/-- A number of at most so many digits in a base, as a byte. -/
def codeOf (base limit : Nat) (cs : Bytes) : Option (Char × Bytes) :=
  let digits := (cs.take limit).takeWhile fun c => (Text.digitValue? base c).isSome
  if digits.isEmpty then none
  else some (Char.ofNat ((Text.readDigits? base digits).getD 0 % 256), cs.drop digits.length)

/-- The byte that an escape stands for, after its backslash. -/
def escape? (cs : Bytes) : Option (Char × Bytes) :=
  match cs with
  | 'a' :: rest => some (Char.ofNat 7, rest)
  | 'f' :: rest => some (Char.ofNat 12, rest)
  | 'n' :: rest => some ('\n', rest)
  | 'r' :: rest => some ('\r', rest)
  | 't' :: rest => some ('\t', rest)
  | 'v' :: rest => some (Char.ofNat 11, rest)
  | 'c' :: c :: rest =>
    let k := c.toUpper.toNat
    some (Char.ofNat (if k / 64 % 2 = 1 then k - 64 else k + 64), rest)
  | 'd' :: rest => codeOf 10 3 rest
  | 'o' :: rest => codeOf 8 3 rest
  | 'x' :: rest => codeOf 16 2 rest
  | _ => none

/-- An expression with the escapes for bytes replaced. -/
def plainRegex : Nat → Bytes → Bytes
  | 0, cs => cs
  | n + 1, cs =>
    match cs with
    | [] => []
    | '\\' :: rest =>
      match escape? rest, rest with
      | some (c, rest), _ => c :: plainRegex n rest
      | none, c :: rest => '\\' :: c :: plainRegex n rest
      | none, [] => ['\\']
    | c :: rest => c :: plainRegex n rest

/-- A text with its escapes replaced and other backslashes left out. -/
def plainText : Nat → Bytes → Bytes
  | 0, cs => cs
  | n + 1, cs =>
    match cs with
    | [] => []
    | '\\' :: rest =>
      match escape? rest, rest with
      | some (c, rest), _ => c :: plainText n rest
      | none, c :: rest => c :: plainText n rest
      | none, [] => []
    | c :: rest => c :: plainText n rest

/-! ## Expressions and replacements -/

/-- Reads an expression. An empty one is the one used last. -/
def searchOf (extended fold lines : Bool) (text rest : Bytes) :
    Except Misreading (Option Search) := do
  if text.isEmpty then
    if fold || lines then failAt .emptyWithFlags rest else return none
  else
    match Regex.ofText (if extended then .strictExtended else .strictBasic)
        (plainRegex (text.length + 1) text) with
    | .ok regex => return some ⟨regex, ⟨fold, lines, regex.refersBack⟩⟩
    | .error f => failAt (.regex f) rest

/-- How the letters are changed now, and how after the next part. -/
structure CaseState where
  now : Recasing
  later : Recasing

/-- The parts of a replacement; `text` is the text before the next special sign, in reverse. -/
def replaceParts : Nat → CaseState → Bytes → Bytes → List ReplacePart
  | 0, _, _, _ => []
  | n + 1, k, text, cs =>
    let part (group : Option Nat) : ReplacePart := ⟨text.reverse, group, k.now⟩
    let settled : CaseState := ⟨k.later, k.later⟩
    match cs with
    | [] => if text.isEmpty then [] else [part none]
    | '&' :: rest => part (some 0) :: replaceParts n settled [] rest
    | '\\' :: c :: rest =>
      let whole (r : Recasing) : List ReplacePart := part none :: replaceParts n ⟨r, r⟩ [] rest
      let once (l : LetterCase) : List ReplacePart :=
        part none :: replaceParts n ⟨{ k.later with first := some l }, k.later⟩ [] rest
      if c.isDigit then part (some (c.toNat - '0'.toNat)) :: replaceParts n settled [] rest
      else
        match c with
        | 'L' => whole ⟨none, some .lower⟩
        | 'U' => whole ⟨none, some .upper⟩
        | 'E' => whole ⟨none, none⟩
        | 'l' => once .lower
        | 'u' => once .upper
        | _ =>
          match escape? (c :: rest) with
          | some (e, rest) => replaceParts n k (e :: text) rest
          | none => replaceParts n k (c :: text) rest
    | c :: rest => replaceParts n k (c :: text) rest

/-- How many groups an expression has. -/
def groupCount : Regex → Nat
  | .group k r => max k (groupCount r)
  | .both a b | .either a b => max (groupCount a) (groupCount b)
  | .repeated r _ _ => groupCount r
  | _ => 0

/-! ## Addresses -/

/-- Flags after the expression of an address. -/
def addressFlags : Nat → Bool → Bool → Bytes → Bool × Bool × Bytes
  | 0, fold, lines, cs => (fold, lines, cs)
  | n + 1, fold, lines, cs =>
    match skipBlanks cs with
    | 'I' :: rest => addressFlags n true lines rest
    | 'M' :: rest => addressFlags n fold true rest
    | rest => (fold, lines, rest)

def numberAt (cs : Bytes) : Nat × Bytes :=
  let digits := cs.takeWhile Char.isDigit
  ((Bytes.natural? digits).getD 0, cs.drop digits.length)

/-- An address at the front of a text, if there is one. -/
def address? (extended : Bool) (cs : Bytes) : Except Misreading (Option (Bound × Bytes)) := do
  let expression (d : Char) (rest : Bytes) : Except Misreading (Option (Bound × Bytes)) := do
    match delimited d true (rest.length + 1) [] rest with
    | none => failAt .openAddress []
    | some (text, rest) =>
      let (fold, lines, rest) := addressFlags (rest.length + 1) false false rest
      let search ← searchOf extended fold lines text rest
      return some (.at (.fits search), rest)
  match cs with
  | '/' :: rest => expression '/' rest
  | '\\' :: d :: rest => expression d rest
  | '\\' :: [] => failAt .openAddress []
  | '$' :: rest => return some (.at .last, rest)
  | '+' :: rest =>
    let (n, rest) := numberAt (skipBlanks rest)
    return some (.after n, rest)
  | '~' :: rest =>
    let (n, rest) := numberAt (skipBlanks rest)
    return some (.multiple n, rest)
  | c :: _ =>
    if c.isDigit then
      let (first, rest) := numberAt cs
      match skipBlanks rest with
      | '~' :: more =>
        let (step, rest) := numberAt (skipBlanks more)
        return some (.at (if step = 0 then .line first else .steps first step), rest)
      | _ => return some (.at (.line first), rest)
    else return none
  | [] => return none

/-! ## Commands -/

/-- What the reader makes of a command before the positions are known. -/
inductive Draft where
  | action (a : Action)
  | opened
  | closed
  | label (name : Bytes)
  | branch (condition : Condition) (label : Bytes)

/-- What may stand after a command: the end of the line, or a sign that is read later. -/
def endOfCommand (cs : Bytes) : Except Misreading Bytes :=
  match skipBlanks cs with
  | [] => .ok []
  | c :: rest =>
    if c = '\n' || c = ';' then .ok rest
    else if c = '\x7d' || c = '#' then .ok (c :: rest)
    else failAt .extraCharacters rest

def labelAt (cs : Bytes) : Bytes × Bytes :=
  let cs := skipBlanks cs
  let name := cs.takeWhile fun c => !(Bytes.isSpace c) && c ≠ ';' && c ≠ '\x7d'
  (name, cs.drop name.length)

/-- The rest of a line. -/
def lineAt (cs : Bytes) : Bytes × Bytes :=
  let text := cs.takeWhile (· ≠ '\n')
  (text, cs.drop (text.length + 1))

/-- The lines of a text up to an end of line without a backslash before it. -/
def textAt : Nat → Bytes → Bytes → Bytes × Bytes
  | 0, acc, cs => (acc.reverse, cs)
  | n + 1, acc, cs =>
    match cs with
    | [] => (acc.reverse, [])
    | '\n' :: rest => (acc.reverse, rest)
    | '\\' :: c :: rest => textAt n (c :: '\\' :: acc) rest
    | c :: rest => textAt n (c :: acc) rest

/-- The text that a command adds. -/
def addedText (cs : Bytes) : Except Misreading (Bytes × Bytes) := do
  let taken (cs : Bytes) : Except Misreading (Bytes × Bytes) :=
    let (text, rest) := textAt (cs.length + 1) [] cs
    .ok (plainText (text.length + 1) text ++ ['\n'], rest)
  match skipBlanks cs with
  | [] => failAt .textMissing []
  | '\n' :: rest => failAt .textMissing rest
  | '\\' :: [] => return ([], [])
  | '\\' :: '\n' :: [] => return ([], [])
  | '\\' :: '\n' :: rest => taken rest
  | '\\' :: rest =>
    match skipBlanks rest with
    | '\n' :: more => taken more
    | _ => taken rest
  | rest => taken rest

structure Flags where
  everywhere : Bool
  prints : Bool
  evaluates : Bool
  fold : Bool
  lines : Bool
  number : Option Nat
  file : Option Bytes

def flagsAt : Nat → Flags → Bytes → Except Misreading (Flags × Bytes)
  | 0, f, cs => .ok (f, cs)
  | n + 1, f, cs =>
    match cs with
    | [] => .ok (f, [])
    | c :: rest =>
      if c = '\n' || c = ';' then .ok (f, rest)
      else if c = '\x7d' || c = '#' then .ok (f, cs)
      else if Bytes.isBlank c || c = '\r' then flagsAt n f rest
      else if c.isDigit then
        let (k, after) := numberAt cs
        if f.number.isSome then failAt .manyNumbers rest
        else if k = 0 then failAt .numberZero after
        else flagsAt n { f with number := some k } after
      else
        match c with
        | 'g' => if f.everywhere then failAt (.repeatedFlag c) rest
          else flagsAt n { f with everywhere := true } rest
        | 'p' => if f.prints then failAt (.repeatedFlag c) rest
          else flagsAt n { f with prints := true } rest
        | 'i' | 'I' => flagsAt n { f with fold := true } rest
        | 'm' | 'M' => flagsAt n { f with lines := true } rest
        | 'e' => flagsAt n { f with evaluates := true } rest
        | 'w' =>
          let (name, after) := lineAt (skipBlanks rest)
          if name.isEmpty then failAt .fileMissing after else .ok ({ f with file := some name }, after)
        | _ => failAt .unknownFlag rest

def substitutionAt (extended : Bool) (cs : Bytes) : Except Misreading (Draft × Bytes) := do
  let parts? : Option (Bytes × Bytes × Bytes) := do
    let d ← cs.head?
    let (pattern, rest) ← delimited d true (cs.length + 1) [] (cs.drop 1)
    let (new, rest) ← delimited d false (cs.length + 1) [] rest
    if d = '\n' || d = '\\' then none else some (pattern, new, rest)
  match parts? with
  | none => failAt .openSubstitution []
  | some (pattern, new, rest) =>
    let (f, rest) ← flagsAt (rest.length + 1) ⟨false, false, false, false, false, none, none⟩ rest
    let search ← searchOf extended f.fold f.lines pattern rest
    let plain : Recasing := ⟨none, none⟩
    let parts := replaceParts (new.length + 1) ⟨plain, plain⟩ [] new
    let groups := parts.filterMap ReplacePart.group
    match search, groups.find? fun k => search.any fun s => groupCount s.regex < k with
    | some _, some k => failAt (.group k) rest
    | _, _ =>
      return (.action (.substitute ⟨search, parts, f.number.getD 1, f.everywhere, f.prints,
        f.evaluates, f.file⟩), rest)

/-- The characters of one side of an exchange. A backslash before another character counts too. -/
def exchangeSide : Nat → Bytes → Bytes
  | 0, cs => cs
  | n + 1, cs =>
    match cs with
    | '\\' :: '\\' :: rest => '\\' :: exchangeSide n rest
    | '\\' :: rest =>
      match escape? rest with
      | some (e, rest) => e :: exchangeSide n rest
      | none => '\\' :: exchangeSide n rest
    | c :: rest => c :: exchangeSide n rest
    | [] => []

def exchangeAt (cs : Bytes) : Except Misreading (Draft × Bytes) := do
  let sides? : Option (Bytes × Bytes × Bytes) := do
    let d ← cs.head?
    let (old, rest) ← delimited d false (cs.length + 1) [] (cs.drop 1)
    let (new, rest) ← delimited d false (cs.length + 1) [] rest
    some (exchangeSide (old.length + 1) old, exchangeSide (new.length + 1) new, rest)
  match sides? with
  | none => failAt .openExchange []
  | some (old, new, rest) =>
    if old.length ≠ new.length then failAt .exchangeLengths rest
    else
      let rest ← endOfCommand rest
      return (.action (.exchangeChars (old.zip new)), rest)

/-- A command after its addresses. -/
def commandAt (extended : Bool) (first : Option Address) (second : Option Bound) (cs : Bytes) :
    Except Misreading (Draft × Bytes) := do
  let simple (a : Action) (rest : Bytes) : Except Misreading (Draft × Bytes) := do
    let rest ← endOfCommand rest
    return (.action a, rest)
  let named (a : Bytes → Action) (rest : Bytes) : Except Misreading (Draft × Bytes) :=
    let (name, after) := lineAt (skipBlanks rest)
    if name.isEmpty then failAt .fileMissing after else .ok (.action (a name), after)
  let added (a : Bytes → Action) (rest : Bytes) : Except Misreading (Draft × Bytes) := do
    let (text, rest) ← addedText rest
    return (.action (a text), rest)
  let numbered (a : Option Nat → Action) (rest : Bytes) : Except Misreading (Draft × Bytes) := do
    let rest := skipBlanks rest
    let (k, after) := numberAt rest
    simple (a (if rest.head?.any Char.isDigit then some k else none)) after
  let branching (c : Condition) (rest : Bytes) : Except Misreading (Draft × Bytes) :=
    let (name, rest) := labelAt rest
    .ok (.branch c name, rest)
  match cs with
  | [] => failAt .missingCommand []
  | c :: rest =>
    match c with
    | '\x7b' => return (.opened, rest)
    | '\x7d' =>
      let rest ← endOfCommand rest
      return (.closed, rest)
    | ':' =>
      if first.isSome then failAt (.noAddress c) rest
      else
        let (name, after) := labelAt rest
        if name.isEmpty then failAt .labelMissing after else return (.label name, after)
    | 'b' => branching .always rest
    | 't' => branching .replaced rest
    | 'T' => branching .unchanged rest
    | 's' => substitutionAt extended rest
    | 'y' => exchangeAt rest
    | 'a' => added .append rest
    | 'i' => added .insert rest
    | 'c' => added .change rest
    | 'r' => named .readFile rest
    | 'R' => named .readLine rest
    | 'w' => named (.write · false) rest
    | 'W' => named (.write · true) rest
    | 'p' => simple (.print false) rest
    | 'P' => simple (.print true) rest
    | 'd' => simple (.delete false) rest
    | 'D' => simple (.delete true) rest
    | 'n' => simple (.next false) rest
    | 'N' => simple (.next true) rest
    | 'g' => simple (.fetch false) rest
    | 'G' => simple (.fetch true) rest
    | 'h' => simple (.keep false) rest
    | 'H' => simple (.keep true) rest
    | 'x' => simple .exchange rest
    | 'z' => simple .clear rest
    | '=' => simple .lineNumber rest
    | 'F' => simple .fileName rest
    | 'l' => numbered .list rest
    | 'q' | 'Q' =>
      if second.isSome then failAt .oneAddress rest
      else numbered (fun k => .quit (k.getD 0 % 256) (c = 'q')) rest
    | 'e' =>
      let (command, after) := lineAt (skipBlanks rest)
      return (.action (.run (if command.isEmpty then none else some command)), after)
    | 'v' => return (.action .nothing, (labelAt rest).2)
    | _ => failAt (.unknownCommand c) rest

/-- A command with its addresses, as it was read. -/
structure Drafted where
  first : Option Address
  second : Option Bound
  negated : Bool
  draft : Draft

/-- Addresses in front of a command. -/
def addressesAt (extended : Bool) (cs : Bytes) : Except Misreading ((Option Address × Option Bound) × Bytes) := do
  match ← address? extended cs with
  | none => return ((none, none), cs)
  | some (bound, rest) =>
    match bound with
    | .at a =>
      let (second, rest) ← match skipBlanks rest with
        | ',' :: more =>
          match ← address? extended (skipBlanks more) with
          | some (b, rest) => pure (some b, rest)
          | none => failAt .unexpectedComma ((skipBlanks more).drop 1)
        | _ => pure (none, rest)
      let zero := match a with
        | .line 0 => true
        | _ => false
      let fitting := match second with
        | some (.at (.fits _)) => true
        | _ => false
      if zero && !fitting then failAt .lineZero ((skipBlanks rest).drop 1)
      else return ((some a, second), rest)
    | _ => failAt .firstStep rest

/-- Reads all commands. `depth` is how many blocks are open. -/
def commandsAt (extended : Bool) : Nat → Nat → Bytes → List Drafted → Except Misreading (List Drafted)
  | 0, _, _, acc => .ok acc.reverse
  | n + 1, depth, cs, acc => do
    match cs.dropWhile fun c => Bytes.isSpace c || c = ';' with
    | [] => if depth = 0 then return acc.reverse else throw ⟨.openBlock, none⟩
    | '#' :: rest => commandsAt extended n depth (lineAt rest).2 acc
    | cs =>
      let ((first, second), rest) ← addressesAt extended cs
      let rest := skipBlanks rest
      let (negated, rest) ← match rest with
        | '!' :: more =>
          match skipBlanks more with
          | '!' :: more => failAt .manyNegations more
          | more => pure (true, more)
        | _ => pure (false, rest)
      match rest with
      | '#' :: more => failAt .noAddressForComment more
      | '\x7d' :: more =>
        if depth = 0 then failAt .lonelyClose more
        else if first.isSome then failAt (.noAddress '\x7d') more
      | _ => pure ()
      let (draft, after) ← commandAt extended first second rest
      let depth := match draft with
        | .opened => depth + 1
        | .closed => depth - 1
        | _ => depth
      commandsAt extended n depth after (⟨first, second, negated, draft⟩ :: acc)

/-! ## Positions -/

/-- The position after the block that is open at the start of a list of commands. -/
def blockEnd : List Drafted → Nat → Nat → Nat
  | [], _, position => position
  | d :: rest, depth, position =>
    match d.draft with
    | .opened => blockEnd rest (depth + 1) (position + 1)
    | .closed => if depth = 0 then position + 1 else blockEnd rest (depth - 1) (position + 1)
    | _ => blockEnd rest depth (position + 1)

def labelPosition? (all : List Drafted) (name : Bytes) : Option Nat :=
  all.findIdx? fun d => match d.draft with
    | .label l => l = name
    | _ => false

/-- Puts positions for blocks and labels. -/
def positioned (all : List Drafted) : List Drafted → Nat → Except Misreading (List Step)
  | [], _ => .ok []
  | d :: rest, position => do
    let action ← match d.draft with
      | .action a => pure a
      | .opened => pure (.block (blockEnd rest 0 (position + 1)))
      | .closed | .label _ => pure .nothing
      | .branch c name =>
        if name.isEmpty then pure (.branch c all.length)
        else
          match labelPosition? all name with
          | some p => pure (.branch c p)
          | none => throw ⟨.unknownLabel name, none⟩
    return ⟨d.first, d.second, d.negated, action⟩ :: (← positioned all rest (position + 1))

/-- Reads a script. -/
def Script.ofText (extended : Bool) (text : Bytes) : Except Misreading Script := do
  let drafts ← commandsAt extended (text.length + 1) 0 text []
  let steps ← positioned drafts drafts 0
  return ⟨steps.toArray, "#n".toList.isPrefixOf text⟩

end ValueInspector.Shell.Edit
