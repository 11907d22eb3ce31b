import ValueInspector.Shell.OrderedRegex
import ValueInspector.Shell.Regex.Reader

/-! # Reading regular expressions with an order

Signs stand for operators as they are, letters after a backslash for classes and places, and a group
may say after a question mark what kind of group it is.
-/
namespace ValueInspector.Shell
namespace OrderedRegex

/-- Why a text is no such expression. -/
inductive Fault where
  | endsInBackslash
  | unknownEscape
  | caseEscape
  | unicodeName
  | boundsOrder
  | boundTooBig
  | openClass
  | escapeInClass
  | rangeOrder
  | rangeEnd
  | nothingToRepeat
  | unknownOption
  | classOutside
  | collating
  | className
  | openGroup
  | lonelyClose
  | openComment
  | noGroup
  | width
  | codeTooLarge
  | nameExpected
  | nameTwice
  | nameEnd
  | referenceForm
  | callForm
  | property
  | verb
deriving DecidableEq, Repr

def Fault.text : Fault → Bytes
  | .endsInBackslash => bytes "\\ at end of pattern"
  | .unknownEscape => bytes "unrecognized character follows \\"
  | .caseEscape => bytes "PCRE2 does not support \\F, \\L, \\l, \\N\x7bname\x7d, \\U, or \\u"
  | .unicodeName => bytes "\\N\x7bU+dddd\x7d is supported only in Unicode (UTF) mode"
  | .boundsOrder => bytes "numbers out of order in \x7b\x7d quantifier"
  | .boundTooBig => bytes "number too big in \x7b\x7d quantifier"
  | .openClass => bytes "missing terminating ] for character class"
  | .escapeInClass => bytes "escape sequence is invalid in character class"
  | .rangeOrder => bytes "range out of order in character class"
  | .rangeEnd => bytes "invalid range in character class"
  | .nothingToRepeat => bytes "quantifier does not follow a repeatable item"
  | .unknownOption => bytes "unrecognized character after (? or (?-"
  | .classOutside => bytes "POSIX named classes are supported only within a class"
  | .collating => bytes "POSIX collating elements are not supported"
  | .className => bytes "unknown POSIX class name"
  | .openGroup => bytes "missing closing parenthesis"
  | .lonelyClose => bytes "unmatched closing parenthesis"
  | .openComment => bytes "missing ) after (?# comment"
  | .noGroup => bytes "reference to non-existent subpattern"
  | .width => bytes "lookbehind assertion is not fixed length"
  | .codeTooLarge => bytes "character code point value in \\x\x7b\x7d or \\o\x7b\x7d is too large"
  | .nameExpected => bytes "subpattern name expected"
  | .nameTwice => bytes "two named subpatterns have the same name (PCRE2_DUPNAMES not set)"
  | .nameEnd => bytes "syntax error in subpattern name (missing terminator?)"
  | .referenceForm => bytes "\\k is not followed by a braced, angle-bracketed, or quoted name"
  | .callForm =>
    bytes "\\g is not followed by a braced, angle-bracketed, or quoted name/number or by a plain number"
  | .property => bytes "unknown property after \\P or \\p"
  | .verb => bytes "(*VERB) not recognized or malformed"

/-- How an expression is taken from here on. -/
structure Flags where
  /-- Small letters and capitals are the same. -/
  fold : Bool
  /-- A text has several lines, and each has a start and a stop. -/
  lines : Bool
  /-- A dot stands for a line feed too. -/
  dots : Bool
  /-- Blanks stand for nothing, and comments may follow a number sign. -/
  spaced : Bool
deriving DecidableEq, Repr

/-- An expression being read: what is left of it, how many groups were opened, and their names. -/
structure Source where
  rest : Bytes
  flags : Flags
  groups : Nat
  names : List (Bytes × Nat)
  /-- The groups that are referred to, the highest of them. -/
  highest : Nat
  /-- The names of all groups, once they are known. -/
  known : Option (List (Bytes × Nat))

abbrev Reader := StateT Source (Except Fault)

def ahead? : Reader Bytes := do return (← get).rest

def skipTo (rest : Bytes) : Reader Unit := modify ({ · with rest })

def fail {α : Type} (f : Fault) : Reader α := StateT.lift (.error f)

/-! ## Characters -/

/-- The classes that letters after a backslash stand for. -/
def classOf? (c : Char) : Option (Char → Bool) :=
  let line (c : Char) : Bool := (10 ≤ c.toNat && c.toNat ≤ 13) || c.toNat = 133
  let blank (c : Char) : Bool := c = ' ' || c = '\t' || c.toNat = 160
  List.lookup c
    [('d', Char.isDigit), ('D', fun c => !c.isDigit), ('w', Bytes.isNameChar),
     ('W', fun c => !Bytes.isNameChar c), ('s', Bytes.isSpace), ('S', fun c => !Bytes.isSpace c),
     ('h', blank), ('H', fun c => !blank c), ('v', line), ('V', fun c => !line c)]

/-- The characters of a property of letters, as far as it is known. -/
def propertyOf? (name : Bytes) : Option (Char → Bool) :=
  List.lookup (String.ofList name)
    [("L", Char.isAlpha), ("L&", Char.isAlpha), ("Lu", Char.isUpper), ("Ll", Char.isLower), ("N", Char.isDigit),
     ("Nd", Char.isDigit), ("P", fun c => Pattern.isPunctuation c && c ∉ "$+<=>^\x60|~".toList),
     ("S", fun c => c ∈ "$+<=>^\x60|~".toList), ("Z", (· = ' ')), ("Zs", (· = ' ')),
     ("Xan", Char.isAlphanum), ("Xwd", Bytes.isNameChar), ("Xsp", Bytes.isSpace), ("Xps", Bytes.isSpace),
     ("Any", fun _ => true), ("Cc", fun c => c.toNat < 32 || c.toNat = 127)]

/-- A character given by digits, up to a closing brace or by at most so many of them. -/
def coded (base most : Nat) (cs : Bytes) : Except Fault (Char × Bytes) :=
  let isDigit (c : Char) : Bool := (Text.readDigits? base [c]).isSome
  let (digits, rest) := match cs with
    | '\x7b' :: more =>
      let digits := more.takeWhile isDigit
      (digits, (more.drop digits.length).drop 1)
    | _ =>
      let digits := (cs.take most).takeWhile isDigit
      (digits, cs.drop digits.length)
  let n := (Text.readDigits? base digits).getD 0
  if n < 256 then .ok (Char.ofNat n, rest) else .error .codeTooLarge

/-- A character that a letter after a backslash stands for, and the rest. -/
def escapedChar? (c : Char) (rest : Bytes) : Except Fault (Option (Char × Bytes)) :=
  match List.lookup c [('a', 7), ('e', 27), ('f', 12), ('n', 10), ('r', 13), ('t', 9)] with
  | some n => .ok (some (Char.ofNat n, rest))
  | none =>
    match c, rest with
    | 'x', rest => (coded 16 2 rest).map some
    | 'o', '\x7b' :: _ => (coded 8 0 rest).map some
    | '0', rest => (coded 8 2 (if rest.head? = some '\x7b' then [] else rest)).map fun e =>
        some (e.1, if rest.head? = some '\x7b' then rest else e.2)
    | 'c', d :: rest => .ok (some (Char.ofNat (d.toUpper.toNat ^^^ 64), rest))
    | c, rest => .ok (if c.isAlphanum then none else some (c, rest))

/-- The test for a character, with small letters and capitals apart or not. -/
def charTest (fold : Bool) (test : Char → Bool) (c : Char) : Bool :=
  test c || (fold && (test c.toLower || test c.toUpper))

/-! ## Classes in brackets -/

/-- The name of a class between a mark that is doubled, such as in `[:alpha:]`, and what follows it. -/
def bracketName? (mark : Char) (cs : Bytes) : Option (Bytes × Bytes) :=
  match cs with
  | '[' :: c :: rest =>
    if c = mark then
      let name := rest.takeWhile fun c => c ≠ mark && c ≠ ']' && c ≠ '['
      match rest.drop name.length with
      | c :: ']' :: rest => if c = mark then some (name, rest) else none
      | _ => none
    else none
  | _ => none

/-- A member of a class: a character or a test. -/
def classMember (cs : Bytes) : Except Fault (Regex.Element × Bytes) :=
  match bracketName? ':' cs with
  | some (name, rest) =>
    let inverted := name.head? = some '^'
    let name := if inverted then name.drop 1 else name
    let test? := if name = bytes "word" then some Bytes.isNameChar
      else if name = bytes "ascii" then some fun c => c.toNat < 128
      else Pattern.classOf? name
    match test? with
    | some test => .ok (.named fun c => test c != inverted, rest)
    | none => .error .className
  | none =>
    if (bracketName? '.' cs).isSome || (bracketName? '=' cs).isSome then .error .collating
    else
      match cs with
      | '\\' :: c :: rest =>
        match classOf? c with
        | some test => .ok (.named test, rest)
        | none =>
          if c = 'b' then .ok (.char (Char.ofNat 8), rest)
          else if c ∈ ['N', 'R', 'X', 'B'] then .error .escapeInClass
          else if c.isDigit && c ≠ '0' then
            (coded 8 3 (c :: rest)).map fun e =>
              if c = '8' || c = '9' then (.char c, rest) else (.char e.1, e.2)
          else do
            match ← escapedChar? c rest with
            | some (c, rest) => return (.char c, rest)
            | none => throw .unknownEscape
      | ['\\'] => .error .endsInBackslash
      | c :: rest => .ok (.char c, rest)
      | [] => .error .openClass

/-- The members of a class up to its closing bracket. -/
def classMembers : Nat → Bool → List (Char → Bool) → Bytes → Except Fault ((Char → Bool) × Bytes)
  | 0, _, _, _ => .error .openClass
  | n + 1, leading, acc, cs =>
    match cs with
    | [] => .error .openClass
    | c :: after =>
      if c = ']' && !leading then .ok (fun d => acc.any fun test => test d, after)
      else do
        let (low, rest) ← classMember cs
        match rest with
        | '-' :: more =>
          if more.head? = some ']' || more.isEmpty then classMembers n false (testOf low :: acc) rest
          else
            let (high, rest) ← classMember more
            match low, high with
            | .char a, .char b =>
              if b < a then throw .rangeOrder
              else classMembers n false ((fun d => a ≤ d && d ≤ b) :: acc) rest
            | _, _ => throw .rangeEnd
        | _ => classMembers n false (testOf low :: acc) rest
where
  testOf : Regex.Element → Char → Bool
    | .char c => fun d => d = c
    | .named test => test

/-- A class after its opening bracket, and the rest. -/
def classTest (fold : Bool) (cs : Bytes) : Except Fault ((Char → Bool) × Bytes) := do
  let (inverted, cs) := match cs with
    | '^' :: rest => (true, rest)
    | _ => (false, cs)
  let (test, rest) ← classMembers (cs.length + 1) true [] cs
  return (fun c => charTest fold test c != inverted, rest)

/-! ## Repetition -/

/-- The bounds of a repetition sign at the front of a text, and the rest. -/
def bounds? (cs : Bytes) : Except Fault (Option ((Nat × Option Nat) × Bytes)) :=
  match cs with
  | '*' :: rest => .ok (some ((0, none), rest))
  | '+' :: rest => .ok (some ((1, none), rest))
  | '?' :: rest => .ok (some ((0, some 1), rest))
  | '\x7b' :: rest =>
    let low := rest.takeWhile Char.isDigit
    let after := rest.drop low.length
    let (most, after) : Option Bytes × Bytes := match after with
      | ',' :: more =>
        let high := more.takeWhile Char.isDigit
        (some high, more.drop high.length)
      | _ => (none, after)
    match Bytes.natural? low, after with
    | some least, '\x7d' :: rest =>
      let most := match most with
        | none => some least
        | some high => Bytes.natural? high
      if 65535 < max least (most.getD 0) then .error .boundTooBig
      else if most.any (· < least) then .error .boundsOrder
      else .ok (some ((least, most), rest))
    | _, _ => .ok none
  | _ => .ok none

/-- Blanks and comments, where they stand for nothing. -/
def skipSpace : Nat → Bytes → Bytes
  | 0, cs => cs
  | n + 1, cs =>
    match cs with
    | '#' :: rest => skipSpace n ((rest.dropWhile (· ≠ '\n')).drop 1)
    | c :: rest => if Bytes.isSpace c then skipSpace n rest else cs
    | [] => []

def skipBlanks : Reader Unit :=
  modify fun s => if s.flags.spaced then { s with rest := skipSpace s.rest.length s.rest } else s

/-- A repetition sign after an expression. -/
def quantified (r : OrderedRegex) : Reader OrderedRegex := do
  skipBlanks
  match ← StateT.lift (bounds? (← ahead?)) with
  | none => return r
  | some ((least, most), rest) =>
    match rest with
    | '?' :: rest =>
      skipTo rest
      return .repeated r least most true
    | '+' :: rest =>
      skipTo rest
      return .first (.repeated r least most false)
    | _ =>
      skipTo rest
      return .repeated r least most false

/-! ## Places and references -/

/-- The places that letters after a backslash stand for. -/
def placeOf? (c : Char) : Option (Regex.Place → Bool) :=
  let edge (p : Regex.Place) : Bool := p.behind.head?.any Bytes.isNameChar != p.ahead.head?.any Bytes.isNameChar
  List.lookup c
    [('b', edge), ('B', fun p => !edge p), ('A', fun p => p.behind.isEmpty), ('G', fun p => p.behind.isEmpty),
     ('z', fun p => p.ahead.isEmpty), ('Z', fun p => p.ahead.isEmpty || p.ahead = ['\n'])]

/-- The start of a text, or of one of its lines. -/
def startsLine (lines : Bool) (p : Regex.Place) : Bool :=
  p.behind.isEmpty || (lines && p.behind.head? = some '\n')

/-- The stop of a text, before its last line feed or after it, or of one of its lines. -/
def stopsLine (lines : Bool) (p : Regex.Place) : Bool :=
  p.ahead.isEmpty || p.ahead = ['\n'] || (lines && p.ahead.head? = some '\n')

/-- The number of a group that is referred to by a number, which may count from here, or by a name. -/
def groupNumber (name : Bytes) : Reader Nat := do
  let s ← get
  let digits := if name.head? = some '-' || name.head? = some '+' then name.drop 1 else name
  let k ← match Bytes.natural? digits with
    | some n =>
      if name.head? = some '-' then
        if s.groups < n then fail .noGroup else pure (s.groups + 1 - n)
      else if name.head? = some '+' then pure (s.groups + n)
      else pure n
    | none =>
      match s.known with
      | none => pure 0
      | some names =>
        match names.lookup name with
        | some n => pure n
        | none => fail .noGroup
  set { s with highest := max s.highest k }
  return k

/-- A text up to a closing sign. -/
def upTo (close : Char) (f : Fault) : Reader Bytes := do
  let cs ← ahead?
  let name := cs.takeWhile (· ≠ close)
  match cs.drop name.length with
  | [] => fail f
  | _ :: rest =>
    skipTo rest
    return name

def closing (c : Char) : Char :=
  match c with
  | '<' => '>'
  | '\x7b' => '\x7d'
  | c => c

/-- An expression that starts with a backslash, and whether it may be repeated. -/
def escaped : Reader (OrderedRegex × Bool) := do
  let s ← get
  let fold := s.flags.fold
  match s.rest with
  | [] => fail .endsInBackslash
  | c :: rest =>
    skipTo rest
    match classOf? c, placeOf? c with
    | some test, _ => return (.one test, true)
    | none, some test => return (.place test, false)
    | none, none =>
      match c, rest with
      | 'N', '\x7b' :: 'U' :: '+' :: _ => fail .unicodeName
      | 'N', _ => return (.one (· ≠ '\n'), true)
      | 'R', _ =>
        let line := (classOf? 'v').getD fun _ => false
        let pair : OrderedRegex := .both (.one (· = '\r')) (.one (· = '\n'))
        return (.first (.either pair (.one line)), true)
      | 'K', _ => return (.keep, false)
      | 'X', _ | 'C', _ => return (.one fun _ => true, true)
      | 'p', _ | 'P', _ =>
        let name ← match rest with
          | '\x7b' :: more =>
            skipTo more
            upTo '\x7d' .property
          | d :: more =>
            skipTo more
            pure [d]
          | [] => fail .property
        let inverted := (c = 'P') != (name.head? = some '^')
        match propertyOf? (if name.head? = some '^' then name.drop 1 else name) with
        | some test => return (.one fun d => test d != inverted, true)
        | none => fail .property
      | 'k', d :: more =>
        if d ∈ ['<', '\x27', '\x7b'] then
          skipTo more
          let k ← groupNumber (← upTo (closing d) .nameEnd)
          return (.again k fold, true)
        else fail .referenceForm
      | 'k', [] => fail .referenceForm
      | 'g', d :: more =>
        if d = '<' || d = '\x27' then
          skipTo more
          let k ← groupNumber (← upTo (closing d) .nameEnd)
          return (.part k, true)
        else if d = '\x7b' then
          skipTo more
          let k ← groupNumber (← upTo '\x7d' .nameEnd)
          return (.again k fold, true)
        else
          let sign := if d = '-' || d = '+' then [d] else []
          let digits := (rest.drop sign.length).takeWhile Char.isDigit
          if digits.isEmpty then fail .callForm
          else
            skipTo (rest.drop (sign.length + digits.length))
            let k ← groupNumber (sign ++ digits)
            return (.again k fold, true)
      | 'g', [] => fail .callForm
      | _, _ =>
        if c ∈ "FLlUu".toList then fail .caseEscape
        else if c.isDigit && c ≠ '0' then
          let digits := c :: rest.takeWhile Char.isDigit
          let n := (Bytes.natural? digits).getD 0
          if n < 10 || n ≤ s.groups || c = '8' || c = '9' then
            skipTo (rest.drop (digits.length - 1))
            let k ← groupNumber digits
            return (.again k fold, true)
          else
            let (d, rest) ← StateT.lift (coded 8 3 (c :: rest))
            skipTo rest
            return (.one (charTest fold (· = d)), true)
        else
          match ← StateT.lift (escapedChar? c rest) with
          | some (d, rest) =>
            skipTo rest
            return (.one (charTest fold (· = d)), true)
          | none => fail .unknownEscape

/-! ## Groups -/

/-- Option letters after a question mark, up to a closing sign or a colon. -/
def optionLetters : Bytes → Bool → Flags → Except Fault (Flags × Char × Bytes)
  | [], _, _ => .error .openGroup
  | c :: rest, on, f =>
    match c with
    | ')' | ':' => .ok (f, c, rest)
    | '-' => optionLetters rest false f
    | '^' => optionLetters rest on { f with fold := false, lines := false, dots := false, spaced := false }
    | 'i' => optionLetters rest on { f with fold := on }
    | 'm' => optionLetters rest on { f with lines := on }
    | 's' => optionLetters rest on { f with dots := on }
    | 'x' => optionLetters rest on { f with spaced := on }
    | 'n' | 'J' | 'U' => optionLetters rest on f
    | _ => .error .unknownOption

/-- Branches as one expression. -/
def branched : List OrderedRegex → OrderedRegex
  | [] => .empty
  | [r] => r
  | r :: rest => .either r (branched rest)

/-- Looks behind for each of the branches. -/
def lookBehind (wanted : Bool) (branches : List OrderedRegex) : Except Fault OrderedRegex := do
  let parts ← branches.mapM fun r =>
    match width? r with
    | some w => pure (OrderedRegex.behind wanted w r)
    | none => throw .width
  return if wanted then branched parts else parts.foldr .both .empty

/-- A new group with a name. -/
def openNamed (close : Char) : Reader Nat := do
  let begun := (← ahead?).takeWhile Bytes.isNameChar
  if !Bytes.isName begun then fail .nameExpected
  let name ← upTo close .nameEnd
  let s ← get
  if name ≠ begun then fail .nameEnd
  else if (s.names.lookup name).isSome then fail .nameTwice
  else
    let k := s.groups + 1
    set { s with groups := k, names := (name, k) :: s.names }
    return k

/-- The closing sign of a group. -/
def close : Reader Unit := do
  match ← ahead? with
  | ')' :: rest => skipTo rest
  | _ => fail .openGroup

mutual

/-- Branches between bars. If they share their numbers, each counts groups from the same number on. -/
def branches (shared : Bool) : Nat → Reader (List OrderedRegex)
  | 0 => fail .openGroup
  | n + 1 => do
    let before := (← get).groups
    let r ← sequence n .empty
    match ← ahead? with
    | '|' :: rest =>
      let after := (← get).groups
      modify fun s => { s with rest, groups := if shared then before else s.groups }
      let more ← branches shared n
      modify fun s => { s with groups := max s.groups after }
      return r :: more
    | _ => return [r]

def sequence : Nat → OrderedRegex → Reader OrderedRegex
  | 0, _ => fail .openGroup
  | n + 1, acc => do
    skipBlanks
    match ← ahead? with
    | [] | '|' :: _ | ')' :: _ => return acc
    | _ =>
      match ← atom n with
      | none => sequence n acc
      | some (r, repeatable) =>
        let r ← if repeatable then quantified r else pure r
        sequence n (match acc with
          | .empty => r
          | acc => .both acc r)

/-- One expression, or nothing for options and comments, and whether it may be repeated. -/
def atom : Nat → Reader (Option (OrderedRegex × Bool))
  | 0 => fail .openGroup
  | n + 1 => do
    let s ← get
    match ← StateT.lift (bounds? s.rest) with
    | some _ => fail .nothingToRepeat
    | none =>
      match s.rest with
      | '.' :: rest =>
        skipTo rest
        return some (.one fun c => s.flags.dots || c ≠ '\n', true)
      | '^' :: rest =>
        skipTo rest
        return some (.place (startsLine s.flags.lines), false)
      | '$' :: rest =>
        skipTo rest
        return some (.place (stopsLine s.flags.lines), false)
      | '[' :: rest =>
        if [':', '.', '='].any fun c => (bracketName? c s.rest).isSome then fail .classOutside
        else
          let (test, rest) ← StateT.lift (classTest s.flags.fold rest)
          skipTo rest
          return some (.one test, true)
      | '\\' :: rest =>
        skipTo rest
        return some (← escaped)
      | '(' :: rest =>
        skipTo rest
        let r ← grouped n
        -- options last until the end of the group around them
        let isOption := match rest with
          | '?' :: _ => r.isNone
          | _ => false
        if !isOption then modify fun t => { t with flags := s.flags }
        return r.map fun r => (r, true)
      | c :: rest =>
        skipTo rest
        return some (.one (charTest s.flags.fold (· = c)), true)
      | [] => return none

/-- A group after its opening sign. -/
def grouped : Nat → Reader (Option OrderedRegex)
  | 0 => fail .openGroup
  | n + 1 => do
    let inside (f : List OrderedRegex → Except Fault OrderedRegex) : Reader (Option OrderedRegex) := do
      let found ← branches false n
      close
      return some (← StateT.lift (f found))
    let capture (k : Nat) : Reader (Option OrderedRegex) := do
      let r ← inside fun bs => .ok (branched bs)
      return r.map (.group k)
    let call (name : Bytes) : Reader (Option OrderedRegex) := return some (.part (← groupNumber name))
    match ← ahead? with
    | '*' :: rest =>
      skipTo rest
      let verb ← upTo ')' .verb
      if Bytes.isAmong verb [bytes "FAIL", bytes "F"] then return some (.ahead false .empty) else fail .verb
    | '?' :: rest =>
      skipTo (rest.drop 1)
      match rest with
      | ':' :: _ => inside fun bs => .ok (branched bs)
      | '|' :: _ =>
        let found ← branches true n
        close
        return some (branched found)
      | '>' :: _ => inside fun bs => .ok (.first (branched bs))
      | '=' :: _ => inside fun bs => .ok (.ahead true (branched bs))
      | '!' :: _ => inside fun bs => .ok (.ahead false (branched bs))
      | '<' :: '=' :: rest =>
        skipTo rest
        inside (lookBehind true)
      | '<' :: '!' :: rest =>
        skipTo rest
        inside (lookBehind false)
      | '<' :: [] => fail .nameExpected
      | '<' :: _ => capture (← openNamed '>')
      | '\x27' :: _ => capture (← openNamed '\x27')
      | 'P' :: '<' :: rest =>
        skipTo rest
        capture (← openNamed '>')
      | 'P' :: '=' :: rest =>
        skipTo rest
        let k ← groupNumber (← upTo ')' .nameEnd)
        return some (.again k (← get).flags.fold)
      | 'P' :: '>' :: rest =>
        skipTo rest
        call (← upTo ')' .nameEnd)
      | '&' :: _ => call (← upTo ')' .nameEnd)
      | 'R' :: ')' :: rest =>
        skipTo rest
        return some (.part 0)
      | '#' :: _ =>
        let _ ← upTo ')' .openComment
        return none
      | '(' :: _ => conditional n
      | c :: d :: _ =>
        if c.isDigit || (c = '+' && d.isDigit) || (c = '-' && d.isDigit) then
          skipTo rest
          call (← upTo ')' .openGroup)
        else options n rest
      | _ => options n rest
    | _ =>
      let k := (← get).groups + 1
      modify fun s => { s with groups := k }
      capture k

/-- Options for what follows, or for the group that they open. -/
def options : Nat → Bytes → Reader (Option OrderedRegex)
  | 0, _ => fail .openGroup
  | n + 1, cs => do
    let (flags, c, rest) ← StateT.lift (optionLetters cs true (← get).flags)
    modify fun s => { s with rest, flags }
    if c = ')' then return none
    else
      let found ← branches false n
      close
      return some (branched found)

/-- Two branches of which a condition chooses one. -/
def conditional : Nat → Reader (Option OrderedRegex)
  | 0 => fail .openGroup
  | n + 1 => do
    let cs ← ahead?
    let name := cs.takeWhile fun c => c ≠ ')'
    let look := cs.head? = some '?'
    let condition : OrderedRegex → OrderedRegex → OrderedRegex ←
      if look then
        match ← grouped n with
        | some r =>
          let other := match r with
            | .ahead wanted r => OrderedRegex.ahead (!wanted) r
            | .behind wanted w r => .behind (!wanted) w r
            | r => .ahead false r
          pure fun a b => .either (.both r a) (.both other b)
        | none => fail .openGroup
      else
        skipTo (cs.drop (name.length + 1))
        if name = bytes "DEFINE" then pure fun a _ => .either .empty (.both (.ahead false .empty) a)
        else
          let name := (name.dropWhile fun c => c = '<' || c = '\x27')
          let name := (name.reverse.dropWhile fun c => c = '>' || c = '\x27').reverse
          let k ← groupNumber name
          pure (.ifGroup k)
    let found ← branches false n
    close
    match found with
    | [a] => return some (condition a .empty)
    | a :: rest => return some (condition a (branched rest))
    | [] => return none

end

/-- Replaces quoted stretches by backslashes before their signs. -/
def unquoted : Bool → Bytes → Bytes
  | _, [] => []
  | true, '\\' :: 'E' :: rest => unquoted false rest
  | true, c :: rest => if c.isAlphanum then c :: unquoted true rest else '\\' :: c :: unquoted true rest
  | false, '\\' :: 'Q' :: rest => unquoted true rest
  | false, '\\' :: 'E' :: rest => unquoted false rest
  | false, '\\' :: c :: rest => '\\' :: c :: unquoted false rest
  | false, c :: rest => c :: unquoted false rest

/-- An expression that fits whole lines alone. -/
def forLines (lines : Bool) (r : OrderedRegex) : OrderedRegex :=
  .both (.place (startsLine lines)) (.both r (.place (stopsLine lines)))

/-- Reads a whole expression. The names of its groups are known before the second time. -/
def ofText (flags : Flags) (text : Bytes) : Except Fault OrderedRegex := do
  let text := unquoted false text
  let whole (known : Option (List (Bytes × Nat))) : Except Fault (OrderedRegex × Source) := do
    let (found, s) ← (branches false (8 * text.length + 16)).run ⟨text, flags, 0, [], 0, known⟩
    if !s.rest.isEmpty then throw .lonelyClose
    else if s.groups < s.highest then throw .noGroup
    else return (branched found, s)
  let (_, s) ← whole none
  let (r, _) ← whole (some s.names)
  return r

end OrderedRegex
end ValueInspector.Shell
