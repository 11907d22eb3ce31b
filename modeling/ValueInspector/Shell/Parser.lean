import ValueInspector.Shell.Script

/-! # Reading scripts

A script is read one line of commands at a time, because a line is run before the next one is read.
Reading a word reads the expansions in it, and so the commands in a substitution.
-/
namespace ValueInspector.Shell

inductive RedirectMark where
  | simple (kind : RedirectKind)
  | document (dropTabs : Bool)
deriving DecidableEq, Repr

inductive Token where
  | eof
  | newline
  | semicolon
  | ampersand
  | both
  | either
  | bar
  | left
  | right
  | clauseEnd
  | redirect (fd : Nat) (mark : RedirectMark)
  /-- A reserved word. -/
  | reserved (name : String)
  | word (w : Word)

/-- Reserved words with their bytes. -/
def reservedWords : List (Bytes × String) :=
  ["!", "case", "do", "done", "elif", "else", "esac", "fi", "for", "if", "in", "then", "until",
   "while", "\x7b", "\x7d"].map fun w => (bytes w, w)

namespace Token

/-- How a token is called in messages. -/
def text : Token → Bytes
  | .eof => bytes "end of file"
  | .newline => bytes "newline"
  | .semicolon => bytes "\";\""
  | .ampersand => bytes "\"&\""
  | .both => bytes "\"&&\""
  | .either => bytes "\"||\""
  | .bar => bytes "\"|\""
  | .left => bytes "\"(\""
  | .right => bytes "\")\""
  | .clauseEnd => bytes "\";;\""
  | .redirect _ _ => bytes "redirection"
  | .reserved name => '"' :: bytes name ++ ['"']
  | .word _ => bytes "word"

def isReserved (t : Token) (name : String) : Bool :=
  match t with
  | .reserved n => n = name
  | _ => false

/-- Whether a token ends a list of commands that may end without a separator. -/
def endsList : Token → Bool
  | .eof | .right | .clauseEnd => true
  | .reserved n => ["do", "done", "elif", "else", "esac", "fi", "then", "\x7d"].contains n
  | _ => false

end Token

/-- Why a script cannot be read, and on which line. -/
structure ScriptFault where
  line : Nat
  message : Bytes
deriving Repr

/-- A text that is due after the line in which it was announced. -/
structure PendingDocument where
  id : Nat
  delimiter : Bytes
  quoted : Bool
  dropTabs : Bool
deriving Repr

/-- An alias that was put into the text: its name, and how much text is left after it. -/
structure OpenAlias where
  name : Bytes
  left : Nat
  blankAtEnd : Bool

structure ScriptReader where
  rest : Bytes
  line : Nat
  /-- A token that was read ahead. -/
  ahead : Option Token
  pending : List PendingDocument
  /-- Texts read so far, by number. -/
  documents : List (Nat × Word)
  nextDocument : Nat
  aliases : List (Bytes × Bytes)
  openAliases : List OpenAlias
  /-- The next word may be an alias although it does not name a command. -/
  aliasNext : Bool
  /-- The document in which the text stands. -/
  document : Option PendingDocument
  /-- What is after the delimiter of a document that has ended. -/
  beyond : Bytes
  /-- More than the number of steps that reading the rest takes. -/
  bound : Nat

abbrev Parser := StateT ScriptReader (Except ScriptFault)

namespace Parser

def fail {α : Type} (message : Bytes) : Parser α := do
  throw ⟨(← get).line, bytes "Syntax error: " ++ message⟩

def unexpected {α : Type} (t : Token) : Parser α := fail (t.text ++ bytes " unexpected")

def expected {α : Type} (t : Token) (wanted : Token) : Parser α :=
  fail (t.text ++ bytes " unexpected (expecting " ++ wanted.text ++ [')'])

/-- Removes line continuations in front. -/
def joinLines : Bytes → Nat → Bytes × Nat
  | '\\' :: '\n' :: rest, line => joinLines rest (line + 1)
  | cs, line => (cs, line)

/-- The next character, line continuations skipped. -/
def peek : Parser (Option Char) := do
  let s ← get
  match s.rest with
  | '\\' :: '\n' :: _ =>
    let (rest, line) := joinLines s.rest s.line
    set { s with rest, line }
    return rest.head?
  | cs => return cs.head?

/-- Takes the next character as it stands. -/
def advance : Parser Unit := modify fun s =>
  match s.rest with
  | [] => s
  | c :: rest => { s with rest, line := if c = '\n' then s.line + 1 else s.line }

/-- Takes a character that is in no word; its line is not counted. -/
def swallow : Parser Unit := do
  let _ ← peek
  modify fun s => { s with rest := s.rest.drop 1 }

def take : Parser (Option Char) := do
  let c ← peek
  advance
  return c

/-- Takes characters as long as they pass a test. -/
def takeWhile (test : Char → Bool) : Nat → Bytes → Parser Bytes
  | 0, acc => return acc.reverse
  | n + 1, acc => do
    match ← peek with
    | some c =>
      if test c then
        advance
        takeWhile test n (c :: acc)
      else return acc.reverse
    | none => return acc.reverse

/-- Takes the text up to a character, and that one. -/
def takeUntil (stop : Char) : Parser (Option Bytes) := do
  let s ← get
  let inside := s.rest.takeWhile (· ≠ stop)
  match s.rest.drop inside.length with
  | [] =>
    set { s with rest := [], line := s.line + inside.count '\n' }
    return none
  | _ :: rest =>
    set { s with rest, line := s.line + inside.count '\n' + if stop = '\n' then 1 else 0 }
    return some inside

/-- Where a piece of a word stands. -/
inductive Context where
  /-- Outside of quotes and braces. -/
  | outside
  /-- In double quotes, inside of braces or not. -/
  | quotes (inBraces : Bool)
  /-- In the braces of a parameter, which may stand in double quotes. -/
  | braces (quoted : Bool)
  | document
  /-- In an arithmetic expansion, with so many open parentheses. -/
  | arithmetic (depth : Nat)
deriving DecidableEq

namespace Context

def quoted : Context → Bool
  | .outside => false
  | .quotes _ => true
  | .braces q => q
  | .document => true
  | .arithmetic _ => true

/-- Whether a brace would end an enclosing parameter. -/
def inBraces : Context → Bool
  | .quotes b => b
  | .braces _ => true
  | _ => false

end Context

/-- What reading needs of itself: a list of commands, and the pieces of a word up to where its
context ends. -/
structure Productions where
  list : (top emptyAllowed : Bool) → Parser (Option Command)
  command : Parser Command
  pieces : Context → Word → Parser Word

/-- A character as a piece of its context. -/
def literal (context : Context) (c : Char) : Piece :=
  if context.quoted then .quoted [c] else .plain c

/-- The characters of a substitution between backquotes, with its escapes undone. -/
def backquoted (quoted : Bool) : Nat → Bytes → Parser Bytes
  | 0, acc => return acc.reverse
  | n + 1, acc => do
    match ← take with
    | none => fail (bytes "EOF in backquote substitution")
    | some c =>
      if c = '\x60' then return acc.reverse
      else if c = '\\' then
        match ← take with
        | none => fail (bytes "EOF in backquote substitution")
        | some d =>
          if d = '\\' || d = '\x60' || d = '$' || (quoted && d = '"') then
            backquoted quoted n (d :: acc)
          else backquoted quoted n (d :: '\\' :: acc)
      else backquoted quoted n (c :: acc)

/-- Reads with another text in place of the rest. Its lines are counted anew. -/
def within {α : Type} (text : Bytes) (p : Parser α) : Parser α := do
  let s ← get
  set { s with rest := text, line := 1, ahead := none, pending := [], openAliases := [], document := none }
  let a ← p
  modify fun inner =>
    { inner with
      rest := s.rest, line := s.line, ahead := s.ahead, pending := s.pending,
      openAliases := s.openAliases, document := s.document }
  return a

/-- Begins a line of a document: tabs are dropped, and at the delimiter the text ends. A backslash right
after tabs that were dropped stays, and so does the line feed after it, which ends no line. -/
def startLine : Parser Word := do
  match (← get).document with
  | none => return []
  | some d =>
    let _ ← peek
    let s ← get
    let rest := if d.dropTabs then s.rest.dropWhile (· = '\t') else s.rest
    match Bytes.after? d.delimiter rest, rest with
    | some [], _ =>
      set { s with rest := [], beyond := [], line := s.line + 1 }
      return []
    | some ('\n' :: beyond), _ =>
      set { s with rest := [], beyond, line := s.line + 1 }
      return []
    | _, '\\' :: '\n' :: more =>
      set { s with rest := more }
      return [.quoted ['\\', '\n']]
    | _, _ =>
      set { s with rest }
      return []

section Words
variable (g : Productions) (n : Nat)

/-- Reserved parameter names of one character. -/
def isSpecial (c : Char) : Bool := c ∈ ['@', '*', '#', '?', '-', '$', '!'] || c.isDigit

/-- What follows the name of a parameter in braces. -/
def modifier (quoted : Bool) : Parser Modifier := do
  let fallback (colon : Bool) : Parser Modifier := do
    let kind? := fun c : Char =>
      if c = '-' then some Fallback.use
      else if c = '=' then some .assign
      else if c = '?' then some .fail
      else if c = '+' then some .instead
      else none
    match (← peek).bind kind? with
    | some f =>
      advance
      return .fallback colon f (← g.pieces (.braces quoted) [])
    | none =>
      swallow
      let _ ← g.pieces (.braces quoted) []
      return .unknown
  match ← peek with
  | some c =>
    if c = '\x7d' then
      advance
      return .value
    else if c = ':' then
      advance
      if (← peek) = some '\x7d' then
        -- The brace counts as the operator, so the word goes on to the next one.
        advance
        let _ ← g.pieces (.braces quoted) []
        return .value
      else fallback true
    else if c = '#' || c = '%' then
      advance
      let longest := (← peek) = some c
      if longest then advance
      return .trim (c = '#') longest (← g.pieces (.braces false) [])
    else fallback false
  | none => fallback false

/-- A parameter after its opening brace. -/
def braced (quoted : Bool) : Parser Piece := do
  let named (name : Bytes) : Parser Piece := do
    return .parameter name (← modifier g quoted) quoted
  let lengthOf (name : Bytes) : Parser Piece := do
    if (← peek) = some '\x7d' then
      advance
      return .parameter name .length quoted
    else
      let _ ← g.pieces (.braces quoted) []
      return .parameter name .unknown quoted
  let nameFrom (c : Char) : Parser Bytes :=
    takeWhile (if c.isDigit then Char.isDigit else Bytes.isNameChar) n []
  match ← peek with
  | none => named []
  | some c =>
    if Bytes.isNameChar c then named (← nameFrom c)
    else if c = '#' then
      advance
      match ← peek with
      | none => named ['#']
      | some d =>
        if Bytes.isNameChar d then lengthOf (← nameFrom d)
        else
          let closed := ((← get).rest.drop 1).head? = some '\x7d'
          if d = '\x7d' || !closed then named ['#']
          else if isSpecial d then
            advance
            lengthOf [d]
          else
            swallow
            let _ ← g.pieces (.braces quoted) []
            return .parameter [] .unknown quoted
    else if isSpecial c then
      advance
      named [c]
    else
      unless c = '\x7d' do swallow
      let _ ← g.pieces (.braces quoted) []
      return .parameter [] .unknown quoted

/-- A substitution after its opening parenthesis. -/
def substitution (quoted : Bool) : Parser Piece := do
  let s ← get
  set { s with ahead := none, pending := [], openAliases := [], aliasNext := false, document := none }
  let body ← g.list false true
  let inner ← get
  match inner.ahead with
  | some .right =>
    set { inner with
      ahead := s.ahead, pending := s.pending, openAliases := s.openAliases,
      aliasNext := s.aliasNext, document := s.document }
    return .substitution body quoted
  | some t => expected t .right
  | none => expected .eof .right

/-- What a dollar sign starts. -/
def dollar (context : Context) : Parser Piece := do
  let quoted := context.quoted
  match ← peek with
  | none => return literal context '$'
  | some c =>
    if c = '(' then
      advance
      if (← peek) = some '(' then
        advance
        return .arithmetic (← g.pieces (.arithmetic 0) []) quoted
      else substitution g quoted
    else if c = '\x7b' then
      advance
      braced g n quoted
    else if Bytes.isNameStart c then
      return .parameter (← takeWhile Bytes.isNameChar n []) .value quoted
    else if isSpecial c then
      advance
      return .parameter [c] .value quoted
    else return literal context '$'

/-- What stands for a character after a backslash. -/
def escaped (context : Context) : Parser Piece := do
  match (← get).rest with
  | [] => return .quoted ['\\']
  | c :: _ =>
    advance
    let kept :=
      context.quoted && c ≠ '\\' && c ≠ '\x60' && c ≠ '$' &&
        (c ≠ '"' || (context = .document)) && (c ≠ '\x7d' || !context.inBraces)
    return .quoted (if kept then ['\\', c] else [c])

/-- The fault of a text that ends inside a word. -/
def unfinished {α : Type} (context : Context) : Parser α := do
  let inDocument := (← get).document.isSome
  match context with
  | .arithmetic _ => fail (bytes "Missing '))'")
  | .quotes _ | .braces true =>
    fail (bytes (if inDocument then "Missing '\x7d'" else "Unterminated quoted string"))
  | .braces false => fail (bytes "Missing '\x7d'")
  | .outside | .document => fail (bytes "end of file unexpected")

/-- Text in quotes stands for a word even when it is empty, unless it is the parameters alone. -/
def quotedText (inside : Word) : Word :=
  match inside with
  | [.parameter ['@'] .value _] => inside
  | _ => .quoted [] :: inside

/-- The pieces of a word up to the end of its context, those before in reverse. -/
def piecesFrom (context : Context) : Nat → Word → Parser Word
  | 0, acc => return acc.reverse
  | m + 1, acc => do
    match ← peek with
    | none =>
      if context = .outside || context = .document then return acc.reverse else unfinished context
    | some c =>
      if c = '\\' then
        advance
        piecesFrom context m ((← escaped context) :: acc)
      else if c = '$' then
        advance
        piecesFrom context m ((← dollar g n context) :: acc)
      else if c = '\x60' then
        advance
        let text ← backquoted context.quoted ((← get).rest.length + 1) []
        let body ← within text (g.list false true)
        piecesFrom context m (.substitution body context.quoted :: acc)
      else
        match context with
        | .outside =>
          if Bytes.isBlank c || c ∈ ['\n', ';', '&', '|', '<', '>', '(', ')'] then return acc.reverse
          else if c = '\x27' then quote m acc
          else if c = '"' then
            advance
            let inside ← g.pieces (.quotes false) []
            piecesFrom context m ((quotedText inside).reverse ++ acc)
          else plain m acc c
        | .quotes _ =>
          if c = '"' then
            advance
            return acc.reverse
          else plain m acc c
        | .braces quoted =>
          if c = '\x7d' then
            advance
            return acc.reverse
          else if c = '"' then
            advance
            let inside ← g.pieces (.quotes true) []
            piecesFrom context m ((quotedText inside).reverse ++ acc)
          else if c = '\x27' && !quoted then quote m acc
          else plain m acc c
        | .document => plain m acc c
        | .arithmetic depth =>
          if c = '(' then
            advance
            let inside ← g.pieces (.arithmetic (depth + 1)) []
            piecesFrom context m (.quoted [')'] :: inside.reverse ++ .quoted ['('] :: acc)
          else if c = ')' then
            advance
            if 0 < depth then return acc.reverse
            else if (← peek) = some ')' then
              advance
              return acc.reverse
            else piecesFrom context m (.quoted [')'] :: acc)
          else plain m acc c
where
  plain (m : Nat) (acc : Word) (c : Char) : Parser Word := do
    advance
    let start ← if c = '\n' then startLine else pure []
    piecesFrom context m (start ++ literal context c :: acc)
  quote (m : Nat) (acc : Word) : Parser Word := do
    advance
    match ← takeUntil '\x27' with
    | none => fail (bytes "Unterminated quoted string")
    | some inside => piecesFrom context m (.quoted inside :: acc)

end Words

section Tokens
variable (g : Productions) (n : Nat)

/-- Drops the aliases whose text is used up. -/
def closeAliases : Parser Unit := modify fun s =>
  match s.openAliases with
  | [] => s
  | opened =>
    let left := s.rest.length
    let (closed, opened) := opened.partition fun a => left ≤ a.left
    { s with
      openAliases := opened
      aliasNext := s.aliasNext || closed.any (·.blankAtEnd) }

/-- The lines of a document without expansions up to its delimiter, those before in reverse. -/
def rawLines (d : PendingDocument) : Nat → List Bytes → Parser Bytes
  | 0, acc => return acc.reverse.flatten
  | m + 1, acc => do
    let s ← get
    if s.rest.isEmpty then return acc.reverse.flatten
    let raw := s.rest.takeWhile (· ≠ '\n')
    let ended := s.rest.length ≤ raw.length
    let line := if d.dropTabs then raw.dropWhile (· = '\t') else raw
    let atEnd := line = d.delimiter
    set { s with
      rest := s.rest.drop (raw.length + 1), line := if ended && !atEnd then s.line else s.line + 1 }
    if atEnd then return acc.reverse.flatten
    else rawLines d m ((if ended then line else line ++ ['\n']) :: acc)

/-- Reads a document in place, so that a substitution in it may go on after its delimiter. -/
def expandedLines (d : PendingDocument) : Parser Word := do
  let before := (← get).document
  modify ({ · with document := some d, beyond := [] })
  let body ← g.pieces .document (← startLine)
  modify fun s => { s with rest := s.rest ++ s.beyond, document := before, beyond := [] }
  return body

/-- Reads the documents that are due. -/
def readDocuments : Parser Unit := do
  let due := (← get).pending
  modify ({ · with pending := [] })
  due.forM fun d => do
    let body ←
      if d.quoted then do pure [.quoted (← rawLines d ((← get).rest.length + 1) [])]
      else expandedLines g d
    modify fun s => { s with documents := (d.id, body) :: s.documents }

/-- A redirection operator after its descriptor. -/
def redirection (fd : Option Nat) : Parser Token := do
  let c ← take
  let next ← peek
  let found (fd : Nat) (mark : RedirectMark) : Parser Token := do
    advance
    return .redirect fd mark
  if c = some '>' then
    let fd := fd.getD 1
    if next = some '>' then found fd (.simple .append)
    else if next = some '|' then found fd (.simple .clobber)
    else if next = some '&' then found fd (.simple .duplicate)
    else return .redirect fd (.simple .output)
  else
    let fd := fd.getD 0
    if next = some '<' then
      advance
      if (← peek) = some '-' then found fd (.document true) else return .redirect fd (.document false)
    else if next = some '&' then found fd (.simple .duplicate)
    else if next = some '>' then found fd (.simple .both)
    else return .redirect fd (.simple .input)

/-- A token of one or two characters, after the first. -/
def doubled (c : Char) (single double : Token) : Parser Token := do
  if (← peek) = some c then
    advance
    return double
  else return single

/-- The next token, reserved words and aliases not recognized. -/
def rawToken : Nat → Parser Token
  | 0 => return .eof
  | m + 1 => do
    match ← peek with
    | none =>
      readDocuments g
      return .eof
    | some c =>
      if Bytes.isBlank c then
        advance
        rawToken m
      else if c = '#' then
        let s ← get
        set { s with rest := s.rest.dropWhile (· ≠ '\n') }
        rawToken m
      else if c = '\n' then
        advance
        readDocuments g
        return .newline
      else if c = ';' then
        advance
        doubled ';' .semicolon .clauseEnd
      else if c = '&' then
        advance
        doubled '&' .ampersand .both
      else if c = '|' then
        advance
        doubled '|' .bar .either
      else if c = '(' then
        advance
        return .left
      else if c = ')' then
        advance
        return .right
      else if c = '<' || c = '>' then redirection none
      else
        let w ← g.pieces .outside []
        match w, (← get).rest with
        | [.plain d], e :: _ =>
          if d.isDigit && (e = '<' || e = '>') then redirection (some (d.toNat - '0'.toNat))
          else return .word w
        | _, _ => return .word w

/-- What is recognized in the next token. -/
structure Expect where
  newlines : Bool
  reserved : Bool
  aliases : Bool

def tokenFrom (e : Expect) : Nat → Parser Token
  | 0 => return .eof
  | m + 1 => do
    let s ← get
    let t ← match s.ahead with
      | some t => do
        set { s with ahead := none }
        pure t
      | none => rawToken g n
    match t with
    | .newline => if e.newlines then tokenFrom e m else return t
    | .word w =>
      match w.literal? with
      | none => return t
      | some text =>
        match if e.reserved then reservedWords.lookup text else none with
        | some name => return .reserved name
        | none =>
          closeAliases
          let s ← get
          set { s with aliasNext := false }
          if !(e.aliases || s.aliasNext) then return t
          else
            match s.aliases.lookup text with
            | none => return t
            | some value =>
              if s.openAliases.any (·.name = text) then return t
              else
                set
                  { s with
                    rest := value ++ s.rest, bound := s.bound + 2 * value.length, aliasNext := false
                    openAliases :=
                      ⟨text, s.rest.length, value.getLast?.any Bytes.isBlank⟩ :: s.openAliases }
                tokenFrom e m
    | _ => return t

def token (e : Expect) : Parser Token := tokenFrom g n e n

def plainToken : Parser Token := token g n ⟨false, false, false⟩
def commandToken : Parser Token := token g n ⟨true, true, true⟩

def putBack (t : Token) : Parser Unit := modify ({ · with ahead := some t })

/-- Reads a token that must be a given reserved word. -/
def reserved (e : Expect) (name : String) : Parser Unit := do
  let t ← token g n e
  unless t.isReserved name do expected t (.reserved name)

/-- The target of a redirection. -/
def redirectionTarget (fd : Nat) (mark : RedirectMark) : Parser Redirection := do
  match ← plainToken g n with
  | .word w =>
    match mark with
    | .document dropTabs =>
      let s ← get
      let delimiter := w.flatMap fun
        | .plain c => [c]
        | .quoted cs => cs
        | _ => []
      let due : PendingDocument := ⟨s.nextDocument, delimiter, w.hasQuotes, dropTabs⟩
      set
        { s with
          nextDocument := s.nextDocument + 1
          pending := s.pending ++ [due] }
      return .mk fd (.document s.nextDocument) []
    | .simple kind => return .mk fd kind w
  | t => unexpected t

/-- Redirections as long as there are some. -/
def redirectionsFrom (e : Expect) : Nat → List Redirection → Parser (List Redirection)
  | 0, acc => return acc.reverse
  | m + 1, acc => do
    match ← token g n e with
    | .redirect fd mark =>
      let r ← redirectionTarget g n fd mark
      redirectionsFrom ⟨false, false, false⟩ m (r :: acc)
    | t =>
      putBack t
      return acc.reverse

def redirections : Parser (List Redirection) := redirectionsFrom g n ⟨false, true, true⟩ n []

end Tokens

section Commands
variable (g : Productions) (n : Nat)

/-- Names of the built-in commands that no function may have. -/
def specialNames : List Bytes :=
  [".", ":", "break", "continue", "eval", "exec", "exit", "export", "readonly", "return", "set",
   "shift", "times", "trap", "unset"].map bytes

/-- A list that must not be empty; at the end of the text it is taken to be. -/
def body : Parser Command := do return (← g.list false false).getD (.pipeline [])

structure SimpleParts where
  assignments : List (Bytes × Word)
  words : List Word
  redirections : List Redirection

/-- The parts of a simple command, or a function definition. -/
def simpleFrom (line : Nat) : Nat → SimpleParts → Parser Command
  | 0, _ => fail []
  | m + 1, parts => do
    let first := parts.words.isEmpty
    match ← token g n ⟨false, false, first⟩ with
    | .word w =>
      match (if first then w.assignment? else none) with
      | some a => simpleFrom line m { parts with assignments := a :: parts.assignments }
      | none => simpleFrom line m { parts with words := w :: parts.words }
    | .redirect fd mark =>
      let r ← redirectionTarget g n fd mark
      simpleFrom line m { parts with redirections := r :: parts.redirections }
    | t =>
      match t, parts with
      | .left, ⟨[], [w], []⟩ =>
        let close ← plainToken g n
        match close with
        | .right => pure ()
        | t => expected t .right
        match w.literal? with
        | some name =>
          if Bytes.isName name && !Bytes.isAmong name specialNames then
            let t ← commandToken g n
            putBack t
            return .define name (← g.command)
          else fail (bytes "Bad function name")
        | none => fail (bytes "Bad function name")
      | t, parts =>
        putBack t
        return .simple line parts.assignments.reverse parts.words.reverse
          parts.redirections.reverse

/-- The words of a loop up to the end of the line. -/
def loopWords : Nat → List Word → Parser (List Word)
  | 0, acc => return acc.reverse
  | m + 1, acc => do
    match ← plainToken g n with
    | .word w => loopWords m (w :: acc)
    | .newline | .semicolon => return acc.reverse
    | t => unexpected t

def forLoop (line : Nat) : Parser Command := do
  let bad {α : Type} : Parser α := fail (bytes "Bad for loop variable")
  let name ← match ← plainToken g n with
    | .word w =>
      match w.literal? with
      | some name => if Bytes.isName name then pure name else bad
      | none => bad
    | _ => bad
  let t ← commandToken g n
  let words ← if t.isReserved "in" then some <$> loopWords g n n []
    else do
      match t with
      | .semicolon => pure ()
      | t => putBack t
      pure none
  reserved g n ⟨true, true, true⟩ "do"
  let c ← body g
  reserved g n ⟨false, false, false⟩ "done"
  return .each line name words c

/-- A token as a pattern: a reserved word stands for itself there, and an operator for no text. -/
def patternWord : Token → Word
  | .word w => w
  | .reserved name => name.toList.map .plain
  | _ => []

def patterns : Nat → List Word → Token → Parser (List Word)
  | 0, acc, _ => return acc.reverse
  | m + 1, acc, t => do
    let w := patternWord t
    match ← plainToken g n with
    | .bar => patterns m (w :: acc) (← plainToken g n)
    | .right => return (w :: acc).reverse
    | t => expected t .right

def clauses : Nat → List (List Word × Option Command) → Parser (List (List Word × Option Command))
  | 0, acc => return acc.reverse
  | m + 1, acc => do
    let t ← token g n ⟨true, true, false⟩
    if t.isReserved "esac" then return acc.reverse
    else
      let t ← match t with
        | .left => plainToken g n
        | t => pure t
      let ws ← patterns g n n [] t
      let c ← g.list false true
      let t ← token g n ⟨true, true, false⟩
      match t with
      | .clauseEnd => clauses m ((ws, c) :: acc)
      | t =>
        if t.isReserved "esac" then return ((ws, c) :: acc).reverse
        else expected t .clauseEnd

def choiceFrom : Nat → Parser Command
  | 0 => fail []
  | m + 1 => do
    let test ← body g
    reserved g n ⟨false, false, false⟩ "then"
    let yes ← body g
    let t ← plainToken g n
    if t.isReserved "elif" then return .choice test yes (some (← choiceFrom m))
    else if t.isReserved "else" then
      let no ← body g
      reserved g n ⟨false, false, false⟩ "fi"
      return .choice test yes (some no)
    else if t.isReserved "fi" then return .choice test yes none
    else expected t (.reserved "fi")

/-- A command with the redirections after it. -/
def command : Parser Command := do
  let t ← plainToken g n
  let line := (← get).line
  let redirect (c : Command) : Parser Command := do
    let rs ← redirections g n
    return if rs.isEmpty then c else .redirected line c rs
  match t with
  | .reserved name =>
    if name = "if" then redirect (← choiceFrom g n n)
    else if name = "while" || name = "until" then
      let test ← body g
      reserved g n ⟨false, false, false⟩ "do"
      let c ← body g
      reserved g n ⟨false, false, false⟩ "done"
      redirect (.loop (name = "until") test c)
    else if name = "for" then redirect (← forLoop g n line)
    else if name = "case" then
      let w ← match ← plainToken g n with
        | .word w => pure w
        | t => expected t (.word [])
      reserved g n ⟨true, true, true⟩ "in"
      redirect (.select line w (← clauses g n n []))
    else if name = "\x7b" then
      let c ← body g
      reserved g n ⟨false, false, false⟩ "\x7d"
      -- Redirections after the braces take the place of those of a subshell that is alone in them.
      match c with
      | .subshell inner c own =>
        let rs ← redirections g n
        return .subshell inner c (if rs.isEmpty then own else rs)
      | c => redirect c
    else unexpected t
  | .left =>
    let c ← body g
    match ← plainToken g n with
    | .right => return .subshell line c (← redirections g n)
    | t => expected t .right
  | .word _ | .redirect _ _ =>
    putBack t
    simpleFrom g n line n { assignments := [], words := [], redirections := [] }
  | t => unexpected t

def pipelineFrom : Nat → List Command → Parser (List Command)
  | 0, acc => return acc.reverse
  | m + 1, acc => do
    match ← plainToken g n with
    | .bar =>
      let t ← commandToken g n
      putBack t
      let c ← command g n
      pipelineFrom m (c :: acc)
    | t =>
      putBack t
      return acc.reverse

def pipeline : Parser Command := do
  let t ← plainToken g n
  let negated := t.isReserved "!"
  if negated then putBack (← token g n ⟨false, true, true⟩) else putBack t
  let c ← match ← pipelineFrom g n n [← command g n] with
    | [c] => pure c
    | cs => pure (.pipeline cs)
  return if negated then .not c else c

def andOrFrom : Nat → Command → Parser Command
  | 0, c => return c
  | m + 1, c => do
    let next : Parser Command := do
      putBack (← commandToken g n)
      pipeline g n
    match ← plainToken g n with
    | .both => do andOrFrom m (.and c (← next))
    | .either => do andOrFrom m (.or c (← next))
    | t =>
      putBack t
      return c

def listFrom (top : Bool) : Nat → Bool → Option Command → Parser (Option Command)
  | 0, _, acc => return acc
  | m + 1, mayEnd, acc => do
    let t ← token g n ⟨!top, true, true⟩
    match t with
    | .newline => return acc
    | .eof =>
      putBack t
      return acc
    | t =>
      putBack t
      if !top && mayEnd && t.endsList then return acc
      else
        let c ← andOrFrom g n n (← pipeline g n)
        let t ← plainToken g n
        let c := match t with
          | .ampersand => .background c
          | _ => c
        let all := some (match acc with
          | none => c
          | some before => .sequence before c)
        match t with
        | .newline | .eof =>
          putBack t
          listFrom top m true all
        | .ampersand | .semicolon => listFrom top m true all
        | t =>
          if top then unexpected t
          else
            putBack t
            return all

end Commands

/-- The productions with a bound on how deep they may be nested. -/
def productions : Nat → Productions
  | 0 => ⟨fun _ _ => fail [], fail [], fun _ _ => fail []⟩
  | n + 1 =>
    -- each of them is made for one use alone, so that no more are made than the text is deep
    { list := fun top emptyAllowed s => listFrom (productions n) n top n emptyAllowed none s
      command := fun s => command (productions n) n s
      pieces := fun context acc s => piecesFrom (productions n) n context n acc s }

end Parser

namespace ScriptReader

def ofText (text : Bytes) (aliases : List (Bytes × Bytes)) (nextDocument : Nat) : ScriptReader :=
  ⟨text, 1, none, [], [], nextDocument, aliases, [], false, none, [], 2 * text.length + 64⟩

/-- Reads the commands of the next line; `none` at the end of the text. A line without commands yields
nothing. -/
def next (s : ScriptReader) : Except ScriptFault (Option (Option Command) × ScriptReader) :=
  let bound := s.bound
  let g := Parser.productions bound
  let line : Parser (Option (Option Command)) := do
    let t ← Parser.token g bound ⟨false, true, true⟩
    match t with
    | .eof => return none
    | .newline => return some none
    | t =>
      Parser.putBack t
      return some (← g.list true false)
  line s

end ScriptReader
end ValueInspector.Shell
