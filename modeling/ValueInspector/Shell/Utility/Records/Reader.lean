import ValueInspector.Shell.Utility.Records.Script
import ValueInspector.Shell.Utility.Records.Token

/-! # Reading scripts

From tokens to a script. Operators bind by levels, and a name is taken for an array or for a single
value by all its uses together; a script in which it is both is refused.
-/
namespace ValueInspector.Shell.Records

/-! ## Uses of names -/

/-- A variable, or a parameter of a function. -/
inductive Place where
  | global (name : Bytes)
  | param (function : Bytes) (k : Nat)
deriving DecidableEq

inductive Use where
  | single (p : Place)
  | array (p : Place)
  /-- A name as an argument of a function. -/
  | passed (p : Place) (function : Bytes) (k : Nat)
  /-- An argument that is no name. -/
  | given (function : Bytes) (k : Nat)

namespace Use

/-- Adds the places that are arrays because arrays are passed between them and those known. -/
def spread (uses : List Use) (known : List Place) : List Place :=
  uses.foldl
    (fun known u =>
      match u with
      | .passed p f k =>
        let q := Place.param f k
        if p ∈ known && q ∉ known then q :: known
        else if q ∈ known && p ∉ known then p :: known
        else known
      | _ => known)
    known

def closure (uses : List Use) : Nat → List Place → List Place
  | 0, known => known
  | n + 1, known =>
    let more := spread uses known
    if more.length = known.length then known else closure uses n more

/-- All places that are arrays. -/
def arrays (uses : List Use) : List Place :=
  let direct := uses.filterMap fun
    | .array p => some p
    | _ => none
  closure uses uses.length direct.eraseDups

/-- Whether a use needs a single value where an array is. -/
def conflicts (arrays : List Place) : Use → Bool
  | .single p => p ∈ arrays
  | .given f k => Place.param f k ∈ arrays
  | _ => false

/-- Variables that have a meaning from the start, those with single values. -/
def known : List String :=
  ["NF", "NR", "FNR", "FS", "RS", "OFS", "ORS", "SUBSEP", "CONVFMT", "OFMT", "FILENAME", "RSTART",
   "RLENGTH", "ARGC"]

/-- The uses of names before a script begins. -/
def start : List Use :=
  known.map (fun s => .single (.global (bytes s))) ++
    ["ARGV", "ENVIRON"].map fun s => .array (.global (bytes s))

end Use

namespace Reader

/-! ## State -/

/-- What is being read. -/
inductive Part where
  | beginning
  | rule
  | ending
  | function
deriving DecidableEq

structure State where
  tokens : List Token
  part : Part
  /-- The function that is read, with its parameters. -/
  within : Bytes
  params : List Bytes
  loops : Nat
  /-- A sign for output ends expressions outside parentheses. -/
  printing : Bool
  depth : Nat
  uses : List Use
  calls : List (Bytes × Nat)
  functions : List Function

abbrev Read := StateT State (Except Bytes)

def fail {α : Type} (text : String) : Read α := throw (bytes text)

def wrong {α : Type} : Read α := fail "syntax error"

def peek : Read (Option Token) := return (← get).tokens.head?

def advance : Read Unit := modify fun s => { s with tokens := s.tokens.drop 1 }

def isSign (sign : String) : Read Bool := do
  match ← peek with
  | some (.sign s) => return s = sign
  | _ => return false

def isKeyword (word : String) : Read Bool := do
  match ← peek with
  | some (.keyword s) => return s = word
  | _ => return false

def accept (sign : String) : Read Bool := do
  let found ← isSign sign
  if found then advance
  return found

def expect (sign : String) : Read Unit := do
  if ← accept sign then pure () else wrong

def skipLines : Read Unit := modify fun s =>
  { s with tokens := s.tokens.dropWhile fun
      | .newline => true
      | _ => false }

def note (u : Use) : Read Unit := modify fun s => { s with uses := u :: s.uses }

/-- An opening parenthesis, what is in it, and the closing one. -/
def inParentheses {α : Type} (x : Read α) : Read α := do
  expect "("
  modify fun s => { s with depth := s.depth + 1 }
  let a ← x
  expect ")"
  modify fun s => { s with depth := s.depth - 1 }
  return a

/-- Whether a sign would send output somewhere. -/
def isOutput : Read Bool := do
  let s ← get
  match s.tokens.head? with
  | some (.sign t) => return s.printing && s.depth = 0 && (t = ">" || t = ">=" || t = ">>" || t = "|")
  | _ => return false

/-- Whether a statement ends here. -/
def atEnd : Read Bool := do
  match ← peek with
  | none | some .newline => return true
  | some (.sign s) => return s = ";" || s = "\x7d" || (← isOutput)
  | _ => return false

/-! ## Names -/

def placeOf (s : State) (w : Bytes) : Place :=
  let k := s.params.findIdx (· = w)
  if k < s.params.length then .param s.within k else .global w

/-- The parameter of the function around, or the variable. -/
def named (w : Bytes) : Read Expr := do
  match placeOf (← get) w with
  | .global w => return .global w
  | .param _ k => return .param k

def single (w : Bytes) : Read Expr := do
  note (.single (placeOf (← get) w))
  named w

def array (w : Bytes) : Read ArrayName := do
  let p := placeOf (← get) w
  note (.array p)
  match p with
  | .global w => return .global w
  | .param _ k => return .param k

def name : Read Bytes := do
  match ← peek with
  | some (.name w _) =>
    advance
    return w
  | _ => wrong

/-- Whether an argument that begins here is a name and no more. -/
def isLoneName : Read Bool := do
  match (← get).tokens with
  | .name _ _ :: .sign s :: _ => return s = "," || s = ")"
  | _ => return false

/-- Variables that are kept with the fields of a record, so that counting up and down binds to them
first. -/
def besideFields : List String := ["NF", "RS", "FS", "CONVFMT", "OFMT"]

/-! ## Expressions -/

def relation? : String → Option Relation
  | "<" => some .less
  | "<=" => some .lessEqual
  | "==" => some .equal
  | "!=" => some .unequal
  | ">" => some .greater
  | ">=" => some .greaterEqual
  | _ => none

/-- The operator of an assignment. -/
def assignment? : String → Option (Option Arithmetic)
  | "=" => some none
  | "+=" => some (some .add)
  | "-=" => some (some .sub)
  | "*=" => some (some .mul)
  | "/=" => some (some .div)
  | "%=" => some (some .mod)
  | "^=" => some (some .pow)
  | _ => none

/-- An operator between operands, by its level. -/
def arithmetic? (level : Nat) (sign : String) : Option Arithmetic :=
  match level, sign with
  | 0, "+" => some .add
  | 0, "-" => some .sub
  | 1, "*" => some .mul
  | 1, "/" => some .div
  | 1, "%" => some .mod
  | _, _ => none

def builtinOf (s : String) : Builtin :=
  match s with
  | "length" => .length
  | "substr" => .substr
  | "index" => .index
  | "split" => .split
  | "sub" => .sub
  | "gsub" => .gsub
  | "match" => .fit
  | "sprintf" => .sprintf
  | "tolower" => .lower
  | "toupper" => .upper
  | "sin" => .sin
  | "cos" => .cos
  | "atan2" => .atan2
  | "exp" => .exp
  | "log" => .log
  | "sqrt" => .sqrt
  | "int" => .int
  | "rand" => .rand
  | "srand" => .srand
  | "system" => .system
  | "close" => .close
  | "fflush" => .flush
  | "strftime" => .strftime
  | "mktime" => .mktime
  | _ => .systime

/-- The least and the greatest number of arguments. -/
def arity : Builtin → Nat × Nat
  | .length | .srand | .flush => (0, 1)
  | .substr => (2, 3)
  | .index | .atan2 | .fit => (2, 2)
  | .split | .sub | .gsub => (2, 3)
  | .sprintf => (1, 255)
  | .rand | .systime => (0, 0)
  | .strftime => (0, 3)
  | .mktime => (1, 2)
  | _ => (1, 1)

/-- Refuses a text that is used as a regular expression but is none. -/
def checkPattern (e : Expr) : Read Unit :=
  match e with
  | .text w =>
    match Pattern.ofText w with
    | .ok _ => pure ()
    | .error f => throw (bytes "regular expression compile failed (" ++ f.text ++ bytes ")")
  | _ => pure ()

/-- Whether an operand begins here, so that texts are joined. -/
def startsOperand : Option Token → Bool
  | some (.number _) | some (.text _) | some (.regex _) | some (.name _ _) | some (.builtin _) => true
  | some (.keyword s) => s = "getline"
  | some (.sign s) => s = "(" || s = "$" || s = "!" || s = "++" || s = "--"
  | _ => false

def isName (s : String) : Token → Bool
  | .name w _ => w = bytes s
  | _ => false

mutual

def expr : Nat → Read Expr
  | 0 => wrong
  | n + 1 => do
    let c ← binary n 0
    if ← accept "?" then
      let a ← expr n
      expect ":"
      let b ← expr n
      return .choose c a b
    else return c

/-- Operands of one level between operators of it: alternatives, conjunctions, members, matches and
comparisons. -/
def binary : Nat → Nat → Read Expr
  | 0, _ => wrong
  | n + 1, level => do
    if level = 5 then assigned n
    else
      let a ← binary n (level + 1)
      moreBinary n level a

def moreBinary : Nat → Nat → Expr → Read Expr
  | 0, _, _ => wrong
  | n + 1, level, a => do
    match level, ← peek with
    | 0, some (.sign "||") =>
      advance
      skipLines
      let b ← binary n 1
      moreBinary n level (.either a b)
    | 1, some (.sign "&&") =>
      advance
      skipLines
      let b ← binary n 2
      moreBinary n level (.both a b)
    | 2, some (.keyword "in") =>
      advance
      let within ← array (← name)
      let subscripts := match a with
        | .tuple es => es
        | a => [a]
      moreBinary n level (.within subscripts within)
    | 3, some (.sign s) =>
      if s = "~" || s = "!~" then
        advance
        let b ← binary n 4
        checkPattern b
        moreBinary n level (.fits (s = "!~") a b)
      else return a
    | 4, some (.sign s) =>
      match relation? s with
      | some r =>
        if ← isOutput then return a
        else
          advance
          let b ← binary n 5
          moreBinary n level (.compare r a b)
      | none => return a
    | _, _ => return a

/-- Texts that are joined, or an assignment to a target that stands alone. -/
def assigned : Nat → Read Expr
  | 0 => wrong
  | n + 1 => do
    let a ← arithmetic n 0
    let a ← joined n a
    match a, ← peek with
    | .tuple _, some (.keyword "in") => return a
    | .tuple _, _ => if (← get).printing && (← atEnd) then return a else wrong
    | a, some (.sign s) =>
      match a.isTarget, assignment? s with
      | true, some op =>
        advance
        let b ← expr n
        return .assign a op b
      | _, _ => return a
    | a, _ => return a

def joined : Nat → Expr → Read Expr
  | 0, _ => wrong
  | n + 1, a => do
    match a with
    | .tuple _ => return a
    | a =>
      if startsOperand (← peek) then
        let b ← arithmetic n 0
        joined n (.join a b)
      else return a

/-- Sums, of products, of operands with signs. -/
def arithmetic : Nat → Nat → Read Expr
  | 0, _ => wrong
  | n + 1, level => do
    if level = 2 then signed n
    else
      let a ← arithmetic n (level + 1)
      moreArithmetic n level a

def moreArithmetic : Nat → Nat → Expr → Read Expr
  | 0, _, _ => wrong
  | n + 1, level, a => do
    match ← peek with
    | some (.sign s) =>
      match arithmetic? level s with
      | some op =>
        advance
        let b ← arithmetic n (level + 1)
        moreArithmetic n level (.arithmetic op a b)
      | none => return a
    | _ => return a

def signed : Nat → Read Expr
  | 0 => wrong
  | n + 1 => do
    if ← accept "!" then return .not (← signed n)
    else if ← accept "-" then return .negate (← signed n)
    else if ← accept "+" then return .plus (← signed n)
    else
      let a ← power n
      if (← isSign "|") && !(← isOutput) then
        match (← get).tokens.drop 1 with
        | .keyword "getline" :: _ =>
          advance
          advance
          return .lineOfCommand (← target? n) a
        | _ => return a
      else return a

def power : Nat → Read Expr
  | 0 => wrong
  | n + 1 => do
    let a ← counted n
    if ← accept "^" then
      let signs ← ["!", "-", "+"].anyM isSign
      let b ← if signs then signed n else power n
      return .arithmetic .pow a b
    else return a

/-- An operand that may be counted up or down. -/
def counted : Nat → Read Expr
  | 0 => wrong
  | n + 1 => do
    if ← accept "++" then return .step true true (← target n)
    else if ← accept "--" then return .step false true (← target n)
    else
      let a ← primary n
      if a.isTarget then
        if ← accept "++" then return .step true false a
        else if ← accept "--" then return .step false false a
        else return a
      else return a

/-- A target that is there if one can begin here. -/
def target? : Nat → Read (Option Expr)
  | 0 => wrong
  | n + 1 => do
    match ← peek with
    | some (.name w opens) =>
      if opens || (← get).functions.any (·.name = w) then return none
      else return some (← target n)
    | some (.sign "$") => return some (← target n)
    | _ => return none

/-- A variable, an element or a field. -/
def target : Nat → Read Expr
  | 0 => wrong
  | n + 1 => do
    match ← peek with
    | some (.sign "$") =>
      advance
      .field <$> fieldNumber n
    | some (.name w _) =>
      advance
      if ← accept "[" then
        let within ← array w
        let subscripts ← list n
        expect "]"
        return .element within subscripts
      else single w
    | some (.sign "(") =>
      let e ← inParentheses (target n)
      match e with
      | .field _ => return e
      | _ => wrong
    | _ => wrong

/-- The operand of a field sign. -/
def fieldNumber : Nat → Read Expr
  | 0 => wrong
  | n + 1 => do
    match ← peek with
    | some (.sign s) =>
      if s = "-" || s = "+" || s = "!" then signed n
      else if s = "++" || s = "--" || s = "$" then counted n
      else primary n
    | some t => if besideFields.any (isName · t) then counted n else primary n
    | none => wrong

def primary : Nat → Read Expr
  | 0 => wrong
  | n + 1 => do
    match ← peek with
    | some (.number x) =>
      advance
      return .number x
    | some (.text w) =>
      advance
      return .text w
    | some (.regex w) =>
      advance
      match Pattern.ofText w with
      | .ok r => return .regex r
      | .error f => throw (bytes "regular expression compile failed (" ++ f.text ++ bytes ")")
    | some (.sign "$") => target n
    | some (.sign "(") =>
      match ← inParentheses (list n) with
      | [.field e] => return .field e
      | [e] => return .group e
      | es => return .tuple es
    | some (.name w opens) =>
      if opens || (← get).functions.any (·.name = w) then
        advance
        let arguments ← inParentheses (passed n w 0)
        modify fun s => { s with calls := (w, arguments.length) :: s.calls }
        return .call w arguments
      else target n
    | some (.builtin s) =>
      advance
      builtin n (builtinOf s)
    | some (.keyword "getline") =>
      advance
      let into ← target? n
      if ← accept "<" then
        let signs ← ["!", "-", "+"].anyM isSign
        let file ← if signs then signed n else power n
        return .lineOfFile into file
      else return .line into
    | _ => wrong

/-- Expressions between commas, at least one. -/
def list : Nat → Read (List Expr)
  | 0 => wrong
  | n + 1 => do
    let e ← expr n
    if ← accept "," then
      skipLines
      return e :: (← list n)
    else return [e]

/-- The arguments of a function from the `k`-th on. A name alone may be an array. -/
def passed : Nat → Bytes → Nat → Read (List Expr)
  | 0, _, _ => wrong
  | n + 1, f, k => do
    if k = 0 && (← isSign ")") then return []
    else
      let loneName ← isLoneName
      let e ← match loneName, ← peek with
        | true, some (.name w _) => do
          advance
          note (.passed (placeOf (← get) w) f k)
          named w
        | _, _ => do
          note (.given f k)
          expr n
      if ← accept "," then
        skipLines
        return e :: (← passed n f (k + 1))
      else return [e]

def builtin : Nat → Builtin → Read Expr
  | 0, _ => wrong
  | n + 1, b => do
    let arguments ←
      if b = .length && !(← isSign "(") then pure []
      else inParentheses (builtinArguments n b 0)
    let (least, greatest) := arity b
    if arguments.length < least || greatest < arguments.length then
      fail "wrong number of arguments in call"
    else
      match b, arguments with
      | .fit, [_, r] => checkPattern r
      | .sub, r :: _ | .gsub, r :: _ => checkPattern r
      | .split, [_, _, .text w] => if 1 < w.length then checkPattern (.text w)
      | _, _ => pure ()
      return .builtin b arguments

/-- The arguments of a built-in function from the `k`-th on. -/
def builtinArguments : Nat → Builtin → Nat → Read (List Expr)
  | 0, _, _ => wrong
  | n + 1, b, k => do
    if k = 0 && (← isSign ")") then return []
    else
      let loneName ← isLoneName
      let e ← match b, k, ← peek with
        | .split, 1, some (.name w _) => do
          advance
          .array <$> array w
        | .split, 1, _ => wrong
        | .length, 0, some (.name w _) =>
          if loneName then do
            advance
            named w
          else expr n
        | .sub, 2, _ | .gsub, 2, _ => do
          let e ← expr n
          if e.isTarget then pure e else wrong
        | _, _, _ => expr n
      if ← accept "," then
        skipLines
        return e :: (← builtinArguments n b (k + 1))
      else return [e]

end

/-! ## Statements -/

/-- The end of a simple statement. A closing brace ends it too. -/
def terminate : Read Unit := do
  if (← accept ";") || !(← isSign "\x7d") then
    skipLines

/-- What must end a simple statement is there. -/
def finish : Read Unit := do
  match ← peek with
  | some .newline | some (.sign ";") | some (.sign "\x7d") => terminate
  | _ => wrong

def keywordIf (word : String) : Read Bool := do
  let found ← isKeyword word
  if found then advance
  return found

def condition (n : Nat) : Read Expr := do
  let c ← inParentheses (expr n)
  skipLines
  return c

/-- Where output goes, if not to the usual place. -/
def sink? (n : Nat) : Read (Option Sink) := do
  let kind? := match ← peek with
    | some (.sign ">") => some SinkKind.write
    | some (.sign ">>") => some .append
    | some (.sign "|") => some .pipe
    | _ => none
  modify fun s => { s with printing := false }
  match kind? with
  | some kind =>
    advance
    return some ⟨kind, ← expr n⟩
  | none => return none

/-- What is printed, and where. -/
def printed (n : Nat) : Read (List Expr × Option Sink) := do
  modify fun s => { s with printing := true, depth := 0 }
  let es ← if ← atEnd then pure [] else list n
  let es := match es with
    | [.tuple es] => es
    | es => es
  let sink ← sink? n
  finish
  return (es, sink)

def inLoop {α : Type} (x : Read α) : Read α := do
  modify fun s => { s with loops := s.loops + 1 }
  let a ← x
  modify fun s => { s with loops := s.loops - 1 }
  return a

/-- An expression that is there unless a sign follows at once. -/
def exprBefore (n : Nat) (sign : String) : Read (Option Expr) := do
  let e ← if ← isSign sign then pure none else some <$> expr n
  expect sign
  skipLines
  return e

def optionalExpr (n : Nat) : Read (Option Expr) := do
  if ← atEnd then return none else return some (← expr n)

mutual

def statement : Nat → Read Statement
  | 0 => wrong
  | n + 1 => do
    match ← peek with
    | some (.sign "\x7b") => .block <$> block n
    | some .newline | some (.sign ";") =>
      advance
      skipLines
      return .block []
    | some (.keyword word) => keyworded n word
    | _ =>
      let e ← expr n
      finish
      return .expr e

/-- A statement that begins with a keyword. -/
def keyworded : Nat → String → Read Statement
  | 0, _ => wrong
  | n + 1, word => do
    if word = "getline" then
      let e ← expr n
      finish
      return .expr e
    else
      advance
      match word with
      | "if" =>
        let c ← condition n
        let a ← statement n
        let before ← get
        skipLines
        if ← keywordIf "else" then
          skipLines
          return .when c a (some (← statement n))
        else
          set before
          return .when c a none
      | "while" =>
        let c ← condition n
        .while c <$> inLoop (statement n)
      | "do" =>
        skipLines
        let body ← inLoop (statement n)
        skipLines
        if ← keywordIf "while" then
          let c ← inParentheses (expr n)
          finish
          return .repeat body c
        else wrong
      | "for" =>
        expect "("
        match (← get).tokens with
        | .name k _ :: .keyword "in" :: .name a _ :: .sign ")" :: rest =>
          modify fun s => { s with tokens := rest }
          let k ← single k
          let a ← array a
          skipLines
          .each k a <$> inLoop (statement n)
        | _ =>
          modify fun s => { s with depth := s.depth + 1 }
          let start ← exprBefore n ";"
          let c ← exprBefore n ";"
          let step ← exprBefore n ")"
          modify fun s => { s with depth := s.depth - 1 }
          .loop start c step <$> inLoop (statement n)
      | "print" =>
        let (es, sink) ← printed n
        return .print es sink
      | "printf" =>
        let (es, sink) ← printed n
        if es.isEmpty then wrong else return .printf es sink
      | "next" =>
        if (← get).part ≠ .rule then fail "improper use of next"
        else
          finish
          return .next
      | "nextfile" =>
        if (← get).part ≠ .rule then fail "improper use of nextfile"
        else
          finish
          return .nextFile
      | "exit" =>
        let e ← optionalExpr n
        finish
        return .exit e
      | "return" =>
        if (← get).part ≠ .function then fail "return outside function body"
        else
          let e ← optionalExpr n
          finish
          return .return e
      | "break" =>
        if (← get).loops = 0 then fail "break statement outside of loop"
        else
          finish
          return .break
      | "continue" =>
        if (← get).loops = 0 then fail "continue statement outside of loop"
        else
          finish
          return .continue
      | "delete" =>
        let a ← array (← name)
        if ← accept "[" then
          let subscripts ← list n
          expect "]"
          finish
          return .delete a subscripts
        else
          finish
          return .clear a
      | _ => wrong

/-- Statements in braces. -/
def block : Nat → Read (List Statement)
  | 0 => wrong
  | n + 1 => do
    expect "\x7b"
    skipLines
    statements n

def statements : Nat → Read (List Statement)
  | 0 => wrong
  | n + 1 => do
    if ← accept "\x7d" then return []
    else
      let s ← statement n
      let rest ← statements n
      return s :: rest

end

/-! ## Rules -/

/-- The parameters of a function. -/
def parameters : Nat → Read (List Bytes)
  | 0 => wrong
  | n + 1 => do
    let w ← name
    if ← accept "," then
      skipLines
      return w :: (← parameters n)
    else return [w]

/-- A function after its keyword. -/
def function (n : Nat) : Read Unit := do
  let f ← name
  let params ← inParentheses do
    if ← isSign ")" then return [] else parameters n
  let s ← get
  if s.functions.any (·.name = f) then throw (bytes "redefinition of " ++ f)
  else if params.eraseDups.length ≠ params.length then fail "a name is duplicated in argument list"
  else if Bytes.isAmong f params then fail "function parameter cannot be the function"
  else
    set { s with
      functions := ⟨f, params.length, []⟩ :: s.functions, part := .function, within := f, params }
    skipLines
    let body ← block n
    modify fun s =>
      { s with
        functions := s.functions.map fun g => if g.name = f then { g with body } else g
        params := [] }

/-- A part of a script. -/
inductive Item where
  | start (body : List Statement)
  | rule (r : Rule)
  | stop (body : List Statement)
  | function

def part (p : Part) : Read Unit := modify fun s => { s with part := p }

def item (n : Nat) : Read Item := do
  let afterBlock (i : Item) : Read Item := do
    let _ ← accept ";"
    return i
  if ← keywordIf "BEGIN" then
    part .beginning
    let body ← block n
    afterBlock (.start body)
  else if ← keywordIf "END" then
    part .ending
    let body ← block n
    afterBlock (.stop body)
  else if ← keywordIf "function" then
    function n
    afterBlock .function
  else
    part .rule
    let condition ←
      if ← isSign "\x7b" then pure Condition.always
      else
        let e ← expr n
        if ← accept "," then
          skipLines
          pure (Condition.range e (← expr n))
        else pure (.when e)
    if ← isSign "\x7b" then
      let body ← block n
      afterBlock (.rule ⟨condition, some body⟩)
    else
      match ← peek with
      | none | some .newline | some (.sign ";") => afterBlock (.rule ⟨condition, none⟩)
      | _ => wrong

def items : Nat → Read (List Item)
  | 0 => wrong
  | n + 1 => do
    skipLines
    if (← peek).isNone then return []
    else
      let i ← item n
      let rest ← items n
      return i :: rest

/-! ## Checks -/

def isBad (functions : List Function) (arrays : List Place) (u : Use) : Bool :=
  u.conflicts arrays ||
    (match u with
      | .single (.global w) | .array (.global w) | .passed (.global w) _ _ =>
        functions.any (·.name = w)
      | _ => false)

def script (is : List Item) (s : State) : Except Bytes Script := do
  let wrongCall (c : Bytes × Nat) : Bool := !s.functions.any fun f => f.name = c.1 && c.2 ≤ f.arity
  match s.calls.find? wrongCall with
  | some c => throw (bytes "function " ++ c.1 ++ bytes " never defined")
  | none =>
    let arrays := Use.arrays s.uses
    if s.uses.any (isBad s.functions arrays) then throw (bytes "illegal reference to a variable")
    else
      return {
        begins := is.filterMap fun
          | .start b => some b
          | _ => none
        rules := is.filterMap fun
          | .rule r => some r
          | _ => none
        ends := is.filterMap fun
          | .stop b => some b
          | _ => none
        functions := s.functions.map fun f => (f.name, f)
        arrays := arrays.filterMap fun
          | .global w => some w
          | _ => none
        arrayParams := arrays.filterMap fun
          | .param f k => some (f, k)
          | _ => none }

end Reader

open Reader in
/-- Reads a script. -/
def Script.ofText (text : Bytes) : Except Bytes Script :=
  match Token.ofText text with
  | .error f =>
    .error (match f with
      | .openText => bytes "runaway string constant"
      | .openRegex => bytes "runaway regular expression"
      | .character c => bytes "unexpected character '" ++ [c, '\x27'])
  | .ok tokens => do
    let s : State :=
      { tokens, part := .rule, within := [], params := [], loops := 0, printing := false, depth := 0, uses := Use.start, calls := [], functions := [] }
    let (is, s) ← (items (40 * tokens.length + 100)).run s
    script is s

end ValueInspector.Shell.Records
