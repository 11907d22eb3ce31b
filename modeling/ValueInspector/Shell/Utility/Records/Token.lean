import ValueInspector.Shell.Number
import ValueInspector.Shell.Utility.Records.Pattern

/-! # Tokens of scripts

A slash begins a regular expression where no operand stands before it, and divides otherwise.
-/
namespace ValueInspector.Shell.Records

inductive Token where
  | newline
  | sign (s : String)
  | keyword (s : String)
  | builtin (s : String)
  | number (x : Float)
  | text (w : Bytes)
  | regex (w : Bytes)
  /-- A name, and whether a parenthesis follows at once. -/
  | name (w : Bytes) (opens : Bool)

namespace Token

def keywords : List String :=
  ["BEGIN", "END", "function", "if", "else", "while", "for", "do", "break", "continue", "next", "nextfile",
   "exit", "return", "delete", "in", "getline", "print", "printf"]

def builtins : List String :=
  ["length", "substr", "index", "split", "sub", "gsub", "match", "sprintf", "tolower", "toupper", "sin",
   "cos", "atan2", "exp", "log", "sqrt", "int", "rand", "srand", "system", "close", "fflush", "systime",
   "strftime", "mktime"]

/-- Signs, the long ones first. -/
def signs : List String :=
  ["&&", "||", "==", "!=", "<=", ">=", ">>", "++", "--", "+=", "-=", "*=", "/=", "%=", "^=", "!~",
   "\x7b", "\x7d", "(", ")", "[", "]", ";", ",", "+", "-", "*", "/", "%", "^", "!", "<", ">", "|", "?", ":",
   "~", "$", "="]

/-- Whether a token ends an operand, so that a slash after it divides. -/
def endsOperand : Token → Bool
  | .number _ | .text _ | .name _ _ => true
  | .sign s => s = ")" || s = "]"
  | _ => false

/-- Why a text has no tokens. -/
inductive Fault where
  | openText
  | openRegex
  | character (c : Char)
deriving Repr

/-- A text up to its closing quote, and the rest. -/
def quoted : Nat → Bytes → Bytes → Except Fault (Bytes × Bytes)
  | 0, _, _ => .error .openText
  | n + 1, acc, cs =>
    match cs with
    | [] | '\n' :: _ => .error .openText
    | '"' :: rest => .ok (acc.reverse, rest)
    | '\\' :: '\n' :: rest => quoted n acc rest
    | '\\' :: c :: rest =>
      if c = '"' || c = '\\' then quoted n (c :: acc) rest
      else
        match Pattern.escape? (c :: rest) with
        | some (d, rest) => quoted n (d :: acc) rest
        | none => quoted n (c :: '\\' :: acc) rest
    | c :: rest => quoted n (c :: acc) rest

/-- The text that a value on the command line stands for. -/
def unescaped : Nat → Bytes → Bytes
  | 0, cs => cs
  | n + 1, cs =>
    match cs with
    | '\\' :: c :: rest =>
      if c = '"' || c = '\\' then c :: unescaped n rest
      else
        match Pattern.escape? (c :: rest) with
        | some (d, rest) => d :: unescaped n rest
        | none => '\\' :: c :: unescaped n rest
    | c :: rest => c :: unescaped n rest
    | [] => []

/-- A regular expression up to its closing slash, which may stand within a set. `inSet` counts the
members so far. -/
def slashed : Nat → Option Nat → Bytes → Bytes → Except Fault (Bytes × Bytes)
  | 0, _, _, _ => .error .openRegex
  | n + 1, inSet, acc, cs =>
    match cs with
    | [] | '\n' :: _ => .error .openRegex
    | '\\' :: c :: rest =>
      let inSet := inSet.map (· + 1)
      if c = '/' then slashed n inSet ('/' :: acc) rest
      else if c = '\n' then slashed n inSet acc rest
      else slashed n inSet (c :: '\\' :: acc) rest
    | c :: rest =>
      match inSet with
      | none =>
        if c = '/' then .ok (acc.reverse, rest)
        else slashed n (if c = '[' then some 0 else none) (c :: acc) rest
      | some k =>
        if c = ']' && 0 < k then slashed n none (c :: acc) rest
        else if c = '^' && k = 0 && acc.head? = some '[' then slashed n (some 0) (c :: acc) rest
        else if c = '[' && rest.head? = some ':' then
          let name := (rest.drop 1).takeWhile Char.isAlpha
          match rest.drop (name.length + 1) with
          | ':' :: ']' :: after =>
            slashed n (some (k + 1)) (bytes "]:" ++ name.reverse ++ bytes ":[" ++ acc) after
          | _ => slashed n (some (k + 1)) (c :: acc) rest
        else slashed n (some (k + 1)) (c :: acc) rest

/-- The tokens of a text, the latest first. -/
def read : Nat → List Token → Bytes → Except Fault (List Token)
  | 0, acc, _ => .ok acc
  | n + 1, acc, cs =>
    match cs with
    | [] => .ok acc
    | '\n' :: rest => read n (.newline :: acc) rest
    | '\\' :: '\n' :: rest => read n acc rest
    | '\\' :: '\r' :: '\n' :: rest => read n acc rest
    | '#' :: rest => read n acc (rest.dropWhile (· ≠ '\n'))
    | '"' :: rest => do
      let (w, rest) ← quoted (rest.length + 1) [] rest
      read n (.text w :: acc) rest
    | c :: rest =>
      if Bytes.isSpace c then read n acc rest
      else if c.isDigit || (c = '.' && rest.head?.any Char.isDigit) then
        let hex := c = '0' && rest.head?.any fun x => x = 'x' || x = 'X'
        match (if hex then some (0.0, rest) else Numeric.float? cs) with
        | some (x, rest) =>
          if rest.head?.any (Char.toLower · = 'e') then .error (.character 'e')
          else read n (.number x :: acc) rest
        | none => .error (.character c)
      else if Bytes.isNameStart c then
        let w := cs.takeWhile Bytes.isNameChar
        let rest := cs.drop w.length
        let s := String.ofList w
        let t := if s ∈ keywords then Token.keyword s
          else if s ∈ builtins then .builtin s
          else .name w (rest.head? = some '(')
        read n (t :: acc) rest
      else if c = '/' && !acc.head?.any endsOperand then do
        let (w, rest) ← slashed (rest.length + 1) none [] rest
        read n (.regex w :: acc) rest
      else
        match signs.findSome? fun s => (Bytes.after? s.toList cs).map fun rest => (s, rest) with
        | some (s, rest) => read n (.sign s :: acc) rest
        | none => .error (.character c)

def ofText (text : Bytes) : Except Fault (List Token) :=
  (read (text.length + 1) [] text).map List.reverse

end Token
end ValueInspector.Shell.Records
