import ValueInspector.Json.Basic
import ValueInspector.Text.Numeral

/-! # JSON text of a value

Compact text: no blanks, members in order. Quotes, backslashes and control characters are escaped,
all other characters stand for themselves.
-/
namespace ValueInspector.Json
open Text

/-- The escape of a character that may not stand for itself in a string. -/
def escape? (c : Char) : Option (List Char) :=
  if c = '"' then some ['\\', '"']
  else if c = '\\' then some ['\\', '\\']
  else if c = '\n' then some ['\\', 'n']
  else if c = '\r' then some ['\\', 'r']
  else if c = '\t' then some ['\\', 't']
  else if c.toNat = 8 then some ['\\', 'b']
  else if c.toNat = 12 then some ['\\', 'f']
  else if c.toNat < 0x20 then some ('\\' :: 'u' :: hexDigits 4 c.toNat)
  else none

def renderChar (c : Char) : List Char := (escape? c).getD [c]

def renderString (s : String) : List Char := '"' :: (s.toList.flatMap renderChar ++ ['"'])

def renderNumber (n : JsonNumber) : List Char :=
  let point := if n.fraction.isEmpty then [] else '.' :: n.fraction.map fun d => hexDigit d.val
  let exponent := match n.exponent with
    | none => []
    | some e => 'e' :: (toString e).toList
  (if n.negative then ['-'] else []) ++ Nat.toDigits 10 n.whole ++ point ++ exponent

mutual

def render : Json → List Char
  | .null => ['n', 'u', 'l', 'l']
  | .bool true => ['t', 'r', 'u', 'e']
  | .bool false => ['f', 'a', 'l', 's', 'e']
  | .number n => renderNumber n
  | .string s => renderString s
  | .array items => '[' :: (renderItems items ++ [']'])
  | .object members => '\x7b' :: (renderMembers members ++ ['\x7d'])

def renderItems : List Json → List Char
  | [] => []
  | [item] => render item
  | item :: items => render item ++ ',' :: renderItems items

def renderMembers : List (String × Json) → List Char
  | [] => []
  | [(name, value)] => renderString name ++ ':' :: render value
  | (name, value) :: members =>
    renderString name ++ ':' :: (render value ++ ',' :: renderMembers members)

end

/-- The text of a value. -/
def text (v : Json) : String := String.ofList (render v)

end ValueInspector.Json
