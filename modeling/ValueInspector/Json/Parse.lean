import ValueInspector.Json.Lexer

/-! # Reading a JSON value

Reads a whole value and keeps it. Strings must be well-formed and numbers within the range of a
double.
-/
namespace ValueInspector.Json

/-- Reads a value that is no array or object, its first character given. -/
def scalar (c : Char) : Reader Json := fun rest =>
  if c = 'n' then (.null, ·) <$> word "ull".toList rest
  else if c = 't' then (.bool true, ·) <$> word "rue".toList rest
  else if c = 'f' then (.bool false, ·) <$> word "alse".toList rest
  else if c = '"' then do
    let (s, rest) ← stringBody rest
    return (.string s, rest)
  else if c = '-' then do
    let (n, rest) ← keptNumber true rest
    return (.number n, rest)
  else if (digit? c).isSome then do
    let (n, rest) ← keptNumber false (c :: rest)
    return (.number n, rest)
  else .error .malformed

/-- What follows an item of a sequence: another one, or the closing bracket. -/
def separator (closing : Char) : Reader Bool := fun cs =>
  match skipBlanks cs with
  | [] => .error .ended
  | c :: rest =>
    if c = ',' then .ok (true, rest) else if c = closing then .ok (false, rest) else .error .malformed

mutual

/-- A value, in at most as many steps as counted. -/
def valueIn : Nat → Reader Json
  | 0, _ => .error .ended
  | count + 1, cs =>
    match skipBlanks cs with
    | [] => .error .ended
    | c :: rest =>
      if c = '[' then
        match skipBlanks rest with
        | ']' :: rest => .ok (.array [], rest)
        | rest => itemsIn count [] rest
      else if c = '\x7b' then
        match skipBlanks rest with
        | '\x7d' :: rest => .ok (.object [], rest)
        | rest => membersIn count [] rest
      else scalar c rest

/-- The items of an array from the next one on, those before it in reverse. -/
def itemsIn : Nat → List Json → Reader Json
  | 0, _, _ => .error .ended
  | count + 1, acc, cs => do
    let (item, rest) ← valueIn count cs
    let (more, rest) ← separator ']' rest
    if more then itemsIn count (item :: acc) rest
    else return (.array (item :: acc).reverse, rest)

def membersIn : Nat → List (String × Json) → Reader Json
  | 0, _, _ => .error .ended
  | count + 1, acc, cs => do
    let (name, rest) ← stringBody (← mark '"' cs)
    let (value, rest) ← valueIn count (← mark ':' rest)
    let (more, rest) ← separator '\x7d' rest
    if more then membersIn count ((name, value) :: acc) rest
    else return (.object ((name, value) :: acc).reverse, rest)

end

/-- The value a text stands for. -/
def parse (s : String) : Except Fault Json := do
  let cs := s.toList
  let (v, rest) ← valueIn (cs.length + 1) cs
  if (skipBlanks rest).isEmpty then return v else throw .malformed

end ValueInspector.Json
