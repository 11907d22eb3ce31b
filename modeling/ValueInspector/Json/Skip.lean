import ValueInspector.Json.Lexer

/-! # Skipping a JSON value

One pass over a value that is not wanted. The brackets that are open are kept in a list, so nesting
may be of any depth. Strings and numbers are checked for their form only.
-/
namespace ValueInspector.Json

inductive Bracket where
  | array
  | object
deriving DecidableEq, Repr

def Bracket.closing : Bracket → Char
  | .array => ']'
  | .object => '\x7d'

/-- Skips a value that is no array or object, its first character given. -/
def skipScalar (c : Char) (rest : List Char) : Except Fault (List Char) :=
  if c = 'n' then word "ull".toList rest
  else if c = 't' then word "rue".toList rest
  else if c = 'f' then word "alse".toList rest
  else if c = '"' then skipStringBody rest
  else if c = '-' then skipNumber false rest
  else if (digit? c).isSome then skipNumber false (c :: rest)
  else .error .malformed

/-- Skips the name of a member and the colon after it. -/
def skipKey (cs : List Char) : Except Fault (List Char) := do
  mark ':' (← skipStringBody (← mark '"' cs))

/-- Skips until the brackets in the list are closed; a value is due first if the flag is set. The
count bounds the number of steps. -/
def skipOpen : Nat → Bool → List Bracket → List Char → Except Fault (List Char)
  | 0, _, _, _ => .error .ended
  | _ + 1, false, [], cs => .ok cs
  | count + 1, false, b :: outer, cs =>
    match skipBlanks cs with
    | [] => .error .ended
    | c :: rest =>
      if c = ',' then
        match b with
        | .array => skipOpen count true (.array :: outer) rest
        | .object =>
          match skipKey rest with
          | .ok rest => skipOpen count true (.object :: outer) rest
          | .error fault => .error fault
      else if c = b.closing then skipOpen count false outer rest
      else .error .malformed
  | count + 1, true, outer, cs =>
    match skipBlanks cs with
    | [] => .error .ended
    | c :: rest =>
      if c = '[' then
        match skipBlanks rest with
        | ']' :: rest => skipOpen count false outer rest
        | rest => skipOpen count true (.array :: outer) rest
      else if c = '\x7b' then
        match skipBlanks rest with
        | '\x7d' :: rest => skipOpen count false outer rest
        | rest =>
          match skipKey rest with
          | .ok rest => skipOpen count true (.object :: outer) rest
          | .error fault => .error fault
      else
        match skipScalar c rest with
        | .ok rest => skipOpen count false outer rest
        | .error fault => .error fault

/-- Each step takes at least one character, the last one none. -/
def skipValue (cs : List Char) : Except Fault (List Char) := skipOpen (cs.length + 2) true [] cs

end ValueInspector.Json
