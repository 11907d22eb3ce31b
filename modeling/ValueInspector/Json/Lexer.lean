import ValueInspector.Json.Basic
import ValueInspector.Json.Fault
import ValueInspector.Text.Numeral

/-! # Reading the parts of a JSON text

A reader takes a text and returns what it read and the rest, or the first fault it meets. Strings and
numbers can be read to be kept or to be skipped, and skipping checks less.
-/
namespace ValueInspector.Json

abbrev Reader (α : Type) := List Char → Except Fault (α × List Char)

/-- Blank in this format: space, tab, line feed and carriage return. -/
def isBlank (c : Char) : Bool := c = ' ' || c = '\t' || c = '\n' || c = '\r'

def skipBlanks (cs : List Char) : List Char := cs.dropWhile isBlank

/-- Reads exactly the given characters. -/
def word : List Char → List Char → Except Fault (List Char)
  | [], cs => .ok cs
  | _ :: _, [] => .error .ended
  | w :: ws, c :: cs => if w = c then word ws cs else .error .malformed

/-- Reads one given character after blanks. -/
def mark (m : Char) (cs : List Char) : Except Fault (List Char) :=
  match skipBlanks cs with
  | [] => .error .ended
  | c :: rest => if c = m then .ok rest else .error .malformed

/-- Four hexadecimal digits. Fewer than four bytes before the end of the text count as an early end,
whatever they are. -/
def hex4 : Reader Nat := fun cs =>
  match cs with
  | a :: b :: c :: d :: rest =>
    match Text.readDigits? 16 [a, b, c, d] with
    | some n => .ok (n, rest)
    | none => .error .malformed
  | _ =>
    if (String.ofList cs).utf8ByteSize < 4 then .error .ended else .error .malformed

/-- The character a one-letter escape stands for. -/
def unescape? (c : Char) : Option Char :=
  if c = '"' || c = '\\' || c = '/' then some c
  else if c = 'b' then some (Char.ofNat 8)
  else if c = 'f' then some (Char.ofNat 12)
  else if c = 'n' then some '\n'
  else if c = 'r' then some '\r'
  else if c = 't' then some '\t'
  else none

def isHighSurrogate (n : Nat) : Bool := 0xD800 ≤ n && n < 0xDC00
def isLowSurrogate (n : Nat) : Bool := 0xDC00 ≤ n && n < 0xE000

/-- The character of a numeric escape, after its `u`. A surrogate must be one of a pair. -/
def numericEscape : Reader Char := fun cs => do
  let (high, rest) ← hex4 cs
  if isLowSurrogate high then throw .malformed
  if !isHighSurrogate high then return (Char.ofNat high, rest)
  let rest ← word ['\\', 'u'] rest
  let (low, rest) ← hex4 rest
  if !isLowSurrogate low then throw .malformed
  return (Char.ofNat (0x10000 + (high - 0xD800) * 0x400 + (low - 0xDC00)), rest)

/-- The character an escape stands for, after its backslash. -/
def escaped : Reader Char := fun cs =>
  match cs with
  | [] => .error .ended
  | e :: rest =>
    if e = 'u' then numericEscape rest
    else
      match unescape? e with
      | some c => .ok (c, rest)
      | none => .error .malformed

/-- The same without keeping the character: a numeric escape may be any four digits. -/
def skipEscaped (cs : List Char) : Except Fault (List Char) :=
  match cs with
  | [] => .error .ended
  | e :: rest =>
    if e = 'u' then (·.2) <$> hex4 rest
    else if (unescape? e).isSome then .ok rest
    else .error .malformed

theorem length_of_word {ws cs rest : List Char} (h : word ws cs = .ok rest) :
    cs.length = ws.length + rest.length := by
  induction ws generalizing cs with
  | nil => simp_all [word]
  | cons w ws ih =>
    cases cs with
    | nil => simp [word] at h
    | cons c cs =>
      simp only [word] at h
      split at h
      · simp only [List.length_cons, ih h]
        omega
      · cases h

theorem length_of_hex4 {cs rest : List Char} {n : Nat} (h : hex4 cs = .ok (n, rest)) :
    cs.length = 4 + rest.length := by
  unfold hex4 at h
  split at h
  · split at h
    · simp only [Except.ok.injEq, Prod.mk.injEq] at h
      simp only [List.length_cons, ← h.2]
      omega
    · cases h
  · split at h <;> cases h

theorem length_of_numericEscape {cs rest : List Char} {c : Char}
    (h : numericEscape cs = .ok (c, rest)) : rest.length < cs.length := by
  unfold numericEscape at h
  cases h1 : hex4 cs with
  | error fault => simp [h1, bind, Except.bind] at h
  | ok first =>
    have l1 := length_of_hex4 h1
    simp only [h1, bind, Except.bind, pure, Except.pure, throw, throwThe, MonadExceptOf.throw] at h
    split at h
    · cases h
    split at h
    · simp only [Except.ok.injEq, Prod.mk.injEq] at h
      rw [← h.2]
      omega
    cases h2 : word ['\\', 'u'] first.2 with
    | error fault => simp [h2] at h
    | ok tail =>
      have l2 := length_of_word h2
      simp only [h2] at h
      cases h3 : hex4 tail with
      | error fault => simp [h3] at h
      | ok second =>
        have l3 := length_of_hex4 h3
        simp only [h3] at h
        split at h
        · cases h
        simp only [Except.ok.injEq, Prod.mk.injEq] at h
        rw [← h.2]
        omega

theorem length_of_escaped {cs rest : List Char} {c : Char} (h : escaped cs = .ok (c, rest)) :
    rest.length < cs.length := by
  unfold escaped at h
  split at h
  · cases h
  · split at h
    · have := length_of_numericEscape h
      simp only [List.length_cons]
      omega
    · split at h
      · simp only [Except.ok.injEq, Prod.mk.injEq] at h
        simp [← h.2]
      · cases h

theorem length_of_skipEscaped {cs rest : List Char} (h : skipEscaped cs = .ok rest) :
    rest.length < cs.length := by
  unfold skipEscaped at h
  split at h
  · cases h
  · next e tail =>
    split at h
    · cases h1 : hex4 tail with
      | error fault => simp [h1, Functor.map, Except.map] at h
      | ok first =>
        have l1 := length_of_hex4 h1
        simp only [h1, Functor.map, Except.map, Except.ok.injEq] at h
        simp only [List.length_cons, ← h]
        omega
    · split at h
      · simp only [Except.ok.injEq] at h
        simp [← h]
      · cases h

/-- The rest of a string after its opening quote, the characters so far in reverse. -/
def stringFrom (acc : List Char) : Reader String
  | [] => .error .ended
  | c :: rest =>
    if c = '"' then .ok (String.ofList acc.reverse, rest)
    else if c = '\\' then
      match _h : escaped rest with
      | .error fault => .error fault
      | .ok (d, after) => stringFrom (d :: acc) after
    else if c.toNat < 0x20 then .error .malformed
    else stringFrom (c :: acc) rest
termination_by cs => cs.length
decreasing_by
  · have := length_of_escaped _h
    simp only [List.length_cons]
    omega
  · simp

def stringBody : Reader String := stringFrom []

/-- The same without keeping the string. -/
def skipStringBody : List Char → Except Fault (List Char)
  | [] => .error .ended
  | c :: rest =>
    if c = '"' then .ok rest
    else if c = '\\' then
      match _h : skipEscaped rest with
      | .error fault => .error fault
      | .ok after => skipStringBody after
    else if c.toNat < 0x20 then .error .malformed
    else skipStringBody rest
termination_by cs => cs.length
decreasing_by
  · have := length_of_skipEscaped _h
    simp only [List.length_cons]
    omega
  · simp

/-- The value of a decimal digit. -/
def digit? (c : Char) : Option (Fin 10) :=
  if h : c.toNat - '0'.toNat < 10 then
    if '0' ≤ c then some ⟨c.toNat - '0'.toNat, h⟩ else none
  else none

/-- The longest run of digits at the front. -/
def digits : List Char → List (Fin 10) × List Char
  | [] => ([], [])
  | c :: rest =>
    match digit? c with
    | none => ([], c :: rest)
    | some d =>
      let (ds, rest) := digits rest
      (d :: ds, rest)

theorem digits_cons_of_none {c : Char} {rest : List Char} (h : digit? c = none) :
    digits (c :: rest) = ([], c :: rest) := by
  change (match digit? c with | none => ([], c :: rest) | some _ => _) = _
  rw [h]

theorem digits_cons_of_some {c : Char} {rest : List Char} {d : Fin 10} (h : digit? c = some d) :
    digits (c :: rest) = (d :: (digits rest).1, (digits rest).2) := by
  change (match digit? c with
    | none => _ | some d => (d :: (digits rest).1, (digits rest).2)) = _
  rw [h]

/-- At least one digit; `atEnd` is the fault when the text ends instead. -/
def someDigits (atEnd : Fault) : Reader (List (Fin 10)) := fun cs =>
  match digits cs with
  | ([], []) => .error atEnd
  | ([], _ :: _) => .error .malformed
  | (ds, rest) => .ok (ds, rest)

def ofDigits (ds : List (Fin 10)) : Nat := ds.foldl (fun acc d => 10 * acc + d.val) 0

/-- An integer part: no zero in front of other digits. -/
def wholePart (atEnd : Fault) : Reader Nat := fun cs => do
  let (ds, rest) ← someDigits atEnd cs
  match ds with
  | 0 :: _ :: _ => throw .malformed
  | _ => return (ofDigits ds, rest)

def fractionPart (atEnd : Fault) : Reader (List (Fin 10)) := fun cs =>
  match cs with
  | '.' :: rest => someDigits atEnd rest
  | _ => .ok ([], cs)

def exponentPart (atEnd : Fault) : Reader (Option Int) := fun cs =>
  match cs with
  | [] => .ok (none, [])
  | c :: rest =>
    if c = 'e' || c = 'E' then do
      let (sign, rest) : Int × List Char := match rest with
        | '-' :: rest => (-1, rest)
        | '+' :: rest => (1, rest)
        | _ => (1, rest)
      let (ds, rest) ← someDigits atEnd rest
      return (some (sign * ofDigits ds), rest)
    else .ok (none, cs)

/-- A number after its sign. -/
def numberBody (atEnd : Fault) (negative : Bool) : Reader JsonNumber := fun cs => do
  let (whole, rest) ← wholePart atEnd cs
  let (fraction, rest) ← fractionPart atEnd rest
  let (exponent, rest) ← exponentPart atEnd rest
  return (⟨negative, whole, fraction, exponent⟩, rest)

/-- A number to be kept, after its sign, which must not be beyond every finite double. -/
def keptNumber (negative : Bool) : Reader JsonNumber := fun cs => do
  let (n, rest) ← numberBody .ended negative cs
  if n.overflows then throw .malformed
  return (n, rest)

/-- A number to be skipped. An end of the text inside it makes it malformed. -/
def skipNumber (negative : Bool) (cs : List Char) : Except Fault (List Char) := do
  let (_, rest) ← numberBody .malformed negative cs
  return rest

end ValueInspector.Json
