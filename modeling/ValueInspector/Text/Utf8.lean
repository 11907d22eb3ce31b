/-! # UTF-8 text in inspected memory

Two readings of a byte string as text. The strict one accepts well-formed UTF-8 only. The lenient
one never fails: each maximal ill-formed part becomes one replacement character, where a maximal
part is the longest start of some well-formed sequence, or else a single byte.
-/
namespace ValueInspector.Text.Utf8

/-- What a lead byte announces: how many continuation bytes follow, the range of the first of them,
and the payload bits of the lead byte itself. -/
structure Lead where
  follow : Nat
  low : UInt8
  high : UInt8
  bits : Nat
deriving DecidableEq, Repr

def lead? (b : UInt8) : Option Lead :=
  let n := b.toNat
  if n < 0x80 then some ⟨0, 0, 0, n⟩
  else if n < 0xC2 then none
  else if n < 0xE0 then some ⟨1, 0x80, 0xBF, n - 0xC0⟩
  else if n = 0xE0 then some ⟨2, 0xA0, 0xBF, 0⟩
  else if n = 0xED then some ⟨2, 0x80, 0x9F, 0xD⟩
  else if n < 0xF0 then some ⟨2, 0x80, 0xBF, n - 0xE0⟩
  else if n = 0xF0 then some ⟨3, 0x90, 0xBF, 0⟩
  else if n < 0xF4 then some ⟨3, 0x80, 0xBF, n - 0xF0⟩
  else if n = 0xF4 then some ⟨3, 0x80, 0x8F, 4⟩
  else none

/-- The first step of a reading: a character or a maximal ill-formed part, and the bytes after it. -/
inductive Step where
  | char (c : Char) (rest : List UInt8)
  | illFormed (rest : List UInt8)

/-- Reads `follow` more continuation bytes, the next of which lies between the two bounds. -/
def continuation (low high : UInt8) (value : Nat) : Nat → List UInt8 → Step
  | 0, rest => .char (Char.ofNat value) rest
  | follow + 1, rest =>
    match rest with
    | [] => .illFormed []
    | b :: tail =>
      if low ≤ b ∧ b ≤ high then
        continuation 0x80 0xBF (64 * value + (b.toNat - 0x80)) follow tail
      else .illFormed (b :: tail)

/-- The step at a byte and the bytes after it. -/
def step (b : UInt8) (rest : List UInt8) : Step :=
  match lead? b with
  | none => .illFormed rest
  | some l => continuation l.low l.high l.bits l.follow rest

/-- Takes `count` steps at most, the characters so far in reverse; a reading takes no more steps
than there are bytes. -/
def lossyLoop : Nat → List UInt8 → List Char → List Char
  | 0, _, acc => acc.reverse
  | _ + 1, [], acc => acc.reverse
  | count + 1, b :: rest, acc =>
    match step b rest with
    | .char c tail => lossyLoop count tail (c :: acc)
    | .illFormed tail => lossyLoop count tail ('\uFFFD' :: acc)

def decodeLossy (bytes : List UInt8) : String := String.ofList (lossyLoop bytes.length bytes [])

def strictLoop : Nat → List UInt8 → List Char → Option (List Char)
  | 0, bytes, acc => if bytes.isEmpty then some acc.reverse else none
  | _ + 1, [], acc => some acc.reverse
  | count + 1, b :: rest, acc =>
    match step b rest with
    | .char c tail => strictLoop count tail (c :: acc)
    | .illFormed _ => none

/-- The text of a well-formed byte string. -/
def decode? (bytes : List UInt8) : Option String :=
  (strictLoop bytes.length bytes []).map String.ofList

/-- The bytes of a text. -/
def encode (s : String) : List UInt8 := s.toUTF8.data.toList

end ValueInspector.Text.Utf8
