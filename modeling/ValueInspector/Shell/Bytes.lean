import ValueInspector.Text.Numeral
import ValueInspector.Text.Utf8

/-! # Byte strings of the shell

The shell and the commands it runs work on bytes. A byte is written as the character with its code,
so a byte string is a list of characters below 256, and the usual character literals name bytes.
-/
namespace ValueInspector.Shell

abbrev Bytes := List Char

namespace Bytes

/-- The UTF-8 bytes of a text. -/
def ofText (s : String) : Bytes := (Text.Utf8.encode s).map fun b => Char.ofNat b.toNat

/-- The bytes as numbers. -/
def octets (bs : Bytes) : List UInt8 := bs.map fun c => UInt8.ofNat c.toNat

def ofNat (n : Nat) : Bytes := Nat.toDigits 10 n

def ofInt (n : Int) : Bytes := if n < 0 then '-' :: ofNat n.natAbs else ofNat n.natAbs

def isBlank (c : Char) : Bool := c = ' ' || c = '\t'

/-- Blank, line feed and the other ASCII spaces. -/
def isSpace (c : Char) : Bool := c = ' ' || (9 ≤ c.toNat && c.toNat ≤ 13)

def isNameStart (c : Char) : Bool := c.isAlpha || c = '_'
def isNameChar (c : Char) : Bool := c.isAlphanum || c = '_'

/-- A letter or underscore, then letters, digits and underscores. -/
def isName : Bytes → Bool
  | [] => false
  | c :: cs => isNameStart c && cs.all isNameChar

/-- Whether a text is one of some. -/
def isAmong (w : Bytes) (ws : List Bytes) : Bool := ws.any fun v => v = w

/-- Whether a text stands before another one in the order of bytes, or is the same. -/
def isAtMost (v w : Bytes) : Bool := !decide (w < v)

/-- The digits of a decimal number, all of them, as its value. -/
def natural? (bs : Bytes) : Option Nat := Text.readDigits? 10 bs

/-- The text after a given start. -/
def after? : Bytes → Bytes → Option Bytes
  | [], cs => some cs
  | _ :: _, [] => none
  | w :: word, c :: cs => if w = c then after? word cs else none

/-- Splits at each line feed; the last line may lack one. -/
def lines (bs : Bytes) : List Bytes :=
  match (bs.splitOn '\n').reverse with
  | [] :: rest => rest.reverse
  | all => all.reverse

/-- The parts with a separator between them. -/
def join (sep : Bytes) : List Bytes → Bytes
  | [] => []
  | [b] => b
  | b :: rest => b ++ sep ++ join sep rest

end Bytes

/-- ASCII text as bytes. -/
def bytes (s : String) : Bytes := s.toList

end ValueInspector.Shell
