import ValueInspector.Shell.Utility.Basic

/-! # Bytes in other alphabets

`base64`, `base32` and their like write bits in letters and read them back.
-/
namespace ValueInspector.Shell.Utility

/-- An alphabet in which each letter stands for so many bits. Groups of letters are filled up with a
padding sign. -/
structure Alphabet where
  letters : List Char
  bits : Nat
  group : Nat
  padding : Option Char

namespace Alphabet

def capitals : List Char := (List.range 26).map fun k => Char.ofNat (65 + k)
def small : List Char := (List.range 26).map fun k => Char.ofNat (97 + k)
def digits : List Char := (List.range 10).map fun k => Char.ofNat (48 + k)

def base64 : Alphabet := ⟨capitals ++ small ++ digits ++ ['+', '/'], 6, 4, some '='⟩
def base64url : Alphabet := ⟨capitals ++ small ++ digits ++ ['-', '_'], 6, 4, some '='⟩
def base32 : Alphabet := ⟨capitals ++ ['2', '3', '4', '5', '6', '7'], 5, 8, some '='⟩
def base32hex : Alphabet := ⟨digits ++ capitals.take 22, 5, 8, some '='⟩
def base16 : Alphabet := ⟨digits ++ capitals.take 6, 4, 2, none⟩
def base2 : Alphabet := ⟨['0', '1'], 1, 8, none⟩

/-- The bits of a number, the highest first. -/
def bitsOf (width n : Nat) : List Bool := (List.range width).map fun k => n.testBit (width - 1 - k)

def ofBits (bits : List Bool) : Nat := bits.foldl (fun acc b => 2 * acc + (if b then 1 else 0)) 0

/-- Pieces of a list, all but the last of one length. -/
def chunks {α : Type} (size : Nat) : Nat → List α → List (List α)
  | 0, _ => []
  | n + 1, l => if l.isEmpty then [] else l.take size :: chunks size n (l.drop size)

def encode (a : Alphabet) (data : Bytes) : Bytes :=
  let bits := data.flatMap fun c => bitsOf 8 c.toNat
  let letters := (chunks a.bits (bits.length + 1) bits).map fun piece =>
    let filled := piece ++ List.replicate (a.bits - piece.length) false
    (a.letters[ofBits filled]?).getD '?'
  match a.padding with
  | some p => letters ++ List.replicate ((a.group - letters.length % a.group) % a.group) p
  | none => letters

/-- What can be read, and whether all of it was well-formed. -/
def decode (a : Alphabet) (ignore : Bool) (text : Bytes) : Bytes × Bool :=
  let value (c : Char) : Option Nat :=
    let k := a.letters.findIdx (· = c)
    if k < a.letters.length then some k else none
  let text := text.filter (· ≠ '\n')
  let text := if ignore then text.filter fun c => (value c).isSome || a.padding = some c else text
  let body := text.takeWhile fun c => (value c).isSome
  let rest := text.drop body.length
  let bits := body.flatMap fun c => bitsOf a.bits ((value c).getD 0)
  let whole := bits.length / 8
  let data := (chunks 8 (whole + 1) (bits.take (whole * 8))).map fun b => Char.ofNat (ofBits b)
  let complete := match a.padding with
    | some p => rest.all (· = p) && text.length % a.group = 0
    | none => rest.isEmpty && bits.length % 8 = 0
  (data, complete)

end Alphabet

/-- Writes bytes in an alphabet, or reads them back. -/
def transcode (i : Invocation) (o : Options) (a : Alphabet) (rest : List Bytes) : Task Nat := do
  match rest with
  | _ :: extra :: _ => refuseUse i (bytes "extra operand " ++ quoted extra) 1
  | _ =>
    let name := rest.head?.getD ['-']
    let width := (o.value? "w").map Bytes.natural?
    match ← contents i name, width with
    | .error f, _ => refuse i (quoteName name ++ bytes ": " ++ f.text) 1
    | _, some none => refuse i (bytes "invalid wrap size: " ++ quoted ((o.value? "w").getD [])) 1
    | .ok data, _ =>
      if o.has "d" then
        let (decoded, complete) := a.decode (o.has "i") data
        let written ← put i decoded
        if complete then return written else refuse i (bytes "invalid input") 1
      else
        let text := a.encode data
        match (width.bind fun w => w).getD 76 with
        | 0 => put i text
        | w => put i (unlines (Alphabet.chunks w (text.length + 1) text))

def encoder (name : String) (a : Alphabet) : Utility :=
  withOptions
    ⟨" [OPTION]... [FILE]", versionOf name, ["d,decode", "i,ignore-garbage", "w,wrap="], true, 1⟩
    fun o rest i => transcode i o a rest

def basenc : Utility :=
  let alphabets : List (String × Alphabet) :=
    [("base64", .base64), ("base64url", .base64url), ("base32", .base32), ("base32hex", .base32hex),
     ("base16", .base16), ("base2msbf", .base2)]
  withOptions
    ⟨" [OPTION]... [FILE]", versionOf "basenc",
      ["d,decode", "i,ignore-garbage", "w,wrap="] ++ alphabets.map (·.1), true, 1⟩
    fun o rest i =>
      match (o.last? (alphabets.map (·.1))).bind fun k => List.lookup k alphabets with
      | some a => transcode i o a rest
      | none => refuseUse i (bytes "missing encoding type") 1

end ValueInspector.Shell.Utility
