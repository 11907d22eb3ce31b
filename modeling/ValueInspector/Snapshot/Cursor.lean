import ValueInspector.Error

/-! # Reading words from fetched bytes

A cursor holds the bytes not yet consumed and the address they were fetched from. A word is taken
in little-endian order; a word that needs more bytes than are left is an unmapped read at the
address reached.
-/
namespace ValueInspector

/-- The number whose base-256 digits, least significant first, are the given bytes. -/
def littleEndian : List UInt8 → Nat
  | [] => 0
  | b :: rest => b.toNat + 256 * littleEndian rest

/-- The lowest `width` base-256 digits of a number, least significant first. -/
def toLittleEndian : Nat → Nat → List UInt8
  | 0, _ => []
  | width + 1, n => UInt8.ofNat (n % 256) :: toLittleEndian width (n / 256)

structure Cursor where
  rest : List UInt8
  address : Nat

namespace Cursor

def ofBytes (bytes : List UInt8) (address : UInt64) : Cursor := ⟨bytes, address.toNat⟩

def word (c : Cursor) (width : Nat) : Except InspectError (Nat × Cursor) :=
  if c.rest.length < width then
    .error (.unmapped (UInt64.ofNat (min c.address (UInt64.size - 1))) width)
  else .ok (littleEndian (c.rest.take width), ⟨c.rest.drop width, c.address + width⟩)

/-- The word of some width at the front. -/
def single (c : Cursor) (width : Nat) : Except InspectError Nat := do
  let (w, _) ← c.word width
  return w

end Cursor
end ValueInspector
