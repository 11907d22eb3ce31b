import ValueInspector.TypeDesc

/-! # Type layouts

The entries of a type table: scalars of fixed width, records with members at byte offsets, texts
stored as a header that points at their bytes, and blobs of which only the size is known.
-/
namespace ValueInspector

inductive Primitive where
  | bool | u8 | i32 | u32 | i64 | u64 | f64
  /-- The type of the null pointer constant. -/
  | null
  | void
deriving DecidableEq, Repr

/-- Width in bytes. -/
def Primitive.size : Primitive → Nat
  | .bool | .u8 => 1
  | .i32 | .u32 => 4
  | .i64 | .u64 | .f64 | .null => 8
  | .void => 0

structure FieldDef where
  name : String
  offset : Nat
  ty : TypeDesc
deriving DecidableEq, Repr

inductive Layout where
  | primitive (p : Primitive)
  | record (size : Nat) (fields : List FieldDef)
  | text
  | blob (size : Nat)
deriving DecidableEq, Repr

structure TypeDef where
  name : String
  layout : Layout
deriving DecidableEq, Repr

/-- Pointers are eight bytes wide. -/
def pointerSize : Nat := 8

/-- A text header is a data address and a byte length. -/
def textHeaderSize : Nat := 16

/-- Bytes of a text that are read at most. -/
def maxTextBytes : Nat := 65536

def Layout.size : Layout → Nat
  | .primitive p => p.size
  | .record size _ => size
  | .text => textHeaderSize
  | .blob size => size

end ValueInspector
