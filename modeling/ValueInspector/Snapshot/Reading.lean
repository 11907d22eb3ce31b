import ValueInspector.Decimal.Shortest
import ValueInspector.Snapshot.Basic
import ValueInspector.Snapshot.Cursor
import ValueInspector.Text.Utf8

/-! # Reading typed values

Members, pointer targets, integers and leaf texts of values in a snapshot. All reads fetch the
bytes of the whole value first, so a failed read names the range the value needs.
-/
namespace ValueInspector

namespace Primitive

/-- The integer a scalar holds, sign-extended to 64 bits; `none` for scalars that hold none. -/
def integer? (p : Primitive) (c : Cursor) : Except InspectError (Option Int64) :=
  match p with
  | .bool | .u8 => do return some (Int64.ofNat (← c.single 1))
  | .i32 => do return some (UInt32.ofNat (← c.single 4)).toInt32.toInt64
  | .u32 => do return some (Int64.ofNat (← c.single 4))
  | .i64 | .u64 => do return some (UInt64.ofNat (← c.single 8)).toInt64
  | .f64 | .null | .void => .ok none

/-- The text of a scalar. -/
def format (p : Primitive) (c : Cursor) : Except InspectError String :=
  match p with
  | .bool => do return if (← c.single 1) ≠ 0 then "true" else "false"
  | .u8 => do return toString (← c.single 1)
  | .i32 => do return toString (UInt32.ofNat (← c.single 4)).toInt32.toInt
  | .u32 => do return toString (← c.single 4)
  | .i64 => do return toString (UInt64.ofNat (← c.single 8)).toInt64.toInt
  | .u64 => do return toString (← c.single 8)
  | .f64 => do return Decimal.textOfBits (UInt64.ofNat (← c.single 8))
  | .null => .ok "0x0"
  | .void => .ok "void"

end Primitive

namespace Snapshot

/-- The bytes of a whole value. -/
def fetch (s : Snapshot) (v : RawValue) : Except InspectError (List UInt8) := do
  let size ← s.sizeOf v.ty
  s.memory.read v.address size

/-- The address stored at the location of a value. -/
def readPointer (s : Snapshot) (v : RawValue) : Except InspectError UInt64 := do
  let bytes ← s.memory.read v.address pointerSize
  return UInt64.ofNat (← (Cursor.ofBytes bytes v.address).single 8)

/-- The text a header points at. Its length is capped, and an empty text has no data to fetch. -/
def readText (s : Snapshot) (v : RawValue) : Except InspectError String := do
  let header ← s.memory.read v.address textHeaderSize
  let (data, rest) ← (Cursor.ofBytes header v.address).word 8
  let length := min (← rest.single 8) maxTextBytes
  if length = 0 then return ""
  let bytes ← s.memory.read (UInt64.ofNat data) length
  return Text.Utf8.decodeLossy bytes

/-- A named member of a record. The first member of that name is taken; addresses wrap around. -/
def readField (s : Snapshot) (v : RawValue) (field : String) : Except InspectError RawValue := do
  if v.ty.isPointer then throw (.notAStruct v.typeName)
  match (← s.typeDef v.ty).layout with
  | .record _ fields =>
    match fields.find? (·.name = field) with
    | some f => return ⟨v.address + UInt64.ofNat f.offset, f.ty⟩
    | none => throw (.missingField v.typeName field)
  | _ => throw (.notAStruct v.typeName)

/-- The value a pointer points at. Only a plain `void` target is known to be incomplete. -/
def dereference (s : Snapshot) (v : RawValue) : Except InspectError RawValue := do
  match v.ty.pointee? with
  | none => throw (.notAPointer v.typeName)
  | some pointee =>
    unless pointee.isPointer do
      if (← s.typeDef pointee).layout = .primitive .void then throw (.incompleteType v.typeName)
    let target ← s.readPointer v
    if target = 0 then throw (.nullDereference v.typeName)
    return ⟨target, pointee⟩

/-- The integer a value holds; a pointer holds its address. -/
def readInteger (s : Snapshot) (v : RawValue) : Except InspectError Int64 := do
  if v.ty.isPointer then return (← s.readPointer v).toInt64
  match (← s.typeDef v.ty).layout with
  | .primitive p =>
    let bytes ← s.fetch v
    match ← p.integer? (Cursor.ofBytes bytes v.address) with
    | some n => return n
    | none => throw (.notAnInteger v.typeName)
  | _ => throw (.notAnInteger v.typeName)

/-- The text of a value as a leaf. Records and blobs show no contents, but must be readable. -/
def formatValue (s : Snapshot) (v : RawValue) : Except InspectError String := do
  if v.ty.isPointer then return Text.hexWord (← s.readPointer v)
  match (← s.typeDef v.ty).layout with
  | .primitive p =>
    let bytes ← s.fetch v
    p.format (Cursor.ofBytes bytes v.address)
  | .text => s.readText v
  | .record .. | .blob _ =>
    let _ ← s.fetch v
    return "\x7b...\x7d"

/-- Member names of a record in order; other values have none. -/
def fieldNames (s : Snapshot) (v : RawValue) : Except InspectError (List String) := do
  if v.ty.isPointer then return []
  match (← s.typeDef v.ty).layout with
  | .record _ fields => return fields.map (·.name)
  | _ => return []

end Snapshot
end ValueInspector
