/-! # Type descriptors and raw values

A descriptor names an entry of a type table and a number of pointer levels above it. All levels
over one entry share its id and base spelling. Ids have thirty-two bits. The number of levels is a
byte: taking a pointer to a type at the last level stays there.
-/
namespace ValueInspector

structure TypeDesc where
  id : UInt32
  pointers : UInt8
  base : String
deriving DecidableEq, Repr, Inhabited

namespace TypeDesc

def plain (id : UInt32) (base : String) : TypeDesc := ⟨id, 0, base⟩

def isPointer (ty : TypeDesc) : Bool := ty.pointers ≠ 0

def pointer (ty : TypeDesc) : TypeDesc :=
  { ty with pointers := if ty.pointers = 255 then 255 else ty.pointers + 1 }

/-- The descriptor after some number of `pointer` steps. -/
def pointerTimes (ty : TypeDesc) : Nat → TypeDesc
  | 0 => ty
  | n + 1 => (ty.pointerTimes n).pointer

def pointee? (ty : TypeDesc) : Option TypeDesc :=
  if ty.pointers = 0 then none else some { ty with pointers := ty.pointers - 1 }

/-- The base spelling and one star a level. -/
def spelling (ty : TypeDesc) : String :=
  ty.base ++ String.ofList (List.replicate ty.pointers.toNat '*')

end TypeDesc

/-- A typed location in inspected memory. -/
structure RawValue where
  address : UInt64
  ty : TypeDesc
deriving DecidableEq, Repr, Inhabited

namespace RawValue

/-- The same location under another type. -/
def retyped (v : RawValue) (ty : TypeDesc) : RawValue := { v with ty }

def typeName (v : RawValue) : String := v.ty.spelling

end RawValue
end ValueInspector
