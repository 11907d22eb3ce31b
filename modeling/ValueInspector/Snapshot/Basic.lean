import ValueInspector.Memory
import ValueInspector.Snapshot.Layout
import ValueInspector.Text.Blank

/-! # Snapshots

A snapshot is a type table, an index from exact names to its entries, and a captured memory. A
spelling is looked up by splitting off its trailing stars, with blanks between them ignored.
-/
namespace ValueInspector

structure Snapshot where
  entries : Array TypeDef
  byName : List (String × UInt32)
  memory : Memory
deriving Inhabited

/-- What may stand in the pointer suffix of a spelling. -/
def isSuffixChar (c : Char) : Bool := c = '*' || Text.isBlank c

/-- The base spelling and the number of pointer levels a spelling stands for. -/
def splitStars (spelling : List Char) : List Char × Nat :=
  let text := Text.trim spelling
  (Text.dropEndWhile isSuffixChar text, (text.reverse.takeWhile isSuffixChar).count '*')

namespace Snapshot

def empty : Snapshot := ⟨#[], [], .empty⟩

/-- The descriptor a spelling stands for, if its base is in the table. -/
def lookupType (s : Snapshot) (spelling : String) : Option TypeDesc := do
  let (base, levels) := splitStars spelling.toList
  let id ← s.byName.lookup (String.ofList base)
  let entry ← s.entries[id.toNat]?
  return (TypeDesc.plain id entry.name).pointerTimes levels

/-- The table entry behind the base of a descriptor. -/
def typeDef (s : Snapshot) (ty : TypeDesc) : Except InspectError TypeDef :=
  match s.entries[ty.id.toNat]? with
  | some entry => .ok entry
  | none => .error (.unknownTypeId ty.id ty.spelling)

def sizeOf (s : Snapshot) (ty : TypeDesc) : Except InspectError Nat :=
  if ty.isPointer then .ok pointerSize else (·.layout.size) <$> s.typeDef ty

end Snapshot
end ValueInspector
