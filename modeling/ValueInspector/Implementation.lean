import ValueInspector.Options.Basic
import ValueInspector.Query

/-! # Opaque objects

An opaque object owns a pointer to its private implementation. The type of the implementation is
looked up by exact name first; its absence is reported, because then the inspected program lacks the
layout of its private types.
-/
namespace ValueInspector

/-- The implementation behind an opaque object. -/
def unwrapImplementation (layout : StandardLayout) (v : RawValue) (implementation : String) :
    Decode RawValue := do
  match ← Decode.lookupType implementation with
  | none => throw (.missingImplementation implementation)
  | some ty =>
    let owner ← Decode.readField v layout.pimplField
    let raw ← Decode.readPath owner layout.pimplPointer
    Decode.dereference (← Decode.reinterpret raw ty.pointer)

end ValueInspector
