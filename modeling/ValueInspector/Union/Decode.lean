import ValueInspector.Options.Basic
import ValueInspector.Query
import ValueInspector.Union.Alternatives

/-! # Decoding tagged unions

A union wrapper holds a storage member, and the storage an index member. The index selects an
alternative, and the storage is read as the type of that alternative. Whatever fails on the way,
the union has no interpretation.
-/
namespace ValueInspector.Union

/-- Stands for the content of a union that cannot be interpreted. -/
def noInterpretation : String := "<no interpretation>"

/-- The active member: the alternative and the storage as its type. -/
structure Active (α : Type) where
  alternative : α
  value : RawValue
deriving DecidableEq, Repr

/-- The storage of a wrapper and its discriminant. -/
def readVariant (layout : StandardLayout) (wrapper : RawValue) : Decode (RawValue × Int64) := do
  let storage ← Decode.readField wrapper layout.variantField
  let index ← Decode.readField storage layout.variantIndex
  return (storage, ← Decode.readInteger index)

section Kind
variable (α : Type) [Alternatives α]

def decodeActive (storage : RawValue) (discriminant : Int64) : Query (Option (Active α)) := do
  match Alternatives.ofDiscriminant? (α := α) discriminant with
  | none => return none
  | some alternative =>
    match ← Query.request (.lookupType (Alternatives.typeName alternative)) with
    | none => return none
    | some ty =>
      let value ← (Decode.reinterpret storage ty).toOption
      return value.map fun value => ⟨alternative, value⟩

/-- The active member as the type of its alternative in braces, and its text. -/
def formatActive (storage : RawValue) (discriminant : Int64) : Query (Option String) := do
  match ← decodeActive α storage discriminant with
  | none => return none
  | some active =>
    let content ← (Decode.formatValue active.value).toOption
    return content.map fun content =>
      "\x7b" ++ Alternatives.typeName active.alternative ++ "\x7d " ++ content

def decodeUnion (layout : StandardLayout) (wrapper : RawValue) : Query (Option (Active α)) := do
  match ← (readVariant layout wrapper).toOption with
  | none => return none
  | some (storage, discriminant) => decodeActive α storage discriminant

def formatUnion (layout : StandardLayout) (wrapper : RawValue) : Query String := do
  match ← (readVariant layout wrapper).toOption with
  | none => return noInterpretation
  | some (storage, discriminant) =>
    return (← formatActive α storage discriminant).getD noInterpretation

end Kind
end ValueInspector.Union
