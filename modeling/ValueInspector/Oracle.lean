import ValueInspector.Snapshot.Reading

/-! # Oracles

An oracle answers questions about inspected values: which type a spelling names, what a value's
members, target, integer and text are. Its answers are functions of their arguments.
-/
namespace ValueInspector

structure Oracle where
  lookupType : String → Option TypeDesc
  reinterpret : RawValue → TypeDesc → Except InspectError RawValue
  readField : RawValue → String → Except InspectError RawValue
  dereference : RawValue → Except InspectError RawValue
  readInteger : RawValue → Except InspectError Int64
  formatValue : RawValue → Except InspectError String
  fieldNames : RawValue → Except InspectError (List String)

/-- A snapshot as an oracle. Any location may be reinterpreted as any type. -/
def Snapshot.oracle (s : Snapshot) : Oracle where
  lookupType := s.lookupType
  reinterpret v ty := .ok (v.retyped ty)
  readField := s.readField
  dereference := s.dereference
  readInteger := s.readInteger
  formatValue := s.formatValue
  fieldNames := s.fieldNames

/-- The same oracle, except that every cast fails. -/
def Oracle.withoutCasts (o : Oracle) : Oracle :=
  { o with reinterpret := fun _ ty => .error (.incompleteType ty.spelling) }

end ValueInspector
