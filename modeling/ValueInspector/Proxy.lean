import ValueInspector.Query

/-! # Proxies

A proxy handle holds a captured type name and an untyped object reference. When the name is
readable and resolves, the reference is retyped as a pointer to the resolved type; otherwise it is
kept as it is.
-/
namespace ValueInspector

structure Proxy where
  label : String
  name : RawValue
  /-- The captured name, when it is readable. -/
  nameText : Option String
  object : RawValue
  resolved : Option TypeDesc
deriving DecidableEq, Repr

namespace Proxy

def labelOf (owning : Bool) : String := if owning then "proxy" else "weak proxy"

/-- The object reference under a captured name, with the type it was resolved to. -/
def retype (object : RawValue) (nameText : Option String) :
    Query (RawValue × Option TypeDesc) := do
  match nameText with
  | none => return (object, none)
  | some text =>
    match ← Query.request (.resolve text) with
    | none => return (object, none)
    | some found =>
      match ← (Decode.reinterpret object found.ty.pointer).toOption with
      | some typed => return (typed, some found.ty)
      | none => return (object, none)

def decode (handle : RawValue) (owning : Bool) : Decode Proxy := do
  let name ← Decode.readField handle "m_name"
  let object ← Decode.readField handle "m_object"
  let nameText ← (Decode.formatValue name).toOption
  let (object, resolved) ← retype object nameText
  return ⟨labelOf owning, name, nameText, object, resolved⟩

end Proxy
end ValueInspector
