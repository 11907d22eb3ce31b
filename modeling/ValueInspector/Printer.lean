import ValueInspector.Implementation
import ValueInspector.Proxy
import ValueInspector.Union.Decode

/-! # Printers

A printer decodes one kind of value: into a one-line summary, if the kind has one, and into labelled
children. Decoders are queries, so a printer sees the inspected program only through the oracle and
the resolver.
-/
namespace ValueInspector

/-- A labelled child; a member with no interpretation has no value. -/
structure Child where
  label : String
  value : Option RawValue
deriving DecidableEq, Repr

structure Printer where
  summary : StandardLayout → RawValue → Decode (Option String)
  children : StandardLayout → RawValue → Decode (List Child)

namespace Printer

/-- The printer with no summary and no children. -/
def plain : Printer where
  summary _ _ := return none
  children _ _ := return []

/-- Labelled members of a value, in the given order. -/
def members (v : RawValue) : List (String × String) → Decode (List Child)
  | [] => return []
  | (label, field) :: rest => do
    let member ← Decode.readField v field
    return ⟨label, some member⟩ :: (← members v rest)

/-- The text of a named member. -/
def formatField (v : RawValue) (field : String) : Decode String := do
  Decode.formatValue (← Decode.readField v field)

/-- A property: its name, and whether a setter is present. -/
def property : Printer :=
  { plain with
    summary := fun layout v => do
      let inner ← unwrapImplementation layout v "complate::Property::Impl"
      let name ← formatField inner "m_name"
      let setter ← Decode.readField inner "m_setter"
      let engaged ← Decode.readInteger (← Decode.readPath setter layout.optionalEngaged)
      return some (name ++ ", " ++ if engaged ≠ 0 then "writable" else "readonly") }

/-- A method: its name. -/
def method : Printer :=
  { plain with
    summary := fun layout v => do
      let inner ← unwrapImplementation layout v "complate::Method::Impl"
      return some (← formatField inner "m_name") }

/-- A prototype: its name, methods and properties as children. -/
def prototype : Printer :=
  { plain with
    children := fun layout v => do
      let inner ← unwrapImplementation layout v "complate::Prototype::Impl"
      members inner [("name", "m_name"), ("methods", "m_methods"), ("properties", "m_properties")] }

/-- A proxy: its label and captured name; the name and the object as children. -/
def proxy (owning : Bool) : Printer where
  summary _ v := do
    let p ← Proxy.decode v owning
    return some (match p.nameText with
      | some name => p.label ++ " " ++ name
      | none => p.label)
  children _ v := do
    let p ← Proxy.decode v owning
    return [⟨"name", some p.name⟩, ⟨"object", some p.object⟩]

/-- A union shown in one line as its active alternative and content. -/
def leafUnion (α : Type) [Alternatives α] : Printer :=
  { plain with summary := fun layout v => return some (← Union.formatUnion α layout v) }

def text : Printer := leafUnion TextAlternative
def number : Printer := leafUnion NumberAlternative

/-- Label of the one child of a general value. -/
def containedLabel : String := "[contained value]"

/-- A general value: the name of its active alternative, and the active member as a child. -/
def value : Printer where
  summary layout v := do
    match ← Union.decodeUnion ValueAlternative layout v with
    | some active => return some ("\x7b" ++ Alternatives.typeName active.alternative ++ "\x7d")
    | none => return some Union.noInterpretation
  children layout v := do
    let active ← Union.decodeUnion ValueAlternative layout v
    return [⟨containedLabel, active.map (·.value)⟩]

end Printer
end ValueInspector
