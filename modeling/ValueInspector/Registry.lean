import ValueInspector.Name
import ValueInspector.Printer

/-! # Printer registry

Printers by normalized type name. A later registration under the same name replaces the earlier one,
and a pointer never has a printer.
-/
namespace ValueInspector

structure Registry where
  entries : List (String × Printer)

namespace Registry

def empty : Registry := ⟨[]⟩

/-- The registry after a registration, and the printer it replaces. -/
def register (r : Registry) (typeName : String) (printer : Printer) : Option Printer × Registry :=
  let key := Name.normalize typeName
  (r.entries.lookup key, ⟨(key, printer) :: r.entries.filter (·.1 ≠ key)⟩)

def lookup (r : Registry) (ty : TypeDesc) : Option Printer :=
  if ty.isPointer then none else r.entries.lookup (Name.normalize ty.base)

def size (r : Registry) : Nat := r.entries.length

def isEmpty (r : Registry) : Bool := r.entries.isEmpty

/-- Registers printers in order. -/
def registerAll (r : Registry) (printers : List (String × Printer)) : Registry :=
  printers.foldl (fun r p => (r.register p.1 p.2).2) r

/-- The printers of the standard object model. -/
def standard : Registry :=
  empty.registerAll
    [("complate::Prototype", .prototype), ("complate::Property", .property),
     ("complate::Method", .method), ("complate::Value", .value), ("complate::String", .text),
     ("complate::Number", .number), ("complate::Proxy", .proxy true),
     ("complate::ProxyWeak", .proxy false)]

end Registry
end ValueInspector
