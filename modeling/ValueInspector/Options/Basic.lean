/-! # Inspection options

Budgets for one inspection, settings of the demangling helper, and the member names under which the
standard library of the inspected program keeps its parts.
-/
namespace ValueInspector

structure DemanglerOptions where
  enabled : Bool
  program : String
  args : List String
  timeoutMs : UInt64
deriving DecidableEq, Repr, Inhabited

/-- Member names of standard types: the wrapper and index of a tagged union, the owner of an
implementation and the path to its pointer, the path to the flag of an optional value. -/
structure StandardLayout where
  variantField : String
  variantIndex : String
  pimplField : String
  pimplPointer : List String
  optionalEngaged : List String
deriving DecidableEq, Repr, Inhabited

structure InspectOptions where
  maxDepth : UInt32
  maxChildren : UInt64
  expandPointers : UInt32
  maxTextLen : UInt64
  demangler : DemanglerOptions
  layout : StandardLayout
deriving DecidableEq, Repr, Inhabited

def DemanglerOptions.standard : DemanglerOptions where
  enabled := true
  program := "c++filt"
  args := ["-t"]
  timeoutMs := 2000

def StandardLayout.standard : StandardLayout where
  variantField := "m_data"
  variantIndex := "_M_index"
  pimplField := "m_impl"
  pimplPointer := ["_M_t"]
  optionalEngaged := ["_M_payload", "_M_engaged"]

def InspectOptions.standard : InspectOptions where
  maxDepth := 8
  maxChildren := 64
  expandPointers := 2
  maxTextLen := 200
  demangler := .standard
  layout := .standard

/-- Tighter budgets, for one-line views. -/
def InspectOptions.shallow : InspectOptions :=
  { InspectOptions.standard with
    maxDepth := 2, maxChildren := 16, expandPointers := 0, maxTextLen := 80 }

end ValueInspector
