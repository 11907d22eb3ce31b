/-! # Display trees

A node shows one inspected value: its label, type, summary and error, why it lists fewer children
than the value has, and its children in order.
-/
namespace ValueInspector

/-- Why a node lists fewer children than its value has. -/
inductive Truncation where
  | depth
  | cycle
  | unresolved
  | moreChildren (omitted : Nat)
deriving DecidableEq, Repr

structure Node where
  label : String
  typeName : Option String
  summary : Option String
  error : Option String
  truncated : Option Truncation
  children : List Node
deriving Inhabited

namespace Node

/-- The first child with a label. -/
def child? (n : Node) (label : String) : Option Node := n.children.find? (·.label = label)

/-- The steps of a path: what stands between slashes, empty steps left out. -/
def steps (path : String) : List String :=
  ((path.toList.splitOn '/').filter fun step => !step.isEmpty).map String.ofList

/-- The node reached by taking the first child of each label in turn. -/
def follow? (n : Node) : List String → Option Node
  | [] => some n
  | label :: labels => (n.child? label).bind (·.follow? labels)

def find? (n : Node) (path : String) : Option Node := n.follow? (steps path)

end Node
end ValueInspector
