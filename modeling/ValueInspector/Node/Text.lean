import ValueInspector.Node.Basic

/-! # Display trees as text

One line for a node, then the block of each child, indented by two more spaces, then a line for the
truncation marker, indented like a child. Every line ends with a line feed.
-/
namespace ValueInspector

def Truncation.text : Truncation → String
  | .depth => "..."
  | .cycle => "... (cycle)"
  | .unresolved => "... (unresolved)"
  | .moreChildren omitted => "... " ++ toString omitted ++ " more"

namespace Node

def indentation (indent : Nat) : List Char := List.replicate indent ' '

/-- An optional part of a line, between two texts. -/
def part (before : String) (text : Option String) (after : String) : List Char :=
  match text with
  | none => []
  | some text => before.toList ++ text.toList ++ after.toList

/-- The line of a node, without its indentation and line feed. -/
def headline (n : Node) : List Char :=
  n.label.toList ++ part " (" n.typeName ")" ++ part " = " n.summary "" ++
    part " <error: " n.error ">"

def line (indent : Nat) (content : List Char) : List Char := indentation indent ++ content ++ ['\n']

def markerLine (indent : Nat) : Option Truncation → List Char
  | none => []
  | some t => line (indent + 2) t.text.toList

mutual

def render (indent : Nat) : Node → List Char
  | ⟨label, typeName, summary, error, truncated, children⟩ =>
    line indent (headline ⟨label, typeName, summary, error, truncated, children⟩) ++
      renderAll (indent + 2) children ++ markerLine indent truncated

def renderAll (indent : Nat) : List Node → List Char
  | [] => []
  | n :: rest => render indent n ++ renderAll indent rest

end

def text (n : Node) : String := String.ofList (render 0 n)

end Node
end ValueInspector
