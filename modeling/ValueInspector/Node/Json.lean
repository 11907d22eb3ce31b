import ValueInspector.Json.Basic
import ValueInspector.Node.Basic

/-! # Display trees as JSON

A node is an object with its label; the other parts appear only when present, and the children only
when there are some. The object can be read back.
-/
namespace ValueInspector

def Truncation.toJson : Truncation → Json
  | .depth => .string "depth"
  | .cycle => .string "cycle"
  | .unresolved => .string "unresolved"
  | .moreChildren omitted => .object [("more_children", .nat omitted)]

def Truncation.ofJson? : Json → Option Truncation
  | .string "depth" => some .depth
  | .string "cycle" => some .cycle
  | .string "unresolved" => some .unresolved
  | .object [("more_children", .number n)] => n.natural?.map .moreChildren
  | _ => none

namespace Node

def textMember (name : String) (text : Option String) : List (String × Json) :=
  (text.map fun text => (name, .string text)).toList

def truncatedMember (t : Option Truncation) : List (String × Json) :=
  (t.map fun t => ("truncated", t.toJson)).toList

def childrenMember (children : List Json) : List (String × Json) :=
  if children.isEmpty then [] else [("children", .array children)]

mutual

def toJson : Node → Json
  | ⟨label, typeName, summary, error, truncated, children⟩ =>
    .object
      (("label", .string label) :: textMember "type" typeName ++ textMember "summary" summary ++
        textMember "error" error ++ truncatedMember truncated ++
        childrenMember (allToJson children))

def allToJson : List Node → List Json
  | [] => []
  | n :: rest => toJson n :: allToJson rest

end

/-- An optional text among the members of an object; `none` when the member is no text. -/
def readText? (name : String) (members : List (String × Json)) : Option (Option String) :=
  match members.lookup name with
  | none => some none
  | some (.string text) => some (some text)
  | some _ => none

def readTruncated? (members : List (String × Json)) : Option (Option Truncation) :=
  match members.lookup "truncated" with
  | none => some none
  | some v => (Truncation.ofJson? v).map some

mutual

/-- The node an object stands for. -/
def ofJson? : Json → Option Node
  | .object members => do
    let label ← (← readText? "label" members)
    let typeName ← readText? "type" members
    let summary ← readText? "summary" members
    let error ← readText? "error" members
    let truncated ← readTruncated? members
    let children ← childrenOfJson? members
    return ⟨label, typeName, summary, error, truncated, children⟩
  | _ => none

/-- The nodes of the first member named for children; none if there is no such member. -/
def childrenOfJson? : List (String × Json) → Option (List Node)
  | [] => some []
  | (name, .array items) :: rest =>
    if name = "children" then allOfJson? items else childrenOfJson? rest
  | (name, _) :: rest => if name = "children" then none else childrenOfJson? rest

def allOfJson? : List Json → Option (List Node)
  | [] => some []
  | v :: rest => do
    let n ← ofJson? v
    let others ← allOfJson? rest
    return n :: others

end

end Node
end ValueInspector
