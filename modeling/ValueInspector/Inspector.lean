import ValueInspector.Node.Basic
import ValueInspector.Registry

/-! # Inspecting values

An inspection visits a value and what lies below it, within budgets on depth, children, pointer hops
and text. All its visits share one trail, the addresses that are being expanded: following a pointer
puts its address on the trail, visits the target and takes the address off again. Visits to the
level below are a parameter of the visit of one value, absent at the depth limit. The result is a
survey, which keeps the value and frame of every visit; the display tree is read off it.
-/
namespace ValueInspector

/-- The circumstances of a visit. -/
structure Frame where
  depth : UInt32
  pointersLeft : UInt32
  /-- The trail as the visit found it. -/
  trail : List UInt64
deriving DecidableEq, Repr

/-- The record of one visit and of the visits below it; no value for a member with no
interpretation. -/
structure Survey where
  label : String
  frame : Frame
  value : Option RawValue
  summary : Option String
  error : Option InspectError
  truncated : Option Truncation
  /-- The address a pointer was followed to. -/
  followed : Option UInt64
  children : List Survey

namespace Survey

abbrev start (label : String) (frame : Frame) (value : Option RawValue) : Survey :=
  ⟨label, frame, value, none, none, none, none, []⟩

mutual

/-- What is displayed of a survey. -/
def toNode : Survey → Node
  | ⟨label, _, value, summary, error, truncated, _, children⟩ =>
    ⟨label, value.map (·.typeName), summary, error.map (·.message), truncated, allToNode children⟩

def allToNode : List Survey → List Node
  | [] => []
  | s :: rest => toNode s :: allToNode rest

end

end Survey

/-- Queries of one inspection, with its trail: the addresses that are being expanded, the latest
first. -/
abbrev Walk := StateT (List UInt64) Query

namespace Walk
variable {α β : Type}

/-- The outcome of a query that may fail. -/
def attempt (q : Decode α) : Walk (Except InspectError α) := StateT.lift q.run

/-- Walks with an address on the trail, and takes it off again. -/
def under (address : UInt64) (w : Walk α) : Walk α := do
  modify (address :: ·)
  let a ← w
  modify List.tail
  return a

/-- The results of a walk for each element, in order. -/
def forEach (f : α → Walk β) : List α → Walk (List β)
  | [] => return []
  | a :: rest => do
    let b ← f a
    let others ← forEach f rest
    return b :: others

end Walk

/-- A text with at most `limit` characters, or its first `limit` characters and an ellipsis. -/
def truncateText (limit : Nat) (text : String) : String :=
  if text.toList.length ≤ limit then text else String.ofList (text.toList.take limit ++ "...".toList)

structure Inspector where
  registry : Registry
  options : InspectOptions

namespace Inspector

/-- Where the queries of an inspection run. A disabled demangler is never asked. -/
def host (i : Inspector) (oracle : Oracle) (demangler : Demangler) : Host :=
  ⟨oracle, if i.options.demangler.enabled then some demangler else none⟩

/-- The printer's summary, or else the leaf text. Records without a printer have none. -/
def summarize (i : Inspector) (v : RawValue) : Decode (Option String) :=
  match i.registry.lookup v.ty with
  | some printer => printer.summary i.options.layout v
  | none => do
    if !v.ty.isPointer then
      if !(← Decode.fieldNames v).isEmpty then return none
    return some (← Decode.formatValue v)

/-- Members of a value by name. -/
def membersOf (v : RawValue) : List String → Decode (List Child)
  | [] => return []
  | name :: rest => do
    let member ← Decode.readField v name
    return ⟨name, some member⟩ :: (← membersOf v rest)

/-- The printer's children, or else the members. -/
def children (i : Inspector) (v : RawValue) : Decode (List Child) :=
  match i.registry.lookup v.ty with
  | some printer => printer.children i.options.layout v
  | none => do membersOf v (← Decode.fieldNames v)

/-- A visit of a labelled value with some pointer hops left. -/
abbrev Visit := UInt32 → String → RawValue → Walk Survey

/-- Visits one child, or records that it has no interpretation. -/
def visitChild (below : Visit) (depth pointersLeft : UInt32) (c : Child) : Walk Survey := do
  match c.value with
  | some v => below pointersLeft c.label v
  | none =>
    let s := Survey.start c.label ⟨depth + 1, pointersLeft, ← get⟩ none
    return { s with summary := some Union.noInterpretation }

/-- Completes the survey of a pointer: follows it, unless it is null, out of hops, at the depth
limit or back at an address on the trail. -/
def followPointer (below : Option Visit) (pointersLeft : UInt32) (v : RawValue) (s : Survey) :
    Walk Survey := do
  match ← Walk.attempt (Decode.readInteger v) with
  | .error e => return { s with error := some e }
  | .ok n =>
    let address := n.toUInt64
    if address = 0 ∨ pointersLeft = 0 then return s
    match below with
    | none => return { s with truncated := some .depth }
    | some below =>
      if address ∈ (← get) then return { s with truncated := some .cycle }
      match ← Walk.attempt (Decode.dereference v) with
      | .error (.incompleteType _) => return s
      | .error _ => return { s with truncated := some .unresolved }
      | .ok target =>
        let inner ← Walk.under address (below (pointersLeft - 1) "*" target)
        return { s with followed := some address, children := [inner] }

/-- Completes the survey of a value that is no pointer: visits its first children. -/
def listChildren (i : Inspector) (below : Option Visit) (depth pointersLeft : UInt32)
    (v : RawValue) (s : Survey) : Walk Survey := do
  match ← Walk.attempt (i.children v) with
  | .error e => return { s with error := some e }
  | .ok children =>
    if children.isEmpty then return s
    match below with
    | none => return { s with truncated := some .depth }
    | some below =>
      let limit := i.options.maxChildren.toNat
      let shown ← Walk.forEach (visitChild below depth pointersLeft) (children.take limit)
      let omitted := children.length - limit
      let truncated := if omitted = 0 then none else some (.moreChildren omitted)
      return { s with children := shown, truncated }

/-- Visits one value at a depth. -/
def visit (i : Inspector) (below : Option Visit) (depth : UInt32) : Visit :=
  fun pointersLeft label v => do
    let s := Survey.start label ⟨depth, pointersLeft, ← get⟩ (some v)
    match ← Walk.attempt (i.summarize v) with
    | .error e => return { s with error := some e }
    | .ok summary =>
      let s := { s with summary := summary.map (truncateText i.options.maxTextLen.toNat) }
      if v.ty.isPointer then followPointer below pointersLeft v s
      else i.listChildren below depth pointersLeft v s

/-- A step down from above the depth limit does not wrap around. -/
theorem toNat_depth_succ {depth limit : UInt32} (h : depth < limit) :
    (depth + 1).toNat = depth.toNat + 1 := by
  have hl := limit.toNat_lt
  have hd := UInt32.lt_iff_toNat_lt.mp h
  rw [UInt32.toNat_add]
  exact Nat.mod_eq_of_lt (by simp only [UInt32.toNat_one]; omega)

/-- Visits a value at a depth, and what lies below it down to the depth limit. -/
def survey (i : Inspector) (depth : UInt32) : Visit :=
  i.visit (if h : depth < i.options.maxDepth then some (i.survey (depth + 1)) else none) depth
termination_by i.options.maxDepth.toNat - depth.toNat
decreasing_by
  have hd := UInt32.lt_iff_toNat_lt.mp h
  rw [toNat_depth_succ h]
  omega

/-- The survey of a value from the root, with nothing on the trail. -/
def inspect (i : Inspector) (label : String) (v : RawValue) : Query Survey :=
  (i.survey 0 i.options.expandPointers label v).run' []

/-- The display tree of a value on an oracle. -/
def display (i : Inspector) (oracle : Oracle) (demangler : Demangler) (label : String)
    (v : RawValue) : Node :=
  ((i.inspect label v).runFresh (i.host oracle demangler)).toNode

end Inspector
end ValueInspector
