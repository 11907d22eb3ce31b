import ValueInspector.Proofs.Inspector.Outline
import ValueInspector.Proofs.Resolver.Cache

/-! # Display trees as outlines

The display tree of a value is read off its outline, if the demangler is a function of the name: then
the cache that all visits share has no influence, and neither has the trail they share.
-/
namespace ValueInspector

namespace Survey

theorem allToNode_eq_map (l : List Survey) : allToNode l = l.map toNode := by
  induction l with
  | nil => rw [allToNode, List.map_nil]
  | cons s rest ih => rw [allToNode, ih, List.map_cons]

theorem toNode_mk (label : String) (frame : Frame) (value : Option RawValue)
    (summary : Option String) (error : Option InspectError) (truncated : Option Truncation)
    (followed : Option UInt64) (children : List Survey) :
    toNode ⟨label,frame,value,summary,error,truncated,followed,children⟩ =
      ⟨label,value.map (·.typeName),summary,error.map (·.message),truncated,
        children.map toNode⟩ := by
  rw [toNode, allToNode_eq_map]

theorem label_toNode (s : Survey) : s.toNode.label = s.label := by
  cases s
  rw [toNode_mk]

theorem typeName_toNode (s : Survey) : s.toNode.typeName = s.value.map (·.typeName) := by
  cases s
  rw [toNode_mk]

theorem summary_toNode (s : Survey) : s.toNode.summary = s.summary := by
  cases s
  rw [toNode_mk]

theorem error_toNode (s : Survey) : s.toNode.error = s.error.map (·.message) := by
  cases s
  rw [toNode_mk]

theorem children_toNode (s : Survey) : s.toNode.children = s.children.map toNode := by
  cases s
  rw [toNode_mk]

end Survey

/-- A record at address 4096 with a pointer to itself and a number. -/
def Snapshot.selfLink : Snapshot where
  entries := #[
    ⟨"Link",.record 16 [⟨"next",0,⟨0,1,"Link"⟩⟩,⟨"value",8,⟨1,0,"int32_t"⟩⟩]⟩,
    ⟨"int32_t",.primitive .i32⟩]
  byName := [("Link",0),("int32_t",1)]
  memory := ⟨#[4096],#[⟨4096,#[0,16,0,0,0,0,0,0,7,0,0,0,0,0,0,0]⟩]⟩

namespace Inspector
variable (i : Inspector) (oracle : Oracle) (f : String → Option String)

theorem functional_host : (i.host oracle (.ofFunction f)).Functional := by
  intro d hd
  unfold host at hd
  dsimp only at hd
  split at hd
  · cases hd
    exact ⟨f,rfl⟩
  · cases hd

/-- The answers on an oracle, with a function to demangle names. -/
def answers : (r : Request) → r.Answer := (i.host oracle (.ofFunction f)).answers

theorem runFresh_eq_answers {α : Type} (q : Query α) :
    q.runFresh (i.host oracle (.ofFunction f)) = q.eval (i.answers oracle f) :=
  Query.runFresh_eq_eval (i.functional_host oracle f) q

theorem inspect_eq_outline (label : String) (v : RawValue) :
    (i.inspect label v).runFresh (i.host oracle (.ofFunction f)) =
      i.outline (i.answers oracle f) i.options.maxDepth.toNat ⟨0,i.options.expandPointers,[]⟩ label
        v := by
  rw [runFresh_eq_answers, eval_inspect]

theorem display_eq_outline (label : String) (v : RawValue) :
    i.display oracle (.ofFunction f) label v =
      (i.outline (i.answers oracle f) i.options.maxDepth.toNat ⟨0,i.options.expandPointers,[]⟩
        label v).toNode := by
  rw [display, inspect_eq_outline]

end Inspector
end ValueInspector
