import ValueInspector.Proofs.Inspector.Visits
import ValueInspector.Proofs.Inspector.Display

/-! # The root of a tree

A value can be summarized alone, and its children can be listed alone, each with a resolver that
remembers nothing. The root of its display tree shows the same, although one resolver serves the whole
tree: the summary within the text budget, the labels of the first children, and how many are left out.
-/
namespace ValueInspector

/-- How many children a node says it leaves out. -/
def Node.omitted (n : Node) : Nat :=
  match n.truncated with
  | some (.moreChildren k) => k
  | _ => 0

/-- What a root shows of a value, told by what its summary and its children come to alone. -/
structure Node.RootOf (o : InspectOptions) (v : RawValue)
    (summary : Except InspectError (Option String)) (children : Except InspectError (List Child))
    (root : Node) : Prop where
  unsummarized : ∀ e, summary = .error e → root.error = some e.message ∧ root.summary = none
  silent : summary = .ok none → root.summary = none
  whole : ∀ text, summary = .ok (some text) → text.toList.length ≤ o.maxTextLen.toNat →
    root.summary = some text
  cut : ∀ text, summary = .ok (some text) → o.maxTextLen.toNat < text.toList.length →
    root.summary = some (String.ofList (text.toList.take o.maxTextLen.toNat ++ "...".toList))
  unlisted : ∀ said e, summary = .ok said → v.ty.isPointer = false → children = .error e →
    root.error = some e.message ∧ root.summary = said.map (truncateText o.maxTextLen.toNat)
  closed : ∀ said cs, summary = .ok said → v.ty.isPointer = false → children = .ok cs → cs ≠ [] →
    o.maxDepth = 0 → root.children = [] ∧ root.truncated = some .depth
  listed : ∀ said cs, summary = .ok said → v.ty.isPointer = false → children = .ok cs →
    cs = [] ∨ o.maxDepth ≠ 0 →
    root.children.map (·.label) = (cs.map (·.label)).take (min cs.length o.maxChildren.toNat) ∧
      root.children.length + root.omitted = cs.length

namespace Inspector

section Levels
variable (host : (r : Request) → r.Answer) {i : Inspector}

/-- With no levels at all nothing is visited below the root. -/
theorem outline_of_maxDepth_eq_zero (hd : i.options.maxDepth = 0) :
    i.outline host i.options.maxDepth.toNat = i.outlineValue host none := by
  rw [hd]
  rfl

theorem exists_outline_of_maxDepth_ne_zero (hd : i.options.maxDepth ≠ 0) :
    ∃ levels, i.outline host i.options.maxDepth.toNat =
      i.outlineValue host (some (i.outline host levels)) := by
  have hpos : i.options.maxDepth.toNat ≠ 0 := fun hzero => hd (UInt32.toNat_inj.mp hzero)
  obtain ⟨levels,hlevels⟩ := Nat.exists_eq_succ_of_ne_zero hpos
  exact ⟨levels,by rw [hlevels, outline]⟩

end Levels

section Root
variable (i : Inspector) (oracle : Oracle) (f : String → Option String)

/-- The root of the tree of a value shows what its summary and its children come to alone. -/
theorem display_root (label : String) (v : RawValue) :
    (i.display oracle (.ofFunction f) label v).RootOf i.options v
      ((i.summarize v).run.runFresh (i.host oracle (.ofFunction f)))
      ((i.children v).run.runFresh (i.host oracle (.ofFunction f))) := by
  rw [runFresh_eq_answers, runFresh_eq_answers, display_eq_outline]
  obtain ⟨below,hbelow⟩ := exists_outline_eq (i.answers oracle f) i i.options.maxDepth.toNat
  have hsummary : ∀ said, (i.summarize v).run.eval (i.answers oracle f) = .ok said →
      (i.outline (i.answers oracle f) i.options.maxDepth.toNat ⟨0,i.options.expandPointers,[]⟩
        label v).toNode.summary = said.map (truncateText i.options.maxTextLen.toNat) := by
    intro said hsaid
    rw [Survey.summary_toNode, hbelow, summary_outlineValue hsaid]
  constructor
  case unsummarized =>
    intro e he
    rw [hbelow, outlineValue_error he, Survey.toNode_mk]
    exact ⟨rfl,rfl⟩
  case silent =>
    intro hnone
    rw [hsummary none hnone]
    rfl
  case whole =>
    intro text htext hshort
    rw [hsummary _ htext, Option.map_some, truncateText_of_length_le hshort]
  case cut =>
    intro text htext hlong
    rw [hsummary _ htext, Option.map_some, truncateText, if_neg (Nat.not_le.mpr hlong)]
  case unlisted =>
    intro said e hsaid hv he
    refine ⟨?_,hsummary said hsaid⟩
    rw [hbelow, outlineValue_members hsaid hv, outlineMembers_error he, Survey.toNode_mk]
    rfl
  case closed =>
    intro said cs hsaid hv hcs hsome hd
    rw [outline_of_maxDepth_eq_zero _ hd, outlineValue_members hsaid hv,
      outlineMembers_none hcs hsome, Survey.toNode_mk]
    exact ⟨rfl,rfl⟩
  case listed =>
    intro said cs hsaid hv hcs hroom
    by_cases hnone : cs = []
    · rw [hbelow, outlineValue_members hsaid hv, outlineMembers_nil hcs hnone, Survey.toNode_mk, hnone]
      exact ⟨rfl,rfl⟩
    · obtain ⟨levels,hlevels⟩ :=
        exists_outline_of_maxDepth_ne_zero (i.answers oracle f) (hroom.resolve_left hnone)
      rw [hlevels, outlineValue_members hsaid hv, outlineMembers_some hcs hnone, Survey.toNode_mk]
      constructor
      · rw [Nat.min_comm, ← List.length_map (f := (·.label)), ← List.take_eq_take_min, ← List.map_take,
          List.map_map, List.map_map]
        refine List.map_congr_left fun c _ => ?_
        exact (Survey.label_toNode _).trans (label_outlineChild levels _ c)
      · simp only [List.length_map, List.length_take, Node.omitted]
        split_ifs <;> dsimp only <;> omega

end Root

/-- A record that points to itself, with one of its two members shown, and the pointer to it, with five
characters of its text. -/
theorem display_root_selfLink :
    let i : Inspector := ⟨.empty,{ InspectOptions.standard with maxChildren := 1, maxTextLen := 5 }⟩
    let record := i.display Snapshot.selfLink.oracle .silent "root" ⟨4096,.plain 0 "Link"⟩
    let pointer := i.display Snapshot.selfLink.oracle .silent "next" ⟨4096,⟨0,1,"Link"⟩⟩
    record.children.map (·.label) = ["next"] ∧ record.children.length + record.omitted = 2 ∧
      pointer.summary = some "0x000..." := by
  dsimp only
  have hrecord := (display_root
    ⟨.empty,{ InspectOptions.standard with maxChildren := 1, maxTextLen := 5 }⟩
    Snapshot.selfLink.oracle (fun _ => none) "root" ⟨4096,.plain 0 "Link"⟩).listed none
    [⟨"next",some ⟨4096,⟨0,1,"Link"⟩⟩⟩,⟨"value",some ⟨4104,⟨1,0,"int32_t"⟩⟩⟩] rfl rfl rfl
    (.inr (by decide))
  have hpointer := (display_root
    ⟨.empty,{ InspectOptions.standard with maxChildren := 1, maxTextLen := 5 }⟩
    Snapshot.selfLink.oracle (fun _ => none) "next" ⟨4096,⟨0,1,"Link"⟩⟩).cut "0x0000000000001000"
    (by decide +kernel) (by decide)
  exact ⟨hrecord.1,hrecord.2,hpointer⟩

end Inspector
end ValueInspector
