import ValueInspector.Node.Text
import ValueInspector.Proofs.Node.Chain
import ValueInspector.Proofs.Text.SingleLine

/-! # Lines of a rendered tree

Each node of a tree is rendered as one line, and so is each mark, if no text has a line feed of its own.
Every line feed in a text of the tree adds a line.
-/
namespace ValueInspector.Node

mutual

/-- A node and all nodes below it, each before those below it. -/
def preorder : Node → List Node
  | ⟨label, typeName, summary, error, truncated, children⟩ =>
    ⟨label, typeName, summary, error, truncated, children⟩ :: allPreorder children

def allPreorder : List Node → List Node
  | [] => []
  | n :: rest => preorder n ++ allPreorder rest

end

theorem allPreorder_eq_flatMap (l : List Node) : allPreorder l = l.flatMap preorder := by
  induction l with
  | nil => rw [allPreorder, List.flatMap_nil]
  | cons n rest ih => rw [allPreorder, ih, List.flatMap_cons]

theorem preorder_eq (n : Node) : n.preorder = n :: n.children.flatMap preorder := by
  cases n
  rw [preorder, allPreorder_eq_flatMap]

theorem mem_preorder_self (n : Node) : n ∈ n.preorder := by
  rw [preorder_eq]
  exact List.mem_cons_self

theorem mem_preorder_of_mem_children {n c m : Node} (hc : c ∈ n.children) (hm : m ∈ c.preorder) :
    m ∈ n.preorder := by
  rw [preorder_eq]
  exact List.mem_cons_of_mem n (List.mem_flatMap.mpr ⟨c,hc,hm⟩)

theorem all_of_forall_mem_preorder {P : Node → Prop} (n : Node) (h : ∀ m ∈ n.preorder, P m) :
    n.All P :=
  .mk (h n n.mem_preorder_self) fun c hc =>
    all_of_forall_mem_preorder c fun m hm => h m (mem_preorder_of_mem_children hc hm)
termination_by sizeOf n
decreasing_by
  have hlt := List.sizeOf_lt_of_mem hc
  have hchildren : sizeOf n.children < sizeOf n := by
    cases n
    simp only [mk.sizeOf_spec]
    omega
  exact Nat.lt_trans hlt hchildren

/-- The nodes of a tree are those of its list. -/
theorem all_iff_forall_mem_preorder {P : Node → Prop} {n : Node} :
    n.All P ↔ ∀ m ∈ n.preorder, P m := by
  refine ⟨fun h => ?_,all_of_forall_mem_preorder n⟩
  induction h with
  | @mk n here _ ih =>
    rw [preorder_eq]
    refine List.forall_mem_cons.mpr ⟨here,fun m hm => ?_⟩
    obtain ⟨c,hc,hmem⟩ := List.mem_flatMap.mp hm
    exact ih c hc m hmem

/-- How many of the nodes have a mark. -/
def marks (n : Node) : Nat := n.preorder.countP (·.truncated.isSome)

/-- The text of a mark is on one line. -/
theorem singleLine_text_truncation (t : Truncation) : SingleLine t.text := by
  cases t with
  | moreChildren omitted =>
    simp only [Truncation.text, singleLine_append]
    exact ⟨⟨by decide,singleLine_toString_nat omitted⟩,by decide⟩
  | _ => decide

theorem count_lineFeed_line (indent : Nat) (content : List Char) :
    (line indent content).count '\n' = content.count '\n' + 1 := by
  have hblank : (indentation indent).count '\n' = 0 := by
    simp [indentation, List.count_replicate]
  rw [line, List.count_append, List.count_append, hblank, Nat.zero_add, List.count_singleton_self]

theorem count_lineFeed_markerLine (indent : Nat) (t : Option Truncation) :
    (markerLine indent t).count '\n' = if t.isSome then 1 else 0 := by
  cases t with
  | none => rfl
  | some t =>
    rw [markerLine, count_lineFeed_line, List.count_eq_zero.mpr (singleLine_text_truncation t)]
    rfl

mutual

/-- A line feed for each node and each mark, and all those in the texts of the nodes. -/
theorem count_lineFeed_render (indent : Nat) : ∀ n : Node, (render indent n).count '\n' =
    n.preorder.length + n.preorder.countP (·.truncated.isSome) +
      (n.preorder.flatMap headline).count '\n'
  | ⟨label, typeName, summary, error, truncated, children⟩ => by
    have hbelow := count_lineFeed_renderAll (indent + 2) children
    rw [render, preorder, List.count_append, List.count_append, hbelow, count_lineFeed_line,
      count_lineFeed_markerLine, List.length_cons, List.countP_cons, List.flatMap_cons,
      List.count_append]
    dsimp only
    omega

theorem count_lineFeed_renderAll (indent : Nat) : ∀ l : List Node, (renderAll indent l).count '\n' =
    (allPreorder l).length + (allPreorder l).countP (·.truncated.isSome) +
      ((allPreorder l).flatMap headline).count '\n'
  | [] => by
    rw [renderAll, allPreorder]
    rfl
  | n :: rest => by
    have hfirst := count_lineFeed_render indent n
    have hrest := count_lineFeed_renderAll indent rest
    rw [renderAll, allPreorder, List.count_append, hfirst, hrest, List.length_append,
      List.countP_append, List.flatMap_append, List.count_append]
    omega

end

mutual

/-- The text of a tree ends with a line feed. -/
theorem getLast?_render (indent : Nat) : ∀ n : Node, (render indent n).getLast? = some '\n'
  | ⟨label, typeName, summary, error, truncated, children⟩ => by
    have hline : ∀ indent content, (line indent content).getLast? = some '\n' := fun _ _ =>
      List.getLast?_concat
    rw [render, List.getLast?_append, List.getLast?_append, hline]
    cases truncated with
    | some t => rw [markerLine, hline, Option.some_or]
    | none =>
      rcases getLast?_renderAll (indent + 2) children with h | h <;> rw [h] <;> rfl

theorem getLast?_renderAll (indent : Nat) : ∀ l : List Node,
    (renderAll indent l).getLast? = none ∨ (renderAll indent l).getLast? = some '\n'
  | [] => .inl (by rw [renderAll]; rfl)
  | n :: rest => by
    rw [renderAll, List.getLast?_append, getLast?_render indent n]
    rcases getLast?_renderAll indent rest with h | h <;> rw [h]
    · exact .inr rfl
    · exact .inr rfl

end

/-- A part of a line has a line feed if its text has. -/
theorem lineFeed_mem_part_iff {before after : String} (hbefore : SingleLine before)
    (hafter : SingleLine after) {text : Option String} :
    '\n' ∈ part before text after ↔ ∃ t ∈ text, ¬SingleLine t := by
  cases text with
  | none => simp [part]
  | some t =>
    have hb : '\n' ∉ before.toList := hbefore
    have ha : '\n' ∉ after.toList := hafter
    simp [part, SingleLine, hb, ha]

theorem lineFeed_mem_headline_iff {n : Node} (hlabel : SingleLine n.label)
    (htype : ∀ text ∈ n.typeName, SingleLine text) (herror : ∀ text ∈ n.error, SingleLine text) :
    '\n' ∈ n.headline ↔ ∃ text ∈ n.summary, ¬SingleLine text := by
  have hname : '\n' ∉ n.label.toList := hlabel
  have hpart : ∀ {text : Option String}, (∀ t ∈ text, SingleLine t) → ¬∃ t ∈ text, ¬SingleLine t :=
    fun h ⟨t,ht,hline⟩ => hline (h t ht)
  simp only [headline, List.mem_append, or_assoc]
  rw [or_iff_right hname, lineFeed_mem_part_iff (by decide) (by decide), or_iff_right (hpart htype),
    lineFeed_mem_part_iff (by decide) (by decide), lineFeed_mem_part_iff (by decide) (by decide),
    or_iff_left (hpart herror)]

/-- With labels, types and errors on one line, there is a line for each node and each mark, and there
are more of them unless all summaries are on one line. -/
theorem count_lineFeed_text {n : Node} (h : n.All fun m => SingleLine m.label ∧
      (∀ text ∈ m.typeName, SingleLine text) ∧ ∀ text ∈ m.error, SingleLine text) :
    n.preorder.length + n.marks ≤ n.text.toList.count '\n' ∧
    (n.text.toList.count '\n' = n.preorder.length + n.marks ↔
      n.All fun m => ∀ text ∈ m.summary, SingleLine text) := by
  have hcount := count_lineFeed_render 0 n
  rw [text, String.toList_ofList, hcount, marks]
  refine ⟨Nat.le_add_right _ _,Nat.add_eq_left.trans ?_⟩
  rw [List.count_eq_zero, all_iff_forall_mem_preorder]
  rw [all_iff_forall_mem_preorder] at h
  constructor
  · intro hnone m hm text htext
    obtain ⟨hlabel,htype,herror⟩ := h m hm
    refine Classical.not_not.mp fun hline => hnone (List.mem_flatMap.mpr ⟨m,hm,?_⟩)
    exact (lineFeed_mem_headline_iff hlabel htype herror).mpr ⟨text,htext,hline⟩
  · intro hall hmem
    obtain ⟨m,hm,hline⟩ := List.mem_flatMap.mp hmem
    obtain ⟨hlabel,htype,herror⟩ := h m hm
    obtain ⟨text,htext,hbroken⟩ := (lineFeed_mem_headline_iff hlabel htype herror).mp hline
    exact hbroken (hall m hm text htext)

end ValueInspector.Node
