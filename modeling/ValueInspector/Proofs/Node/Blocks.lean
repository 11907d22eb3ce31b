import ValueInspector.Proofs.Node.Lines
import ValueInspector.Proofs.Text.Lines

/-! # Blocks of a rendered tree

The rendering of a tree is a list of lines, one for each node and one for each mark. A node and all
below it take a block: its own line, the blocks of its children, and the line of its mark. The block
of a child is the rendering of the child alone, with two more spaces before each line.
-/
namespace ValueInspector.Node

/-- What holds of a node if it holds of its children holds of every node. -/
theorem inductionOnChildren {motive : Node → Prop} (n : Node)
    (h : ∀ n : Node, (∀ c ∈ n.children, motive c) → motive n) : motive n := by
  have hall : n.All fun _ => True := all_of_forall_mem_preorder n fun _ _ => trivial
  induction hall with
  | mk _ _ ih => exact h _ ih

/-- All texts of a node are on one line. -/
structure OneLined (n : Node) : Prop where
  label : SingleLine n.label
  typeName : ∀ text ∈ n.typeName, SingleLine text
  summary : ∀ text ∈ n.summary, SingleLine text
  error : ∀ text ∈ n.error, SingleLine text

instance (n : Node) : Decidable n.OneLined :=
  decidable_of_iff (SingleLine n.label ∧ (∀ text ∈ n.typeName, SingleLine text) ∧
      (∀ text ∈ n.summary, SingleLine text) ∧ ∀ text ∈ n.error, SingleLine text)
    ⟨fun ⟨hlabel,htype,hsummary,herror⟩ => ⟨hlabel,htype,hsummary,herror⟩,
      fun h => ⟨h.label,h.typeName,h.summary,h.error⟩⟩

theorem OneLined.headline {n : Node} (h : n.OneLined) : '\n' ∉ n.headline := by
  rw [lineFeed_mem_headline_iff h.label h.typeName h.error]
  rintro ⟨text,htext,hline⟩
  exact hline (h.summary text htext)

theorem label_prefix_headline (n : Node) : n.label.toList <+: n.headline := by
  rw [Node.headline, List.append_assoc, List.append_assoc]
  exact List.prefix_append _ _

/-- What a line shows: a node or its mark, at some depth. -/
inductive Entry where
  | node (depth : Nat) (n : Node)
  | mark (depth : Nat) (t : Truncation)

namespace Entry

/-- A line has two spaces for each level, and a mark is a level deeper than its node. -/
def line : Entry → List Char
  | node depth n => indentation (2 * depth) ++ n.headline
  | mark depth t => indentation (2 * depth + 2) ++ t.text.toList

def node? : Entry → Option Node
  | node _ n => some n
  | mark _ _ => none

def isMark : Entry → Bool
  | node _ _ => false
  | mark _ _ => true

theorem length_eq (l : List Entry) : l.length = (l.filterMap node?).length + l.countP isMark := by
  induction l with
  | nil => rfl
  | cons e rest ih =>
    rw [List.length_cons, ih, List.filterMap_cons, List.countP_cons]
    cases e with
    | node depth n => exact Nat.add_right_comm _ _ _
    | mark depth t => exact Nat.add_assoc _ _ _

end Entry

mutual

/-- The lines of a tree in order. -/
def entries (depth : Nat) : Node → List Entry
  | ⟨label, typeName, summary, error, truncated, children⟩ =>
    .node depth ⟨label, typeName, summary, error, truncated, children⟩ ::
      (allEntries (depth + 1) children ++ truncated.toList.map (.mark depth))

def allEntries (depth : Nat) : List Node → List Entry
  | [] => []
  | n :: rest => entries depth n ++ allEntries depth rest

end

theorem allEntries_eq_flatMap (depth : Nat) (l : List Node) :
    allEntries depth l = l.flatMap (entries depth) := by
  induction l with
  | nil => rw [allEntries, List.flatMap_nil]
  | cons n rest ih => rw [allEntries, ih, List.flatMap_cons]

theorem entries_eq (depth : Nat) (n : Node) :
    n.entries depth = .node depth n ::
      (n.children.flatMap (entries (depth + 1)) ++ n.truncated.toList.map (.mark depth)) := by
  cases n
  rw [entries, allEntries_eq_flatMap]

theorem renderAll_eq_flatMap (indent : Nat) (l : List Node) :
    renderAll indent l = l.flatMap (render indent) := by
  induction l with
  | nil => rw [renderAll, List.flatMap_nil]
  | cons n rest ih => rw [renderAll, ih, List.flatMap_cons]

theorem render_eq (indent : Nat) (n : Node) :
    render indent n = line indent n.headline ++ n.children.flatMap (render (indent + 2)) ++
      markerLine indent n.truncated := by
  cases n
  rw [render, renderAll_eq_flatMap]

theorem render_eq_ofLines (n : Node) (depth : Nat) :
    render (2 * depth) n = Text.ofLines ((n.entries depth).map Entry.line) := by
  -- for all depths at once, since the children stand one level deeper
  induction n using inductionOnChildren generalizing depth with
  | h n ih =>
    have hbelow : n.children.flatMap (render (2 * depth + 2)) =
        Text.ofLines ((n.children.flatMap (entries (depth + 1))).map Entry.line) := by
      rw [List.map_flatMap, Text.ofLines, List.flatMap_assoc]
      exact List.flatMap_congr fun c hc => ih c hc (depth + 1)
    have hmark : markerLine (2 * depth) n.truncated =
        Text.ofLines ((n.truncated.toList.map (.mark depth)).map Entry.line) := by
      cases n.truncated with
      | none => rfl
      | some t => exact (List.append_nil _).symm
    rw [render_eq, hbelow, hmark, entries_eq, List.map_cons, List.map_append, Text.ofLines_cons,
      Text.ofLines_append, line, List.append_assoc, List.append_assoc, List.singleton_append,
      Entry.line]

theorem indentation_add (a b : Nat) : indentation (a + b) = indentation a ++ indentation b :=
  List.replicate_append_replicate.symm

theorem Entry.line_mark (depth : Nat) (t : Truncation) :
    (mark depth t).line = indentation (2 * depth) ++ (indentation 2 ++ t.text.toList) := by
  rw [line, indentation_add, List.append_assoc]

/-- Each line of a tree that stands some levels deeper has two more spaces for each level. -/
theorem map_line_entries_add (n : Node) (k depth : Nat) :
    (n.entries (k + depth)).map Entry.line =
      ((n.entries depth).map Entry.line).map (indentation (2 * k) ++ ·) := by
  induction n using inductionOnChildren generalizing depth with
  | h n ih =>
    have hspaces : indentation (2 * (k + depth)) = indentation (2 * k) ++ indentation (2 * depth) := by
      rw [Nat.mul_add, indentation_add]
    have hbelow : (n.children.flatMap (entries (k + depth + 1))).map Entry.line =
        ((n.children.flatMap (entries (depth + 1))).map Entry.line).map
          (indentation (2 * k) ++ ·) := by
      rw [List.map_flatMap, List.map_flatMap, List.map_flatMap]
      exact List.flatMap_congr fun c hc => ih c hc (depth + 1)
    have hmark : (n.truncated.toList.map (.mark (k + depth))).map Entry.line =
        ((n.truncated.toList.map (.mark depth)).map Entry.line).map (indentation (2 * k) ++ ·) := by
      cases n.truncated with
      | none => rfl
      | some t =>
        refine congrArg (fun l => [l]) ?_
        rw [Entry.line_mark, Entry.line_mark, hspaces, List.append_assoc]
    rw [entries_eq, entries_eq, List.map_cons, List.map_cons, List.map_cons, List.map_append,
      List.map_append, List.map_append, hbelow, hmark, Entry.line, Entry.line, hspaces,
      List.append_assoc]

/-- The node that some positions among children lead to. -/
def descend? (n : Node) : List Nat → Option Node
  | [] => some n
  | i :: path => n.children[i]?.bind (·.descend? path)

theorem All.descend {P : Node → Prop} {n m : Node} {path : List Nat} (h : n.All P)
    (hm : n.descend? path = some m) : m.All P := by
  induction path generalizing n with
  | nil =>
    obtain rfl := Option.some.inj hm
    exact h
  | cons i path ih =>
    obtain ⟨c,hc,hm⟩ := Option.bind_eq_some_iff.mp hm
    cases h with
    | mk _ below => exact ih (below c (List.mem_of_getElem? hc)) hm

/-- The lines of a node below are next to each other, as deep as the way to it is long. -/
theorem exists_entries_around {n m : Node} {path : List Nat} (h : n.descend? path = some m)
    (depth : Nat) :
    ∃ before after, n.entries depth = before ++ m.entries (depth + path.length) ++ after := by
  induction path generalizing n depth with
  | nil =>
    obtain rfl := Option.some.inj h
    exact ⟨[],[],(List.append_nil _).symm⟩
  | cons i path ih =>
    obtain ⟨c,hc,hm⟩ := Option.bind_eq_some_iff.mp h
    obtain ⟨before,after,hblock⟩ := ih hm (depth + 1)
    -- around the child's own lines stand those of its siblings, and of the node itself
    obtain ⟨front,back,hchildren⟩ := List.append_of_mem (List.mem_of_getElem? hc)
    refine ⟨.node depth n :: (front.flatMap (entries (depth + 1)) ++ before),
      after ++ back.flatMap (entries (depth + 1)) ++ n.truncated.toList.map (.mark depth),?_⟩
    rw [entries_eq, hchildren, List.flatMap_append, List.flatMap_cons, hblock, List.length_cons,
      Nat.add_right_comm, Nat.add_assoc]
    simp only [List.append_assoc, List.cons_append]

theorem filterMap_node_entries (n : Node) (depth : Nat) :
    (n.entries depth).filterMap Entry.node? = n.preorder := by
  induction n using inductionOnChildren generalizing depth with
  | h n ih =>
    have hmark : (n.truncated.toList.map (.mark depth)).filterMap Entry.node? = [] := by
      cases n.truncated <;> rfl
    have hbelow : (n.children.flatMap (entries (depth + 1))).filterMap Entry.node? =
        n.children.flatMap preorder := by
      rw [List.filterMap_flatMap]
      exact List.flatMap_congr fun c hc => ih c hc (depth + 1)
    rw [entries_eq, preorder_eq, List.filterMap_cons, List.filterMap_append, hbelow, hmark,
      List.append_nil]
    rfl

theorem countP_isMark_entries (n : Node) (depth : Nat) :
    (n.entries depth).countP Entry.isMark = n.marks := by
  induction n using inductionOnChildren generalizing depth with
  | h n ih =>
    have hmark : (n.truncated.toList.map (.mark depth)).countP Entry.isMark =
        if n.truncated.isSome then 1 else 0 := by
      cases n.truncated <;> rfl
    have hbelow : (n.children.flatMap (entries (depth + 1))).countP Entry.isMark =
        (n.children.flatMap preorder).countP (·.truncated.isSome) := by
      rw [List.countP_flatMap, List.countP_flatMap]
      exact congrArg List.sum (List.map_congr_left fun c hc => ih c hc (depth + 1))
    have hnode : Entry.isMark (.node depth n) = false := rfl
    rw [entries_eq, marks, preorder_eq, List.countP_cons, List.countP_append, List.countP_cons, hbelow,
      hmark, hnode]
    rfl

section OneLined
variable {n : Node} (h : n.All OneLined)
include h

theorem lineFeed_not_mem_line_entries (depth : Nat) :
    ∀ l ∈ (n.entries depth).map Entry.line, '\n' ∉ l := by
  intro l hl
  obtain ⟨e,he,rfl⟩ := List.mem_map.mp hl
  have hspaces : ∀ k, '\n' ∉ indentation k := fun k hmem =>
    absurd (List.eq_of_mem_replicate hmem) (by decide)
  cases e with
  | node depth m =>
    have hm : m ∈ n.preorder := by
      rw [← filterMap_node_entries n]
      exact List.mem_filterMap.mpr ⟨_,he,rfl⟩
    exact fun hmem => (List.mem_append.mp hmem).elim (hspaces _)
      (all_iff_forall_mem_preorder.mp h m hm).headline
  | mark depth t =>
    exact fun hmem => (List.mem_append.mp hmem).elim (hspaces _) (singleLine_text_truncation t)

theorem lines_text : Text.lines n.text = (n.entries 0).map Entry.line := by
  have hrender : render 0 n = Text.ofLines ((n.entries 0).map Entry.line) := render_eq_ofLines n 0
  rw [text, hrender, Text.lines_ofLines (lineFeed_not_mem_line_entries h 0)]

/-- The lines of a tree some levels down are those of its own text with more spaces. -/
theorem map_line_entries (depth : Nat) :
    (n.entries depth).map Entry.line = (Text.lines n.text).map (indentation (2 * depth) ++ ·) := by
  rw [lines_text h]
  exact map_line_entries_add n depth 0

/-- The block of a node: its line, the blocks of its children, its mark. -/
theorem map_lines_text (depth : Nat) :
    (Text.lines n.text).map (indentation (2 * depth) ++ ·) =
      (indentation (2 * depth) ++ n.headline) ::
        (n.children.flatMap (fun c => (Text.lines c.text).map (indentation (2 * depth + 2) ++ ·)) ++
          n.truncated.toList.map fun t => indentation (2 * depth + 2) ++ t.text.toList) := by
  rw [← map_line_entries h, entries_eq, List.map_cons, List.map_append, List.map_flatMap,
    List.map_map, Entry.line]
  congr 2
  refine List.flatMap_congr fun c hc => ?_
  cases h with
  | mk _ below => exact map_line_entries (below c hc) (depth + 1)

end OneLined

/-- The text of a tree without line feeds in its labels, types, summaries and errors has a line for
each node and for each mark, each ended by a line feed, and the nodes come in the order of the tree. A
node at some depth takes the lines of its own text, with two spaces for each level: its line, which
starts with its label, the blocks of its children one after the other, and its mark. -/
theorem text_in_blocks (n : Node) (h : n.All OneLined) :
    let lines := Text.lines n.text
    n.text.toList = Text.ofLines lines ∧
    lines = (n.entries 0).map Entry.line ∧ lines.length = n.preorder.length + n.marks ∧
    (n.entries 0).filterMap Entry.node? = n.preorder ∧
    (n.entries 0).countP Entry.isMark = n.marks ∧
    ∀ path m, n.descend? path = some m → m.label.toList <+: m.headline ∧
      (∃ before after,
        lines = before ++ (Text.lines m.text).map (indentation (2 * path.length) ++ ·) ++ after) ∧
      (Text.lines m.text).map (indentation (2 * path.length) ++ ·) =
        (indentation (2 * path.length) ++ m.headline) ::
          (m.children.flatMap
              (fun c => (Text.lines c.text).map (indentation (2 * path.length + 2) ++ ·)) ++
            m.truncated.toList.map fun t =>
              indentation (2 * path.length + 2) ++ t.text.toList) := by
  intro lines
  have hlines : lines = (n.entries 0).map Entry.line := lines_text h
  refine ⟨?_,hlines,?_,filterMap_node_entries n 0,countP_isMark_entries n 0,fun path m hm =>
    ⟨m.label_prefix_headline,?_,map_lines_text (h.descend hm) path.length⟩⟩
  · rw [hlines, text, String.toList_ofList]
    exact render_eq_ofLines n 0
  · rw [hlines, List.length_map, Entry.length_eq, filterMap_node_entries, countP_isMark_entries]
  · obtain ⟨before,after,hblock⟩ := exists_entries_around hm 0
    rw [Nat.zero_add] at hblock
    refine ⟨before.map Entry.line,after.map Entry.line,?_⟩
    rw [hlines, hblock, List.map_append, List.map_append, map_line_entries (h.descend hm)]

/-- Two children, one with a mark of its own, and a mark behind both. -/
def markedTree : Node :=
  ⟨"list",some "List",none,none,some (.moreChildren 3),
    [⟨"a",none,some "1",none,some .depth,[]⟩,
      ⟨"b",none,none,some "lost",none,[⟨"c",none,none,none,none,[]⟩]⟩]⟩

theorem text_in_blocks_marked :
    markedTree.All OneLined ∧
      markedTree.text.toList = Text.ofLines ["list (List)".toList,"  a = 1".toList,"    ...".toList,
        "  b <error: lost>".toList,"    c".toList,"  ... 3 more".toList] := by
  have hlined : markedTree.All OneLined := all_iff_forall_mem_preorder.mpr (by decide +kernel)
  obtain ⟨hended,hlines,_⟩ := text_in_blocks markedTree hlined
  refine ⟨hlined,?_⟩
  rw [hended, hlines]
  decide +kernel

end ValueInspector.Node
