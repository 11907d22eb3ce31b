import Mathlib.Logic.Relation
import ValueInspector.Proofs.Node.Chain

/-! # Paths through a tree

A path takes one step after the other, so a path behind another one goes on from the node that one has
led to. Slashes only part the steps: it makes no difference how many of them stand in one place, or
whether they stand at the ends, but everything else does.
-/
namespace ValueInspector.Node

/-- What can stand between two slashes. -/
structure IsStep (label : String) : Prop where
  ne_empty : label ≠ ""
  slash_not_mem : '/' ∉ label.toList

instance (label : String) : Decidable (IsStep label) :=
  decidable_of_iff (label ≠ "" ∧ '/' ∉ label.toList)
    ⟨fun ⟨hne,hslash⟩ => ⟨hne,hslash⟩,fun h => ⟨h.ne_empty,h.slash_not_mem⟩⟩

theorem steps_empty : steps "" = [] := by simp [steps]

/-- A slash parts the steps before it from those behind it. -/
theorem steps_append (p q : String) : steps (p ++ "/" ++ q) = steps p ++ steps q := by
  have hslash : (p ++ "/" ++ q).toList = p.toList ++ '/' :: q.toList := by simp
  rw [steps, hslash, List.splitOn_append_cons_self, List.filter_append, List.map_append]
  rfl

theorem steps_slash_append (p : String) : steps ("/" ++ p) = steps p := by
  have h := steps_append "" p
  rwa [String.empty_append, steps_empty, List.nil_append] at h

theorem steps_append_slash (p : String) : steps (p ++ "/") = steps p := by
  have h := steps_append p ""
  rwa [String.append_empty, steps_empty, List.append_nil] at h

theorem IsStep.steps_eq {label : String} (h : IsStep label) : steps label = [label] := by
  have hne : label.toList ≠ [] := fun hnil => h.ne_empty (String.toList_eq_nil_iff.mp hnil)
  rw [steps, List.splitOn_eq_singleton h.slash_not_mem]
  simp [hne]

/-- Steps with slashes between them are found again. -/
theorem steps_intercalate {labels : List String} (h : ∀ label ∈ labels, IsStep label) :
    steps ("/".intercalate labels) = labels := by
  induction labels with
  | nil => rw [String.intercalate_nil, steps_empty]
  | cons label rest ih =>
    obtain ⟨hlabel,hrest⟩ := List.forall_mem_cons.mp h
    cases rest with
    | nil => rw [String.intercalate_singleton, hlabel.steps_eq]
    | cons next rest =>
      rw [String.intercalate_cons_cons, steps_append, hlabel.steps_eq, ih hrest,
        List.singleton_append]

theorem find?_append (n : Node) (p q : String) :
    n.find? (p ++ "/" ++ q) = (n.find? p).bind (·.find? q) := by
  rw [find?, steps_append, follow?_append]
  rfl

/-- One more slash at an end of a path, or beside another slash. -/
inductive AddsSlash : String → String → Prop
  | leading (p : String) : AddsSlash p ("/" ++ p)
  | trailing (p : String) : AddsSlash p (p ++ "/")
  | repeated (p q : String) : AddsSlash (p ++ "/" ++ q) (p ++ "/" ++ "/" ++ q)

/-- Paths that are the same but for leading, trailing and repeated slashes. -/
def SameButSlashes : String → String → Prop := Relation.EqvGen AddsSlash

theorem AddsSlash.steps_eq {p q : String} (h : AddsSlash p q) : steps p = steps q := by
  cases h with
  | leading => exact (steps_slash_append p).symm
  | trailing => exact (steps_append_slash p).symm
  | repeated p q => rw [steps_append, steps_append (p ++ "/"), steps_append_slash]

instance : Trans SameButSlashes SameButSlashes SameButSlashes := ⟨.trans _ _ _⟩

namespace SameButSlashes
variable {p q : String}

theorem steps_eq (h : SameButSlashes p q) : steps p = steps q := by
  induction h with
  | rel _ _ h => exact h.steps_eq
  | refl _ => rfl
  | symm _ _ _ ih => exact ih.symm
  | trans _ _ _ _ _ ih₁ ih₂ => exact ih₁.trans ih₂

/-- Paths stay the same when both stand behind a label. -/
theorem behind (label : String) (h : SameButSlashes p q) :
    SameButSlashes (label ++ "/" ++ p) (label ++ "/" ++ q) := by
  induction h with
  | rel p q h =>
    refine .rel _ _ ?_
    cases h with
    | leading =>
      -- what was a leading slash now stands beside the one behind the label
      have hbeside := AddsSlash.repeated label p
      simpa only [String.append_assoc] using hbeside
    | trailing =>
      have hend := AddsSlash.trailing (label ++ "/" ++ p)
      simpa only [String.append_assoc] using hend
    | repeated p q =>
      have hbeside := AddsSlash.repeated (label ++ "/" ++ p) q
      simpa only [String.append_assoc] using hbeside
  | refl _ => exact .refl _
  | symm _ _ _ ih => exact .symm _ _ ih
  | trans _ _ _ _ _ ih₁ ih₂ => exact .trans _ _ _ ih₁ ih₂

theorem intercalate_cons (label : String) (labels : List String) :
    SameButSlashes ("/".intercalate (label :: labels)) (label ++ "/" ++ "/".intercalate labels) := by
  cases labels with
  | nil =>
    have hend := AddsSlash.trailing label
    rw [String.intercalate_singleton, String.intercalate_nil, String.append_empty]
    exact .rel _ _ hend
  | cons next rest =>
    rw [String.intercalate_cons_cons]
    exact .refl _

/-- What is empty between two slashes can be left out. -/
theorem intercalate_filter (pieces : List String) :
    SameButSlashes ("/".intercalate pieces) ("/".intercalate (pieces.filter (· ≠ ""))) := by
  induction pieces with
  | nil => exact .refl _
  | cons piece rest ih =>
    by_cases hpiece : piece = ""
    · subst hpiece
      have hfront := AddsSlash.leading ("/".intercalate rest)
      calc
        SameButSlashes ("/".intercalate ("" :: rest)) ("" ++ "/" ++ "/".intercalate rest) :=
          intercalate_cons "" rest
        SameButSlashes _ ("/".intercalate rest) := .symm _ _ (.rel _ _ hfront)
        SameButSlashes _ _ := ih
    · rw [List.filter_cons_of_pos (by simpa using hpiece)]
      calc
        SameButSlashes ("/".intercalate (piece :: rest)) (piece ++ "/" ++ "/".intercalate rest) :=
          intercalate_cons piece rest
        SameButSlashes _ (piece ++ "/" ++ "/".intercalate (rest.filter (· ≠ ""))) := ih.behind piece
        SameButSlashes _ _ := .symm _ _ (intercalate_cons piece _)

/-- A path is the same as its steps with slashes between them. -/
theorem intercalate_steps (p : String) : SameButSlashes p ("/".intercalate (steps p)) := by
  have hpath : "/".intercalate ((p.toList.splitOn '/').map String.ofList) = p := by
    rw [← String.toList_inj, String.toList_intercalate, List.map_map]
    simp
  have hsteps : ((p.toList.splitOn '/').map String.ofList).filter (· ≠ "") = steps p := by
    have hkept : ∀ step : List Char, decide (String.ofList step ≠ "") = !step.isEmpty := by
      intro step
      cases step <;> simp
    rw [steps, List.filter_map]
    exact congrArg _ (List.filter_congr fun step _ => hkept step)
  have hfilter := intercalate_filter ((p.toList.splitOn '/').map String.ofList)
  rwa [hpath, hsteps] at hfilter

theorem of_steps_eq (h : steps p = steps q) : SameButSlashes p q :=
  calc
    SameButSlashes p ("/".intercalate (steps p)) := intercalate_steps p
    SameButSlashes _ ("/".intercalate (steps q)) := h ▸ .refl _
    SameButSlashes _ q := .symm _ _ (intercalate_steps q)

end SameButSlashes

/-- A tree with one way down, along some labels. -/
def singleWay (label : String) : List String → Node
  | [] => ⟨label, none, none, none, none, []⟩
  | next :: rest => ⟨label, none, none, none, none, [singleWay next rest]⟩

theorem label_singleWay (label : String) (labels : List String) :
    (singleWay label labels).label = label := by
  cases labels <;> rfl

/-- Only the labels along the way lead to its end. -/
theorem follow?_singleWay_iff (label : String) (labels labels' : List String) :
    (∃ m, (singleWay label labels).follow? labels' = some m ∧ m.children = []) ↔
      labels' = labels := by
  -- on the way down the rest of the tree is again one with a single way
  induction labels generalizing label labels' with
  | nil =>
    cases labels' with
    | nil => simp [follow?, singleWay]
    | cons => simp [follow?, singleWay, child?]
  | cons next rest ih =>
    cases labels' with
    | nil => simp [follow?, singleWay]
    | cons label' labels' =>
      by_cases hlabel : next = label'
      · have hchild : (singleWay label (next :: rest)).child? label' = some (singleWay next rest) := by
          simp [child?, singleWay, label_singleWay, hlabel]
        rw [follow?, hchild, Option.bind_some, ih, List.cons.injEq, hlabel]
        simp
      · have hchild : (singleWay label (next :: rest)).child? label' = none := by
          simp [child?, singleWay, label_singleWay, hlabel]
        simp [follow?, hchild, Ne.symm hlabel]

/-- Paths with other steps lead to other nodes in some tree. -/
theorem steps_eq_of_forall_find? {p q : String} (h : ∀ n : Node, n.find? p = n.find? q) :
    steps p = steps q := by
  have hend := (follow?_singleWay_iff "" (steps q) (steps q)).mpr rfl
  have hsame : (singleWay "" (steps q)).find? p = (singleWay "" (steps q)).find? q := h _
  rw [find?, find?] at hsame
  rw [← hsame] at hend
  exact (follow?_singleWay_iff "" (steps q) (steps p)).mp hend

theorem sameButSlashes_iff (p q : String) :
    SameButSlashes p q ↔ ∀ n : Node, n.find? p = n.find? q := by
  constructor
  · intro h n
    rw [find?, find?, h.steps_eq]
  · intro h
    exact .of_steps_eq (steps_eq_of_forall_find? h)

/-- The node that some labels lead to, each the label of a child that no child before it has. -/
inductive LeadsTo : Node → List String → Node → Prop
  | here (n : Node) : LeadsTo n [] n
  | down {n c m : Node} {label : String} {labels : List String} {before after : List Node}
      (hchildren : n.children = before ++ c :: after) (hlabel : c.label = label)
      (hfirst : ∀ b ∈ before, b.label ≠ label) (hbelow : LeadsTo c labels m) :
      LeadsTo n (label :: labels) m

theorem child?_eq_some_iff {n c : Node} {label : String} :
    n.child? label = some c ↔ c.label = label ∧
      ∃ before after, n.children = before ++ c :: after ∧ ∀ b ∈ before, b.label ≠ label := by
  simp [child?, List.find?_eq_some_iff_append]

theorem follow?_eq_some_iff {n m : Node} {labels : List String} :
    n.follow? labels = some m ↔ LeadsTo n labels m := by
  constructor
  · intro h
    induction labels generalizing n with
    | nil =>
      obtain rfl := Option.some.inj h
      exact .here n
    | cons label labels ih =>
      obtain ⟨c,hc,hm⟩ := Option.bind_eq_some_iff.mp h
      obtain ⟨hlabel,before,after,hchildren,hfirst⟩ := child?_eq_some_iff.mp hc
      exact .down hchildren hlabel hfirst (ih hm)
  · intro h
    induction h with
    | here => rfl
    | down hchildren hlabel hfirst _ ih =>
      have hchild := child?_eq_some_iff.mpr ⟨hlabel,_,_,hchildren,hfirst⟩
      rw [follow?, hchild]
      exact ih

/-- A path behind another one is followed from the node that one leads to. Paths lead to the same node
in every tree if they are the same but for leading, trailing and repeated slashes, and only then. Labels
with slashes between them lead to the first child with the label at each level, if there is one. -/
theorem paths_compose :
    (∀ (n : Node) (p q : String), n.find? (p ++ "/" ++ q) = (n.find? p).bind (·.find? q)) ∧
    (∀ p q, SameButSlashes p q ↔ ∀ n : Node, n.find? p = n.find? q) ∧
    ∀ labels : List String, (∀ label ∈ labels, IsStep label) → ∀ n m : Node,
      n.find? ("/".intercalate labels) = some m ↔ LeadsTo n labels m := by
  refine ⟨find?_append,sameButSlashes_iff,fun labels h n m => ?_⟩
  rw [find?, steps_intercalate h]
  exact follow?_eq_some_iff

/-- Two ways down that begin with the same label. -/
def twins : Node := ⟨"root",none,none,none,none,[singleWay "a" ["b"],singleWay "a" ["c"]]⟩

/-- Only the first of them can be taken. -/
theorem paths_compose_twins :
    (∀ label ∈ ["a","b"], IsStep label) ∧ (∀ label ∈ ["a"], IsStep label) ∧
      twins.find? "/a//b" = some (singleWay "b" []) ∧ twins.find? "a/c" = none := by
  obtain ⟨hjoined,hslashes,hchain⟩ := paths_compose
  have hsteps : ∀ label ∈ ["a","b"], IsStep label := by decide
  have hstep : ∀ label ∈ ["a"], IsStep label := by decide
  have hfirst : ∀ {labels : List String} {m : Node}, LeadsTo (singleWay "a" ["b"]) labels m →
      LeadsTo twins ("a" :: labels) m :=
    .down (show twins.children = [] ++ singleWay "a" ["b"] :: [singleWay "a" ["c"]] from rfl) rfl nofun
  have hend : LeadsTo (singleWay "a" ["b"]) ["b"] (singleWay "b" []) :=
    .down (show _ = [] ++ singleWay "b" [] :: [] from rfl) rfl nofun (.here _)
  refine ⟨hsteps,hstep,?_,?_⟩
  · have hsame : SameButSlashes "a/b" "/a//b" :=
      .trans _ _ _ (.rel _ _ (.repeated "a" "b")) (.rel _ _ (.leading "a//b"))
    have hpath := (hslashes _ _).mp hsame twins
    exact hpath.symm.trans ((hchain ["a","b"] hsteps twins _).mpr (hfirst hend))
  · have hfound : twins.find? "a" = some (singleWay "a" ["b"]) :=
      (hchain ["a"] hstep twins _).mpr (hfirst (.here _))
    have hpath := hjoined twins "a" "c"
    rw [hfound, Option.bind_some] at hpath
    exact hpath

end ValueInspector.Node
