import Mathlib.Data.List.Nodup
import ValueInspector.Node.Json

/-! # The JSON of a display tree tells the tree

A node is read back from the members of its object, each by its name, and so the order of the members
has no influence as long as no two of them have one name. Read in this way the JSON of a tree gives the
tree, by recursion on its nodes. Hence no two trees have the same JSON, even if the order of members does
not count.
-/
namespace ValueInspector

section Lookup
variable {α : Type} {l l' : List (String × α)} (hnodup : (l.map (·.1)).Nodup)
include hnodup

theorem lookup_eq_some_iff_mem {name : String} {a : α} :
    l.lookup name = some a ↔ (name,a) ∈ l := by
  induction l with
  | nil => simp
  | cons m rest ih =>
    obtain ⟨key,b⟩ := m
    obtain ⟨hkey,hrest⟩ := List.nodup_cons.mp hnodup
    rw [List.lookup_cons, List.mem_cons, Prod.mk.injEq]
    by_cases hname : name = key
    · subst hname
      have hnew : (name,a) ∉ rest := fun h => hkey (List.mem_map_of_mem (f := (·.1)) h)
      simp [hnew, eq_comm]
    · have hbeq : (name == key) = false := beq_eq_false_iff_ne.mpr hname
      simp [hbeq, hname, ih hrest]

/-- Where all names are different, a permutation leaves what is found under each of them. -/
theorem lookup_eq_of_perm (h : l.Perm l') (name : String) : l.lookup name = l'.lookup name := by
  have hnodup' : (l'.map (·.1)).Nodup := (h.map _).nodup_iff.mp hnodup
  refine Option.ext fun a => ?_
  rw [lookup_eq_some_iff_mem hnodup, lookup_eq_some_iff_mem hnodup', h.mem_iff]

end Lookup

namespace Json

/-- One value is the other up to the order of members at any depth. Members may change places only where
no two of them have one name. -/
inductive Same : Json → Json → Prop
  | refl (v : Json) : Same v v
  | trans {u v w : Json} (h : Same u v) (h' : Same v w) : Same u w
  | item (before after : List Json) {v w : Json} (h : Same v w) :
      Same (.array (before ++ v :: after)) (.array (before ++ w :: after))
  | member (before after : List (String × Json)) (name : String) {v w : Json} (h : Same v w) :
      Same (.object (before ++ (name,v) :: after)) (.object (before ++ (name,w) :: after))
  | order {members members' : List (String × Json)} (hperm : members.Perm members')
      (hnodup : (members.map (·.1)).Nodup) : Same (.object members) (.object members')

def text? : Json → Option String
  | .string text => some text
  | _ => none

def numeral? : Json → Option JsonNumber
  | .number n => some n
  | _ => none

end Json

namespace Node

/-- The nodes of an array. -/
def nodes? : Json → Option (List Node)
  | .array items => allOfJson? items
  | _ => none

theorem readText?_eq (name : String) (members : List (String × Json)) :
    readText? name members = (members.lookup name).elim (some none) fun v => v.text?.map some := by
  rw [readText?]
  cases members.lookup name with
  | none => rfl
  | some v => cases v <;> rfl

theorem readTruncated?_eq (members : List (String × Json)) :
    readTruncated? members =
      (members.lookup "truncated").elim (some none) fun v => (Truncation.ofJson? v).map some := by
  rw [readTruncated?]
  cases members.lookup "truncated" <;> rfl

theorem childrenOfJson?_eq (members : List (String × Json)) :
    childrenOfJson? members = (members.lookup "children").elim (some []) nodes? := by
  induction members with
  | nil => rw [childrenOfJson?, List.lookup_nil, Option.elim_none]
  | cons m rest ih =>
    obtain ⟨name,v⟩ := m
    rw [List.lookup_cons]
    by_cases hname : name = "children"
    · subst hname
      cases v <;> simp [childrenOfJson?, nodes?]
    · have hbeq : ("children" == name) = false := beq_eq_false_iff_ne.mpr (Ne.symm hname)
      rw [hbeq]
      cases v <;> simp [childrenOfJson?, hname, ih]

end Node

/-- A count of children that are left out is the only member of an object. -/
theorem Truncation.ofJson?_object (members : List (String × Json)) :
    ofJson? (.object members) =
      match members with
      | [(name,v)] =>
        if name = "more_children" then (v.numeral?.bind (·.natural?)).map .moreChildren else none
      | _ => none := by
  match members with
  | [] => rfl
  | _ :: _ :: _ => simp [ofJson?]
  | [(name,v)] =>
    by_cases hname : name = "more_children"
    · subst hname
      cases v <;> rfl
    · unfold ofJson?
      cases v <;> simp [hname]

namespace Json

/-- All that is read of the two values is the same. -/
structure ReadAlike (v w : Json) : Prop where
  text : v.text? = w.text?
  numeral : v.numeral? = w.numeral?
  mark : Truncation.ofJson? v = Truncation.ofJson? w
  node : Node.ofJson? v = Node.ofJson? w
  nodes : Node.nodes? v = Node.nodes? w

theorem ReadAlike.refl (v : Json) : v.ReadAlike v := ⟨rfl,rfl,rfl,rfl,rfl⟩

theorem ReadAlike.elim_eq {α : Type} {missing : α} {read : Json → α} {found found' : Option Json}
    (h : Option.Rel ReadAlike found found') (hread : ∀ v w, v.ReadAlike w → read v = read w) :
    found.elim missing read = found'.elim missing read := by
  cases h with
  | none => rfl
  | some h => exact hread _ _ h

/-- Objects are read alike as nodes if their members are, name by name. -/
theorem ofJson?_object_congr {members members' : List (String × Json)}
    (h : ∀ name, Option.Rel ReadAlike (members.lookup name) (members'.lookup name)) :
    Node.ofJson? (.object members) = Node.ofJson? (.object members') := by
  have htext : ∀ name, Node.readText? name members = Node.readText? name members' := fun name => by
    rw [Node.readText?_eq, Node.readText?_eq]
    exact ReadAlike.elim_eq (h name) fun v w hv => by rw [hv.text]
  have hmark : Node.readTruncated? members = Node.readTruncated? members' := by
    rw [Node.readTruncated?_eq, Node.readTruncated?_eq]
    exact ReadAlike.elim_eq (h "truncated") fun v w hv => by rw [hv.mark]
  have hchildren : Node.childrenOfJson? members = Node.childrenOfJson? members' := by
    rw [Node.childrenOfJson?_eq, Node.childrenOfJson?_eq]
    exact ReadAlike.elim_eq (h "children") fun v w hv => hv.nodes
  rw [Node.ofJson?, Node.ofJson?, hmark, hchildren]
  simp only [htext]

theorem rel_lookup_member (before after : List (String × Json)) (name : String) {v w : Json}
    (h : v.ReadAlike w) (key : String) :
    Option.Rel ReadAlike ((before ++ (name,v) :: after).lookup key)
      ((before ++ (name,w) :: after).lookup key) := by
  have hrefl : ∀ found : Option Json, Option.Rel ReadAlike found found := fun found => by
    cases found with
    | none => exact .none
    | some u => exact .some (.refl u)
  rw [List.lookup_append, List.lookup_append]
  cases before.lookup key with
  | some u => exact hrefl _
  | none =>
    rw [Option.none_or, Option.none_or, List.lookup_cons, List.lookup_cons]
    cases key == name with
    | true => exact .some h
    | false => exact hrefl _

theorem allOfJson?_item (before after : List Json) {v w : Json}
    (h : Node.ofJson? v = Node.ofJson? w) :
    Node.allOfJson? (before ++ v :: after) = Node.allOfJson? (before ++ w :: after) := by
  induction before with
  | nil => rw [List.nil_append, List.nil_append, Node.allOfJson?, Node.allOfJson?, h]
  | cons u before ih =>
    rw [List.cons_append, List.cons_append, Node.allOfJson?, Node.allOfJson?, ih]

/-- The order of members has no influence on what is read. -/
theorem Same.readAlike {v w : Json} (h : v.Same w) : v.ReadAlike w := by
  induction h with
  | refl v => exact .refl v
  | trans _ _ ih ih' =>
    exact ⟨ih.text.trans ih'.text,ih.numeral.trans ih'.numeral,ih.mark.trans ih'.mark,
      ih.node.trans ih'.node,ih.nodes.trans ih'.nodes⟩
  | item before after _ ih => exact ⟨rfl,rfl,rfl,rfl,allOfJson?_item before after ih.node⟩
  | member before after name _ ih =>
    refine ⟨rfl,rfl,?_,ofJson?_object_congr (rel_lookup_member before after name ih),rfl⟩
    rw [Truncation.ofJson?_object, Truncation.ofJson?_object]
    match before, after with
    | [], [] => simp only [List.nil_append, ih.numeral]
    | [], _ :: _ => rfl
    | [_], _ => rfl
    | _ :: _ :: _, _ => rfl
  | @order members members' hperm hnodup =>
    refine ⟨rfl,rfl,?_,ofJson?_object_congr fun name => ?_,rfl⟩
    · rw [Truncation.ofJson?_object, Truncation.ofJson?_object]
      match members, members', hperm with
      | [], _, hperm => rw [← hperm.nil_eq]
      | [m], _, hperm => rw [List.perm_singleton.mp hperm.symm]
      | _ :: _ :: _, [], hperm => cases hperm.length_eq
      | _ :: _ :: _, [_], hperm => cases hperm.length_eq
      | _ :: _ :: _, _ :: _ :: _, _ => rfl
    · rw [lookup_eq_of_perm hnodup hperm]
      cases members'.lookup name with
      | none => exact .none
      | some v => exact .some (.refl v)

end Json

namespace Node

/-- The members of the object for a node. -/
def members (n : Node) : List (String × Json) :=
  ("label",.string n.label) :: textMember "type" n.typeName ++ textMember "summary" n.summary ++
    textMember "error" n.error ++ truncatedMember n.truncated ++
    childrenMember (allToJson n.children)

theorem toJson_eq (n : Node) : n.toJson = .object n.members := by
  cases n
  rw [toJson, members]

theorem names_textMember (name : String) (text : Option String) :
    ((textMember name text).map (·.1)).Sublist [name] := by
  cases text with
  | none => exact List.nil_sublist _
  | some text => exact List.Sublist.refl _

/-- The names of the members are different. -/
theorem nodup_members (n : Node) : (n.members.map (·.1)).Nodup := by
  have htruncated : ((truncatedMember n.truncated).map (·.1)).Sublist ["truncated"] := by
    cases n.truncated with
    | none => exact List.nil_sublist _
    | some t => exact List.Sublist.refl _
  have hchildren : ((childrenMember (allToJson n.children)).map (·.1)).Sublist ["children"] := by
    unfold childrenMember
    split
    · exact List.nil_sublist _
    · exact List.Sublist.refl _
  have hnames : (n.members.map (·.1)).Sublist
      (["label"] ++ ["type"] ++ ["summary"] ++ ["error"] ++ ["truncated"] ++ ["children"]) := by
    simp only [members, List.map_append, List.map_cons]
    exact (((((List.Sublist.refl ["label"]).append (names_textMember _ _)).append
      (names_textMember _ _)).append (names_textMember _ _)).append htruncated).append hchildren
  exact hnames.nodup (by decide)

theorem lookup_single (key name : String) (v : Json) :
    [(name,v)].lookup key = if key = name then some v else none := by
  rw [List.lookup_cons, List.lookup_nil]
  by_cases h : key = name
  · rw [if_pos h, beq_iff_eq.mpr h]
  · rw [if_neg h, beq_eq_false_iff_ne.mpr h]

theorem lookup_textMember (key name : String) (text : Option String) :
    (textMember name text).lookup key = if key = name then text.map .string else none := by
  cases text with
  | none => exact (ite_self none).symm
  | some text => exact lookup_single key name (.string text)

theorem lookup_truncatedMember (key : String) (t : Option Truncation) :
    (truncatedMember t).lookup key = if key = "truncated" then t.map (·.toJson) else none := by
  cases t with
  | none => exact (ite_self none).symm
  | some t => exact lookup_single key "truncated" t.toJson

theorem lookup_childrenMember (key : String) (items : List Json) :
    (childrenMember items).lookup key =
      if key = "children" then if items = [] then none else some (.array items) else none := by
  cases items with
  | nil => exact (ite_self none).symm
  | cons v rest => exact lookup_single key "children" (.array (v :: rest))

/-- What stands under each name. -/
theorem lookup_members (n : Node) (key : String) :
    n.members.lookup key =
      if key = "label" then some (.string n.label)
      else if key = "type" then n.typeName.map .string
      else if key = "summary" then n.summary.map .string
      else if key = "error" then n.error.map .string
      else if key = "truncated" then n.truncated.map (·.toJson)
      else if key = "children" then
        if allToJson n.children = [] then none else some (.array (allToJson n.children))
      else none := by
  have hlabel : ∀ rest : List (String × Json), (("label",.string n.label) :: rest).lookup key =
      if key = "label" then some (.string n.label) else rest.lookup key := fun rest => by
    rw [List.lookup_cons]
    by_cases h : key = "label"
    · rw [if_pos h, beq_iff_eq.mpr h]
    · rw [if_neg h, beq_eq_false_iff_ne.mpr h]
  simp only [members, List.cons_append, hlabel, List.lookup_append, lookup_textMember,
    lookup_truncatedMember, lookup_childrenMember]
  grind

theorem readText?_of_lookup {name : String} {members : List (String × Json)} {t : Option String}
    (h : members.lookup name = t.map .string) : readText? name members = some t := by
  rw [readText?_eq, h]
  cases t <;> rfl

theorem readTruncated?_of_lookup {members : List (String × Json)} {t : Option Truncation}
    (h : members.lookup "truncated" = t.map (·.toJson)) : readTruncated? members = some t := by
  rw [readTruncated?_eq, h]
  cases t with
  | none => rfl
  | some t => cases t <;> rfl

theorem childrenOfJson?_of_lookup {members : List (String × Json)} {children : List Node}
    (h : members.lookup "children" =
      if allToJson children = [] then none else some (.array (allToJson children)))
    (hread : allOfJson? (allToJson children) = some children) :
    childrenOfJson? members = some children := by
  rw [childrenOfJson?_eq, h]
  cases children with
  | nil => rw [if_pos allToJson.eq_1, Option.elim_none]
  | cons c rest =>
    have hsome : allToJson (c :: rest) ≠ [] := by
      rw [allToJson]
      exact List.cons_ne_nil _ _
    rw [if_neg hsome]
    exact hread

mutual

/-- A node is read back from its object. -/
theorem ofJson?_toJson : ∀ n : Node, ofJson? n.toJson = some n
  | ⟨label,typeName,summary,error,truncated,children⟩ => by
    have hfound := lookup_members ⟨label,typeName,summary,error,truncated,children⟩
    have hlabel := readText?_of_lookup (t := some label) (hfound "label")
    have htype := readText?_of_lookup (t := typeName) (hfound "type")
    have hsummary := readText?_of_lookup (t := summary) (hfound "summary")
    have herror := readText?_of_lookup (t := error) (hfound "error")
    have hmark := readTruncated?_of_lookup (t := truncated) (hfound "truncated")
    have hchildren := childrenOfJson?_of_lookup (hfound "children") (allOfJson?_allToJson children)
    rw [toJson_eq, ofJson?, hlabel, htype, hsummary, herror, hmark, hchildren]
    rfl

theorem allOfJson?_allToJson : ∀ l : List Node, allOfJson? (allToJson l) = some l
  | [] => by rw [allToJson, allOfJson?]
  | n :: rest => by
    rw [allToJson, allOfJson?, ofJson?_toJson n, allOfJson?_allToJson rest]
    rfl

end

/-- The JSON of a tree is an object with different names, and the tree is read back from it, even with
its members in another order. So no other tree has the same JSON. -/
theorem toJson_loses_nothing (n : Node) :
    (∃ members, n.toJson = .object members ∧ (members.map (·.1)).Nodup) ∧
    (∀ v : Json, v.Same n.toJson → ofJson? v = some n) ∧
    ∀ n' : Node, n'.toJson.Same n.toJson → n' = n := by
  have hread : ∀ v : Json, v.Same n.toJson → ofJson? v = some n := fun v h =>
    h.readAlike.node.trans (ofJson?_toJson n)
  refine ⟨⟨n.members,n.toJson_eq,n.nodup_members⟩,hread,fun n' h => ?_⟩
  exact Option.some.inj ((ofJson?_toJson n').symm.trans (hread n'.toJson h))

/-- A node with children left out, and one that could not be read. -/
def cutShort : Node :=
  ⟨"root",none,none,none,some (.moreChildren 2),[⟨"x",none,none,some "unreadable",none,[]⟩]⟩

/-- It is read from an object whose members are in alphabetical order. -/
theorem toJson_loses_nothing_cutShort :
    ofJson? (.object
      [("children",.array [.object [("error",.string "unreadable"),("label",.string "x")]]),
        ("label",.string "root"),("truncated",.object [("more_children",.nat 2)])]) =
      some cutShort := by
  refine (toJson_loses_nothing cutShort).2.1 _ ?_
  have hchild : Json.Same (.object [("error",.string "unreadable"),("label",.string "x")])
      (.object [("label",.string "x"),("error",.string "unreadable")]) :=
    .order (.swap _ _ _) (by decide)
  exact (Json.Same.order (List.perm_append_comm : ([_] ++ _).Perm _) (by decide)).trans
    (.member [_,_] [] "children" (.item [] [] hchild))

end Node

end ValueInspector
