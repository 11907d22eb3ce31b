import ValueInspector.Options.Json
import ValueInspector.Proofs.Json.Records

/-! # Reading some of the options

Some names of the options are chosen, at every level, and given values. An object with these members, in
any order and among members of other names, is read over other options: it replaces the chosen ones.
-/
namespace ValueInspector
open Json

section Choices

/-- A choice among the settings of the demangling helper. -/
structure PartialDemangler where
  enabled : Option Bool
  program : Option String
  args : Option (List String)
  timeoutMs : Option UInt64

/-- A choice among the member names of standard types. -/
structure PartialLayout where
  variantField : Option String
  variantIndex : Option String
  pimplField : Option String
  pimplPointer : Option (List String)
  optionalEngaged : Option (List String)

/-- A choice among the options. The two groups may be chosen in part. -/
structure PartialOptions where
  maxDepth : Option UInt32
  maxChildren : Option UInt64
  expandPointers : Option UInt32
  maxTextLen : Option UInt64
  demangler : Option PartialDemangler
  layout : Option PartialLayout

/-- The chosen values, over options that keep all others. -/
def PartialDemangler.over (p : PartialDemangler) (o : DemanglerOptions) : DemanglerOptions where
  enabled := p.enabled.getD o.enabled
  program := p.program.getD o.program
  args := p.args.getD o.args
  timeoutMs := p.timeoutMs.getD o.timeoutMs

def PartialLayout.over (p : PartialLayout) (o : StandardLayout) : StandardLayout where
  variantField := p.variantField.getD o.variantField
  variantIndex := p.variantIndex.getD o.variantIndex
  pimplField := p.pimplField.getD o.pimplField
  pimplPointer := p.pimplPointer.getD o.pimplPointer
  optionalEngaged := p.optionalEngaged.getD o.optionalEngaged

def PartialOptions.over (p : PartialOptions) (o : InspectOptions) : InspectOptions where
  maxDepth := p.maxDepth.getD o.maxDepth
  maxChildren := p.maxChildren.getD o.maxChildren
  expandPointers := p.expandPointers.getD o.expandPointers
  maxTextLen := p.maxTextLen.getD o.maxTextLen
  demangler := (p.demangler.map (·.over o.demangler)).getD o.demangler
  layout := (p.layout.map (·.over o.layout)).getD o.layout

end Choices

section Forms

/-- The member of a name that is chosen, and none otherwise. -/
def chosen {α : Type} (name : String) (form : α → Form) (o : Option α) : List (String × Form) :=
  o.toList.map fun a => (name,form a)

def StringsForm (texts : List String) : Form := ListForm (texts.map StringForm)

def demanglerNames : List String := ["enabled","program","args","timeout_ms"]

def layoutNames : List String :=
  ["variant_field","variant_index","pimpl_field","pimpl_pointer","optional_engaged"]

def optionNames : List String :=
  ["max_depth","max_children","expand_pointers","max_text_len","demangler","layout"]

def PartialDemangler.members (p : PartialDemangler) : List (String × Form) :=
  [chosen "enabled" BoolForm p.enabled, chosen "program" StringForm p.program,
    chosen "args" StringsForm p.args, chosen "timeout_ms" (fun n => NatForm n.toNat) p.timeoutMs].flatten

def PartialDemangler.form (p : PartialDemangler) : Form := OpenForm demanglerNames p.members

def PartialLayout.members (p : PartialLayout) : List (String × Form) :=
  [chosen "variant_field" StringForm p.variantField, chosen "variant_index" StringForm p.variantIndex,
    chosen "pimpl_field" StringForm p.pimplField, chosen "pimpl_pointer" StringsForm p.pimplPointer,
    chosen "optional_engaged" StringsForm p.optionalEngaged].flatten

def PartialLayout.form (p : PartialLayout) : Form := OpenForm layoutNames p.members

def PartialOptions.members (p : PartialOptions) : List (String × Form) :=
  [chosen "max_depth" (fun n => NatForm n.toNat) p.maxDepth,
    chosen "max_children" (fun n => NatForm n.toNat) p.maxChildren,
    chosen "expand_pointers" (fun n => NatForm n.toNat) p.expandPointers,
    chosen "max_text_len" (fun n => NatForm n.toNat) p.maxTextLen,
    chosen "demangler" PartialDemangler.form p.demangler,
    chosen "layout" PartialLayout.form p.layout].flatten

/-- The objects with the chosen names and their values, in any order and among any other members. -/
def PartialOptions.form (p : PartialOptions) : Form := OpenForm optionNames p.members

end Forms

section Readers
variable {σ α : Type} {fields : List (RecordField σ)} {us : List (σ → σ)} {update : α → σ → σ}

/-- A field that holds a word is given by the digits of the word. -/
theorem field_reads_word32 (n : UInt32) (name : String) (store : UInt32 → σ → σ) :
    (field name (readBelow UInt32.size) fun k => store (UInt32.ofNat k)).read.Reads
      (NatForm n.toNat) (store n) := by
  have hread := field_reads (readBelow_reads n.toNat_lt_size (by decide)) name fun k =>
    store (UInt32.ofNat k)
  rwa [UInt32.ofNat_toNat] at hread

theorem field_reads_word64 (n : UInt64) (name : String) (store : UInt64 → σ → σ) :
    (field name (readBelow UInt64.size) fun k => store (UInt64.ofNat k)).read.Reads
      (NatForm n.toNat) (store n) := by
  have hread := field_reads (readBelow_reads n.toNat_lt_size (Nat.le_refl _)) name fun k =>
    store (UInt64.ofNat k)
  rwa [UInt64.ofNat_toNat] at hread

theorem stringsForm_le_value (texts : List String) : StringsForm texts ≤ Value :=
  listForm_le_value (map_le_value stringForm_le_value texts)

theorem readStrings_reads (texts : List String) :
    (readList readString).Reads (StringsForm texts) texts :=
  readList_reads readString_reads stringForm_le_value texts

theorem forall₂_chosen {name : String} {form : α → Form}
    (h : ∀ a, Gives fields (name,form a) (update a)) (o : Option α) :
    List.Forall₂ (Gives fields) (chosen name form o) (o.toList.map update) := by
  cases o with
  | none => exact .nil
  | some a => exact .cons (h a) .nil

theorem names_chosen_sublist (name : String) (form : α → Form) (o : Option α) :
    ((chosen name form o).map (·.1)).Sublist [name] := by
  cases o with
  | none => exact List.nil_sublist _
  | some a => exact List.Sublist.refl _

/-- No name is chosen twice. -/
theorem nodup_names_flatten {mss : List (List (String × Form))} {names : List String}
    (h : List.Forall₂ (fun ms name => (ms.map (·.1)).Sublist [name]) mss names) (hnames : names.Nodup) :
    (mss.flatten.map (·.1)).Nodup := by
  have hsublist : (mss.flatten.map (·.1)).Sublist names := by
    clear hnames
    induction h with
    | nil => exact List.Sublist.refl _
    | @cons ms name _ _ hms _ ih =>
      rw [List.flatten_cons, List.map_append, ← List.singleton_append]
      exact hms.append ih
  exact hsublist.nodup hnames

/-- Storing a value that may be given, over a record that keeps what it has otherwise. -/
theorem foldl_toList_map (get : σ → α) (store : α → σ → σ) (hstore : ∀ r, store (get r) r = r)
    (o : Option α) (r : σ) :
    (o.toList.map store).foldl (fun r u => u r) r = store (o.getD (get r)) r := by
  cases o with
  | none => exact (hstore r).symm
  | some a => rfl

theorem pairwise_toList_map {R : (σ → σ) → (σ → σ) → Prop} (o : Option α) :
    (o.toList.map update).Pairwise R := by
  cases o with
  | none => exact .nil
  | some a => exact List.pairwise_singleton _ _

/-- Updates of two fields commute, where they are given. -/
theorem commute_toList_map {β : Type} {other : β → σ → σ}
    (h : ∀ a b, Function.Commute (update a) (other b)) (o : Option α) (o' : Option β) :
    ∀ u ∈ o.toList.map update, ∀ v ∈ o'.toList.map other, Function.Commute u v := by
  intro u hu v hv
  obtain ⟨a,-,rfl⟩ := List.mem_map.mp hu
  obtain ⟨b,-,rfl⟩ := List.mem_map.mp hv
  exact h a b

end Readers

section Demangler

def PartialDemangler.updates (p : PartialDemangler) : List (List (DemanglerOptions → DemanglerOptions)) :=
  [p.enabled.toList.map fun enabled o => { o with enabled },
    p.program.toList.map fun program o => { o with program },
    p.args.toList.map fun args o => { o with args },
    p.timeoutMs.toList.map fun timeoutMs o => { o with timeoutMs }]

theorem PartialDemangler.gives (p : PartialDemangler) :
    List.Forall₂ (Gives DemanglerOptions.fields) p.members p.updates.flatten := by
  refine List.rel_flatten (.cons (forall₂_chosen (fun b => ?_) _) (.cons (forall₂_chosen (fun s => ?_) _)
    (.cons (forall₂_chosen (fun texts => ?_) _) (.cons (forall₂_chosen (fun n => ?_) _) .nil))))
  · exact .known (boolForm_le_value b) rfl (field_reads (readBool_reads b) _ _)
  · exact .known (stringForm_le_value s) rfl (field_reads (readString_reads s) _ _)
  · exact .known (stringsForm_le_value texts) rfl (field_reads (readStrings_reads texts) _ _)
  · exact .known (natForm_le_value n.toNat) rfl (field_reads_word64 n "timeout_ms"
      fun timeoutMs (o : DemanglerOptions) => { o with timeoutMs })

theorem PartialDemangler.foldl_updates (p : PartialDemangler) (o : DemanglerOptions) :
    p.updates.flatten.foldl (fun r u => u r) o = p.over o := by
  simp only [updates, List.foldl_flatten, List.foldl_cons, List.foldl_nil]
  rw [foldl_toList_map DemanglerOptions.enabled (fun enabled o => { o with enabled }) fun _ => rfl,
    foldl_toList_map DemanglerOptions.program (fun program o => { o with program }) fun _ => rfl,
    foldl_toList_map DemanglerOptions.args (fun args o => { o with args }) fun _ => rfl,
    foldl_toList_map DemanglerOptions.timeoutMs (fun timeoutMs o => { o with timeoutMs }) fun _ => rfl]
  rfl

theorem PartialDemangler.commute (p : PartialDemangler) : p.updates.flatten.Pairwise Function.Commute := by
  refine List.pairwise_flatten.mpr ⟨?_,?_⟩
  · simp [updates, pairwise_toList_map]
  · simp only [updates, List.pairwise_cons, List.forall_mem_cons]
    refine ⟨⟨?_,?_,?_,nofun⟩,⟨?_,?_,nofun⟩,⟨?_,nofun⟩,nofun,.nil⟩ <;>
      exact commute_toList_map (by exact fun _ _ _ => rfl) _ _

theorem PartialDemangler.nodup_names (p : PartialDemangler) : (p.members.map (·.1)).Nodup :=
  nodup_names_flatten (.cons (names_chosen_sublist _ _ _) (.cons (names_chosen_sublist _ _ _)
    (.cons (names_chosen_sublist _ _ _) (.cons (names_chosen_sublist _ _ _) .nil))))
    (by decide : demanglerNames.Nodup)

/-- The settings of the helper are read over others. -/
theorem PartialDemangler.reads (p : PartialDemangler) (o : DemanglerOptions) :
    (readRecord DemanglerOptions.fields o).Reads p.form (p.over o) :=
  p.foldl_updates o ▸ readRecord_reads_open p.gives p.nodup_names p.commute o

end Demangler

section Layout

def PartialLayout.updates (p : PartialLayout) : List (List (StandardLayout → StandardLayout)) :=
  [p.variantField.toList.map fun variantField o => { o with variantField },
    p.variantIndex.toList.map fun variantIndex o => { o with variantIndex },
    p.pimplField.toList.map fun pimplField o => { o with pimplField },
    p.pimplPointer.toList.map fun pimplPointer o => { o with pimplPointer },
    p.optionalEngaged.toList.map fun optionalEngaged o => { o with optionalEngaged }]

theorem PartialLayout.gives (p : PartialLayout) :
    List.Forall₂ (Gives StandardLayout.fields) p.members p.updates.flatten := by
  refine List.rel_flatten (.cons (forall₂_chosen (fun s => ?_) _) (.cons (forall₂_chosen (fun s => ?_) _)
    (.cons (forall₂_chosen (fun s => ?_) _) (.cons (forall₂_chosen (fun texts => ?_) _)
      (.cons (forall₂_chosen (fun texts => ?_) _) .nil)))))
  · exact .known (stringForm_le_value s) rfl (field_reads (readString_reads s) _ _)
  · exact .known (stringForm_le_value s) rfl (field_reads (readString_reads s) _ _)
  · exact .known (stringForm_le_value s) rfl (field_reads (readString_reads s) _ _)
  · exact .known (stringsForm_le_value texts) rfl (field_reads (readStrings_reads texts) _ _)
  · exact .known (stringsForm_le_value texts) rfl (field_reads (readStrings_reads texts) _ _)

theorem PartialLayout.foldl_updates (p : PartialLayout) (o : StandardLayout) :
    p.updates.flatten.foldl (fun r u => u r) o = p.over o := by
  simp only [updates, List.foldl_flatten, List.foldl_cons, List.foldl_nil]
  rw [foldl_toList_map StandardLayout.variantField (fun variantField o => { o with variantField }) fun _ => rfl,
    foldl_toList_map StandardLayout.variantIndex (fun variantIndex o => { o with variantIndex }) fun _ => rfl,
    foldl_toList_map StandardLayout.pimplField (fun pimplField o => { o with pimplField }) fun _ => rfl,
    foldl_toList_map StandardLayout.pimplPointer (fun pimplPointer o => { o with pimplPointer }) fun _ => rfl,
    foldl_toList_map StandardLayout.optionalEngaged (fun optionalEngaged o => { o with optionalEngaged })
      fun _ => rfl]
  rfl

theorem PartialLayout.commute (p : PartialLayout) : p.updates.flatten.Pairwise Function.Commute := by
  refine List.pairwise_flatten.mpr ⟨?_,?_⟩
  · simp [updates, pairwise_toList_map]
  · simp only [updates, List.pairwise_cons, List.forall_mem_cons]
    refine ⟨⟨?_,?_,?_,?_,nofun⟩,⟨?_,?_,?_,nofun⟩,⟨?_,?_,nofun⟩,⟨?_,nofun⟩,nofun,.nil⟩ <;>
      exact commute_toList_map (by exact fun _ _ _ => rfl) _ _

theorem PartialLayout.nodup_names (p : PartialLayout) : (p.members.map (·.1)).Nodup :=
  nodup_names_flatten (.cons (names_chosen_sublist _ _ _) (.cons (names_chosen_sublist _ _ _)
    (.cons (names_chosen_sublist _ _ _) (.cons (names_chosen_sublist _ _ _)
      (.cons (names_chosen_sublist _ _ _) .nil))))) (by decide : layoutNames.Nodup)

/-- The names of the layout are read over others. -/
theorem PartialLayout.reads (p : PartialLayout) (o : StandardLayout) :
    (readRecord StandardLayout.fields o).Reads p.form (p.over o) :=
  p.foldl_updates o ▸ readRecord_reads_open p.gives p.nodup_names p.commute o

end Layout

section Options

/-- A group that is given replaces the group of the standard options, over which it was read. -/
def PartialOptions.updates (p : PartialOptions) : List (List (InspectOptions → InspectOptions)) :=
  [p.maxDepth.toList.map fun maxDepth o => { o with maxDepth },
    p.maxChildren.toList.map fun maxChildren o => { o with maxChildren },
    p.expandPointers.toList.map fun expandPointers o => { o with expandPointers },
    p.maxTextLen.toList.map fun maxTextLen o => { o with maxTextLen },
    p.demangler.toList.map fun demangler o => { o with demangler := demangler.over .standard },
    p.layout.toList.map fun layout o => { o with layout := layout.over .standard }]

theorem PartialOptions.gives (p : PartialOptions) :
    List.Forall₂ (Gives InspectOptions.fields) p.members p.updates.flatten := by
  refine List.rel_flatten (.cons (forall₂_chosen (fun n => ?_) _) (.cons (forall₂_chosen (fun n => ?_) _)
    (.cons (forall₂_chosen (fun n => ?_) _) (.cons (forall₂_chosen (fun n => ?_) _)
      (.cons (forall₂_chosen (fun d => ?_) _) (.cons (forall₂_chosen (fun l => ?_) _) .nil))))))
  · exact .known (natForm_le_value n.toNat) rfl (field_reads_word32 n "max_depth"
      fun maxDepth (o : InspectOptions) => { o with maxDepth })
  · exact .known (natForm_le_value n.toNat) rfl (field_reads_word64 n "max_children"
      fun maxChildren (o : InspectOptions) => { o with maxChildren })
  · exact .known (natForm_le_value n.toNat) rfl (field_reads_word32 n "expand_pointers"
      fun expandPointers (o : InspectOptions) => { o with expandPointers })
  · exact .known (natForm_le_value n.toNat) rfl (field_reads_word64 n "max_text_len"
      fun maxTextLen (o : InspectOptions) => { o with maxTextLen })
  · exact .known (openForm_le_value d.gives) rfl (field_reads (d.reads .standard) _ _)
  · exact .known (openForm_le_value l.gives) rfl (field_reads (l.reads .standard) _ _)

theorem PartialOptions.foldl_updates (p : PartialOptions) :
    p.updates.flatten.foldl (fun r u => u r) .standard = p.over .standard := by
  obtain ⟨maxDepth,maxChildren,expandPointers,maxTextLen,demangler,layout⟩ := p
  simp only [updates, List.foldl_flatten, List.foldl_cons, List.foldl_nil]
  rw [foldl_toList_map InspectOptions.maxDepth (fun maxDepth o => { o with maxDepth }) fun _ => rfl,
    foldl_toList_map InspectOptions.maxChildren (fun maxChildren o => { o with maxChildren }) fun _ => rfl,
    foldl_toList_map InspectOptions.expandPointers (fun expandPointers o => { o with expandPointers })
      fun _ => rfl,
    foldl_toList_map InspectOptions.maxTextLen (fun maxTextLen o => { o with maxTextLen }) fun _ => rfl]
  cases demangler <;> cases layout <;> rfl

theorem PartialOptions.commute (p : PartialOptions) : p.updates.flatten.Pairwise Function.Commute := by
  refine List.pairwise_flatten.mpr ⟨?_,?_⟩
  · simp [updates, pairwise_toList_map]
  · simp only [updates, List.pairwise_cons, List.forall_mem_cons]
    refine ⟨⟨?_,?_,?_,?_,?_,nofun⟩,⟨?_,?_,?_,?_,nofun⟩,⟨?_,?_,?_,nofun⟩,⟨?_,?_,nofun⟩,⟨?_,nofun⟩,nofun,.nil⟩ <;>
      exact commute_toList_map (by exact fun _ _ _ => rfl) _ _

theorem PartialOptions.nodup_names (p : PartialOptions) : (p.members.map (·.1)).Nodup :=
  nodup_names_flatten (.cons (names_chosen_sublist _ _ _) (.cons (names_chosen_sublist _ _ _)
    (.cons (names_chosen_sublist _ _ _) (.cons (names_chosen_sublist _ _ _)
      (.cons (names_chosen_sublist _ _ _) (.cons (names_chosen_sublist _ _ _) .nil))))))
    (by decide : optionNames.Nodup)

/-- The options are read over the standard ones. -/
theorem PartialOptions.reads (p : PartialOptions) :
    (readRecord InspectOptions.fields .standard).Reads p.form (p.over .standard) :=
  p.foldl_updates ▸ readRecord_reads_open p.gives p.nodup_names p.commute .standard

end Options
end ValueInspector
