import ValueInspector.Proofs.Json.Rendering
import ValueInspector.Proofs.Options.Partial

/-! # Options over the standard ones

The text of an object with some of the known names gives the standard options with the chosen values in
their places. A known name that is given twice, at any level, is an error, whatever else the text holds.
-/
namespace ValueInspector
open Json

section Repetition

/-- An object in which a known name stands twice, with any values. -/
def Repeating (known : List String) : Form := fun cs rest =>
  ∃ (names : List String) (n : String), n ∈ known ∧ 1 < names.count n ∧
    ObjectForm (names.map (·,Value)) cs rest

/-- A known name is repeated: one of the options, or one within a group. -/
inductive RepeatedName : Form
  | options {cs rest : List Char} (h : Repeating optionNames cs rest) : RepeatedName cs rest
  | demangler {before after : List String} {cs rest : List Char}
    (h : ObjectForm (before.map (·,Value) ++ ("demangler",Repeating demanglerNames) ::
      after.map (·,Value)) cs rest) : RepeatedName cs rest
  | layout {before after : List String} {cs rest : List Char}
    (h : ObjectForm (before.map (·,Value) ++ ("layout",Repeating layoutNames) ::
      after.map (·,Value)) cs rest) : RepeatedName cs rest

theorem field_refuses {σ α : Type} {reader : Reader α} {form : Form} (h : reader.Refuses form)
    (name : String) (store : α → σ → σ) : (field name reader store).read.Refuses form := by
  intro cs start stop hgap hform hstop
  obtain ⟨fault,hfault⟩ := h cs start stop hgap hform hstop
  refine ⟨fault,?_⟩
  dsimp only [field]
  rw [hfault]
  rfl

section Records
variable {σ : Type} {fields : List (RecordField σ)}

theorem forall_values (names : List String) : ∀ m ∈ names.map fun n => (n,Value), m.2 ≤ Value := by
  intro m hm
  obtain ⟨n,-,rfl⟩ := List.mem_map.mp hm
  exact fun _ _ h => h

theorem Repeating.le_value (known : List String) : Repeating known ≤ Value := by
  rintro cs rest ⟨names,n,-,-,hform⟩
  exact objectForm_le_value (forall_values names) cs rest hform

theorem not_nodup_knownNames {names : List String} {n : String} (hn : n ∈ fields.map (·.name))
    (hcount : 1 < names.count n) : ¬(knownNames fields (names.map (·,Value))).Nodup := by
  intro hnodup
  have hnames : (names.map (·,Value)).map (·.1) = names := by
    rw [List.map_map]
    exact List.map_id names
  rw [knownNames, hnames] at hnodup
  have hone := List.nodup_iff_count_le_one.mp hnodup n
  rw [List.count_filter (by simpa using hn)] at hone
  omega

/-- A record with a repeated known name is refused. -/
theorem readRecord_refuses_repeating (htakes : ∀ f ∈ fields, f.read.TakesValues) (defaults : σ) :
    (readRecord fields defaults).Refuses (Repeating (fields.map (·.name))) := by
  rintro cs start stop hgap ⟨names,n,hn,hcount,hform⟩ hstop
  refine readRecord_refuses (forall_values names) htakes (fun hnodup => ?_) defaults cs start stop hgap
    hform hstop
  exact absurd hnodup (not_nodup_knownNames hn hcount)

/-- A record is refused if the value of one of its members is, whatever the others are. -/
theorem readRecord_refuses_member (htakes : ∀ f ∈ fields, f.read.TakesValues) (defaults : σ)
    {name : String} {form : Form} {f : RecordField σ} (hfind : fields.find? (·.name = name) = some f)
    (hvalue : form ≤ Value) (hrefuses : f.read.Refuses form) (before after : List String) :
    (readRecord fields defaults).Refuses
      (ObjectForm (before.map (·,Value) ++ (name,form) :: after.map (·,Value))) := by
  refine readRecord_refuses (fun m hm => ?_) htakes (fun _ => ?_) defaults
  · rcases List.mem_append.mp hm with hm | hm
    · exact forall_values before m hm
    · rcases List.mem_cons.mp hm with rfl | hm
      · exact hvalue
      · exact forall_values after m hm
  · exact ⟨(name,form),List.mem_append_right _ List.mem_cons_self,f,hfind,hrefuses⟩

end Records

theorem DemanglerOptions.takesValues : ∀ f ∈ DemanglerOptions.fields, f.read.TakesValues := by
  simp only [fields, List.forall_mem_cons]
  refine ⟨?_,?_,?_,?_,nofun⟩
  · exact field_takesValues readBool_takesValues _ _
  · exact field_takesValues readString_takesValues _ _
  · exact field_takesValues (readList_takesValues readString_takesValues) _ _
  · exact field_takesValues (readBelow_takesValues _) _ _

theorem StandardLayout.takesValues : ∀ f ∈ StandardLayout.fields, f.read.TakesValues := by
  simp only [fields, List.forall_mem_cons]
  refine ⟨?_,?_,?_,?_,?_,nofun⟩
  · exact field_takesValues readString_takesValues _ _
  · exact field_takesValues readString_takesValues _ _
  · exact field_takesValues readString_takesValues _ _
  · exact field_takesValues (readList_takesValues readString_takesValues) _ _
  · exact field_takesValues (readList_takesValues readString_takesValues) _ _

theorem InspectOptions.takesValues : ∀ f ∈ InspectOptions.fields, f.read.TakesValues := by
  simp only [fields, List.forall_mem_cons]
  refine ⟨?_,?_,?_,?_,?_,?_,nofun⟩
  · exact field_takesValues (readBelow_takesValues _) _ _
  · exact field_takesValues (readBelow_takesValues _) _ _
  · exact field_takesValues (readBelow_takesValues _) _ _
  · exact field_takesValues (readBelow_takesValues _) _ _
  · exact field_takesValues (readRecord_takesValues DemanglerOptions.takesValues _) _ _
  · exact field_takesValues (readRecord_takesValues StandardLayout.takesValues _) _ _

theorem InspectOptions.refuses_repeatedName :
    (readRecord InspectOptions.fields .standard).Refuses RepeatedName := by
  intro cs start stop hgap hform hstop
  cases hform with
  | options h => exact readRecord_refuses_repeating takesValues _ cs start stop hgap h hstop
  | demangler h =>
    have hgroup := readRecord_refuses_repeating DemanglerOptions.takesValues .standard
    exact readRecord_refuses_member takesValues _ rfl (Repeating.le_value _) (field_refuses hgroup _ _)
      _ _ cs start stop hgap h hstop
  | layout h =>
    have hgroup := readRecord_refuses_repeating StandardLayout.takesValues .standard
    exact readRecord_refuses_member takesValues _ rfl (Repeating.le_value _) (field_refuses hgroup _ _)
      _ _ cs start stop hgap h hstop

end Repetition

/-- An object with some of the names gives the chosen values over the standard options, in any order of
the names, at every level and whatever else it holds. An object that repeats a known name, its own or one
of a group, gives an error of the options. -/
theorem ofText_overlays_standard :
    (∀ (p : PartialOptions) (s : String), p.form.Padded s.toList [] →
      InspectOptions.ofText s = .ok (p.over .standard)) ∧
    ∀ s : String, Form.Padded RepeatedName s.toList [] →
      ∃ fault, InspectOptions.ofText s = .error (.options fault) := by
  refine ⟨fun p s hs => ?_,fun s hs => ?_⟩
  · rw [InspectOptions.ofText, readAll_of_reads p.reads hs]
  · obtain ⟨fault,hfault⟩ := readAll_of_refuses InspectOptions.refuses_repeatedName hs
    exact ⟨fault,by rw [InspectOptions.ofText, hfault]⟩

/-- Some of the names among others, out of their order, and a name that is repeated in a group. -/
theorem ofText_overlays_standard_program :
    InspectOptions.ofText (text (.object [("extra",.null),
      ("demangler",.object [("program",.string "x")]),("max_depth",.nat 3)])) =
        .ok { InspectOptions.standard with
          maxDepth := 3, demangler := { DemanglerOptions.standard with program := "x" } } ∧
    ∃ fault, InspectOptions.ofText (text (.object
      [("demangler",.object [("args",.null),("args",.array [])])])) = .error (.options fault) := by
  let d : PartialDemangler := ⟨none,some "x",none,none⟩
  let p : PartialOptions := ⟨some 3,none,none,none,some d,none⟩
  have hd : d.form.Renders (.object [("program",.string "x")]) := fun rest =>
    ⟨[],_,nofun,.refl _,renders_object (.cons ⟨rfl,renders_string "x"⟩ .nil) rest⟩
  have hp : p.form.Renders (.object [("extra",.null),
      ("demangler",.object [("program",.string "x")]),("max_depth",.nat 3)]) := fun rest =>
    ⟨["extra"],_,by decide,List.reverse_perm _,renders_object (.cons ⟨rfl,fun _ => Value.null⟩
      (.cons ⟨rfl,hd⟩ (.cons ⟨rfl,renders_nat 3⟩ .nil))) rest⟩
  have hargs : (Repeating demanglerNames).Renders (.object [("args",.null),("args",.array [])]) :=
    fun rest => ⟨["args","args"],"args",by decide,by decide,renders_object
      (.cons ⟨rfl,fun _ => Value.null⟩ (.cons ⟨rfl,fun _ => Value.emptyArray .none⟩ .nil)) rest⟩
  have hrepeated : Form.Renders RepeatedName
      (.object [("demangler",.object [("args",.null),("args",.array [])])]) :=
    fun rest => @RepeatedName.demangler [] [] _ _ (renders_object (.cons ⟨rfl,hargs⟩ .nil) rest)
  obtain ⟨hover,herror⟩ := ofText_overlays_standard
  exact ⟨hover p _ hp.padded_text,herror _ hrepeated.padded_text⟩

end ValueInspector
