import ValueInspector.Proofs.Inspector.Consultations
import ValueInspector.Proofs.Inspector.Shape
import ValueInspector.Proofs.Inspector.Texts
import ValueInspector.Proofs.Printer.Unions
import ValueInspector.Proofs.Registry.Registration
import ValueInspector.Proofs.Snapshot.Spelling

/-! # Unions in display trees

A value with a printer that never fails has no error of its own, wherever it stands in a tree. In the
standard registry the unions have such printers. So a general value always shows a tag and one child,
and in a snapshot the tag and the child agree.
-/
namespace ValueInspector

namespace Registry

/-- The names of the unions in the standard object model. -/
def unionNames : List String := ["complate::Value","complate::Number","complate::String"]

theorem not_endsInStar_of_mem_unionNames : ∀ name ∈ unionNames, ¬EndsInStar name := by decide

/-- The printers of unions never fail. -/
theorem exists_neverFails_of_mem_unionNames {ty : TypeDesc} (hv : ty.isPointer = false)
    (hname : ty.base ∈ unionNames) :
    ∃ printer, standard.lookup ty = some printer ∧ printer.NeverFails := by
  obtain ⟨hvalue,hnumber,htext⟩ := lookup_standard_union hv
  simp only [unionNames, List.mem_cons, List.not_mem_nil, or_false] at hname
  rcases hname with h | h | h
  · exact ⟨_,hvalue h,Printer.neverFails_value⟩
  · exact ⟨_,hnumber h,Printer.neverFails_leafUnion NumberAlternative⟩
  · exact ⟨_,htext h,Printer.neverFails_leafUnion TextAlternative⟩

end Registry

namespace Inspector

/-- A value with a printer that never fails. -/
def Unfailing (i : Inspector) (v : RawValue) : Prop :=
  ∃ printer, i.registry.lookup v.ty = some printer ∧ printer.NeverFails

section Unfailing
variable {i : Inspector} {v : RawValue}

theorem Unfailing.isPointer (h : i.Unfailing v) : v.ty.isPointer = false := by
  obtain ⟨printer,hprinter,_⟩ := h
  cases hpointer : v.ty.isPointer with
  | false => rfl
  | true =>
    rw [Registry.lookup, if_pos hpointer] at hprinter
    cases hprinter

theorem Unfailing.always_summarize (h : i.Unfailing v) :
    (i.summarize v).run.Always fun r => ∃ said, r = .ok said := by
  obtain ⟨printer,hprinter,hnever⟩ := h
  rw [summarize, hprinter]
  exact hnever.summary i.options.layout v

theorem Unfailing.always_children (h : i.Unfailing v) :
    (i.children v).run.Always fun r => ∃ cs, r = .ok cs := by
  obtain ⟨printer,hprinter,hnever⟩ := h
  rw [children, hprinter]
  exact hnever.children i.options.layout v

/-- With a printer that never fails, neither the summary nor the children of a value are an error. -/
theorem settles_unfailing (i : Inspector) (v : RawValue) :
    i.Settles (fun w _ error => i.Unfailing w → error = none) v := by
  by_cases h : i.Unfailing v
  · exact
      { failed := h.always_summarize.mono fun r ⟨said,hsaid⟩ e he => by
          cases hsaid.symm.trans he
        shown := (Query.always_true _).mono fun _ _ _ _ _ => rfl
        lost := fun hpointer => absurd (h.isPointer.symm.trans hpointer) Bool.false_ne_true
        childless := fun _ => h.always_children.mono fun r ⟨cs,hcs⟩ e he => by
          cases hcs.symm.trans he }
  · exact
      { failed := (Query.always_true _).mono fun _ _ _ _ hv => absurd hv h
        shown := (Query.always_true _).mono fun _ _ _ _ hv => absurd hv h
        lost := fun _ _ _ hv => absurd hv h
        childless := fun _ => (Query.always_true _).mono fun _ _ _ _ _ hv => absurd hv h }

end Unfailing

/-- Nowhere in a tree with the standard printers does a union show an error. -/
theorem inspect_unions_unfailing (options : InspectOptions) (label : String) (v : RawValue) :
    (inspect ⟨.standard,options⟩ label v).Always fun root => root.toNode.All fun n =>
      ∀ name ∈ Registry.unionNames, n.typeName = some name → n.error = none := by
  refine (inspect_accounts (settles_unfailing ⟨.standard,options⟩) label v).mono fun root hroot => ?_
  refine Survey.all_toNode_iff.mpr (hroot.mono fun t ht name hname htype => ?_)
  rw [Survey.typeName_toNode] at htype
  obtain ⟨w,hw,hspelling⟩ := Option.map_eq_some_iff.mp htype
  obtain ⟨hv,hbase⟩ := (TypeDesc.spelling_eq_iff
    (Registry.not_endsInStar_of_mem_unionNames name hname)).mp hspelling
  have hunion := Registry.exists_neverFails_of_mem_unionNames hv (hbase ▸ hname)
  rw [Survey.error_toNode, ht.value w hw hunion]
  rfl

/-- A general value has a summary and exactly one child, whatever the answers. In a snapshot that a
builder made the summary names an alternative if the child has a value, which is then the storage of the
wrapper; and it says that there is no interpretation if not. If there are no more names than ids, the type
of the child has that name. So nowhere in a tree does a union show an error, whatever the answers. -/
theorem general_values_agree :
    (∀ layout v,
      ((Printer.value.summary layout v).run.Always fun r => ∃ text, r = .ok (some text)) ∧
      (Printer.value.children layout v).run.Always fun r =>
        ∃ contained, r = .ok [⟨"[contained value]",contained⟩]) ∧
    (∀ steps demangler m layout v,
      let s := (Construction.ofSteps steps).builder.snapshot
      let said := ((Printer.value.summary layout v).run.run ⟨s.oracle,demangler⟩ m).1
      let listed := ((Printer.value.children layout v).run.run ⟨s.oracle,demangler⟩ m).1
      ∃ contained, listed = .ok [⟨"[contained value]",contained⟩] ∧
        (∀ w, contained = some w → ∃ (a : ValueAlternative) (storage : RawValue),
          said = .ok (some ("\x7b" ++ Alternatives.typeName a ++ "\x7d")) ∧
            s.HasMember v layout.variantField storage ∧ w.address = storage.address) ∧
        (said = .ok (some "<no interpretation>") ↔ contained = none) ∧
        (s.IdsSuffice →
          (∀ name, said = .ok (some ("\x7b" ++ name ++ "\x7d")) ↔
            (∃ a : ValueAlternative, name = Alternatives.typeName a) ∧
              ∃ storage w, s.HasMember v layout.variantField storage ∧ contained = some w ∧
                w.address = storage.address ∧ w.typeName = name) ∧
          ∀ w, contained = some w → said = .ok (some ("\x7b" ++ w.typeName ++ "\x7d")))) ∧
    ∀ options label v,
      (inspect ⟨.standard,options⟩ label v).Always fun root => root.toNode.All fun n =>
        n.typeName = some "complate::Value" ∨ n.typeName = some "complate::Number" ∨
          n.typeName = some "complate::String" → n.error = none := by
  refine ⟨fun layout v => ⟨Printer.always_summary_value layout v,
    Printer.always_children_value layout v⟩,?_,?_⟩
  · intro steps demangler m layout v s
    obtain ⟨active,hactive,hsaid,hlisted⟩ := Printer.run_value s demangler m layout v
    -- the child of an active member stands where the storage does
    have hstorage : ∀ a ∈ active, ∃ storage, s.HasMember v layout.variantField storage ∧
        a.value.address = storage.address := by
      intro a ha
      obtain ⟨storage,_,⟨_,hstorage,_⟩,_,_,_,_,_,_,_,hvalue⟩ := (hactive a).mp ha
      exact ⟨storage,hstorage,by rw [hvalue]⟩
    dsimp only
    rw [hsaid, hlisted]
    refine ⟨active.map (·.value),rfl,fun w hw => ?_,?_,fun hids => ⟨fun name => ?_,fun w hw => ?_⟩⟩
    · obtain ⟨a,ha,rfl⟩ := Option.map_eq_some_iff.mp hw
      obtain ⟨storage,hmember,haddress⟩ := hstorage a ha
      refine ⟨a.alternative,storage,?_,hmember,haddress⟩
      rw [Except.ok.injEq, Option.some.injEq, Printer.tag_eq_braced_iff]
      exact ⟨a,ha,rfl⟩
    · rw [Except.ok.injEq, Option.some.injEq, Option.map_eq_none_iff]
      exact Printer.tag_eq_noInterpretation_iff
    · rw [Except.ok.injEq, Option.some.injEq, Printer.tag_eq_braced_iff]
      constructor
      · rintro ⟨a,ha,rfl⟩
        obtain ⟨storage,hmember,haddress⟩ := hstorage a ha
        exact ⟨⟨_,rfl⟩,storage,a.value,hmember,Option.map_eq_some_iff.mpr ⟨a,ha,rfl⟩,haddress,
          ((hactive a).mp ha).typeName_value hids⟩
      · rintro ⟨-,storage,w,-,hw,-,hname⟩
        obtain ⟨a,ha,rfl⟩ := Option.map_eq_some_iff.mp hw
        exact ⟨a,ha,(((hactive a).mp ha).typeName_value hids).symm.trans hname⟩
    · obtain ⟨a,ha,rfl⟩ := Option.map_eq_some_iff.mp hw
      rw [Except.ok.injEq, Option.some.injEq, Printer.tag_eq_braced_iff]
      exact ⟨a,ha,(((hactive a).mp ha).typeName_value hids).symm⟩
  · intro options label v
    refine (inspect_unions_unfailing options label v).mono fun root hroot => ?_
    refine hroot.mono fun n hn htype => ?_
    rcases htype with h | h | h
    · exact hn _ (by decide) h
    · exact hn _ (by decide) h
    · exact hn _ (by decide) h

/-- A general value that holds a number whose types are missing. -/
def nestedUnionSteps : List BuilderStep :=
  [.type (.primitive "uint8_t" .u8),
    .type (.record "Storage" 9 [⟨"_M_index",8,.plain 0 "uint8_t"⟩]),
    .type (.record "complate::Number" 9 [⟨"m_data",0,.plain 1 "Storage"⟩]),
    .type (.record "complate::Value" 9 [⟨"m_data",0,.plain 1 "Storage"⟩]),
    .memory (.map 4096 #[0,0,0,0,0,0,0,0,3])]

/-- The tag names the type of the number that is listed, and the tree has no error at its root. -/
theorem general_values_agree_nested :
    let s := (Construction.ofSteps nestedUnionSteps).builder.snapshot
    let v : RawValue := ⟨4096,.plain 3 "complate::Value"⟩
    ((Printer.value.children .standard v).run.run ⟨s.oracle,none⟩ .fresh).1 =
        .ok [⟨"[contained value]",some ⟨4096,.plain 2 "complate::Number"⟩⟩] ∧
      ((Printer.value.summary .standard v).run.run ⟨s.oracle,none⟩ .fresh).1 =
        .ok (some "{complate::Number}") ∧
      (display ⟨.standard,.standard⟩ s.oracle .silent "value" v).error = none := by
  obtain ⟨-,hagree,herror⟩ := general_values_agree
  obtain ⟨contained,hlisted,-,-,hnamed⟩ := hagree nestedUnionSteps none .fresh .standard
    ⟨4096,.plain 3 "complate::Value"⟩
  obtain ⟨-,hsaid⟩ := hnamed (by decide +kernel)
  have hchild : ((Printer.value.children .standard ⟨4096,.plain 3 "complate::Value"⟩).run.run
      ⟨(Construction.ofSteps nestedUnionSteps).builder.snapshot.oracle,none⟩ .fresh).1 =
        .ok [⟨"[contained value]",some ⟨4096,.plain 2 "complate::Number"⟩⟩] := by decide +kernel
  obtain rfl : contained = some ⟨4096,.plain 2 "complate::Number"⟩ := by
    simpa using hlisted.symm.trans hchild
  have htype : (display ⟨.standard,.standard⟩
      (Construction.ofSteps nestedUnionSteps).builder.snapshot.oracle .silent "value"
        ⟨4096,.plain 3 "complate::Value"⟩).typeName = some "complate::Value" := by
    rw [show Demangler.silent = .ofFunction fun _ => none from rfl, display_eq_outline,
      Survey.typeName_toNode, value_outline]
    rfl
  have hroot := (herror .standard "value" ⟨4096,.plain 3 "complate::Value"⟩).run
    (host ⟨.standard,.standard⟩ (Construction.ofSteps nestedUnionSteps).builder.snapshot.oracle
      .silent) .fresh
  cases hroot with
  | mk here _ => exact ⟨hchild,hsaid _ rfl,here (.inl htype)⟩

end Inspector
end ValueInspector
