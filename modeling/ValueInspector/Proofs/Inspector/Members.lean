import ValueInspector.Proofs.Inspector.Visits
import ValueInspector.Proofs.Query.Resolutions
import ValueInspector.Proofs.Snapshot.Reading

/-! # Members of a record

The children of a record without a printer are its members. Their names are enumerated in order, and
each member is then looked up by its name, which finds the first field of that name. So every field is
listed, but at its own place only if no field before it has the same name and another place.
-/
namespace ValueInspector

namespace FieldDef
variable {fields : List FieldDef} {f : FieldDef}

/-- The place of a field in a record, modulo the size of the address space. -/
def placeIn (f : FieldDef) (v : RawValue) : RawValue := ⟨.ofNat (v.address.toNat + f.offset),f.ty⟩

theorem placeIn_eq (f : FieldDef) (v : RawValue) :
    f.placeIn v = ⟨v.address + .ofNat f.offset,f.ty⟩ := by
  rw [placeIn, UInt64.ofNat_add, UInt64.ofNat_toNat]

/-- The first field with the name of a given one. -/
def firstNamed (fields : List FieldDef) (f : FieldDef) : FieldDef :=
  (fields.find? (·.name = f.name)).getD f

theorem find?_eq_firstNamed (hf : f ∈ fields) :
    fields.find? (·.name = f.name) = some (firstNamed fields f) := by
  have hsome : (fields.find? (·.name = f.name)).isSome :=
    List.find?_isSome.mpr ⟨f,hf,decide_eq_true rfl⟩
  obtain ⟨g,hg⟩ := Option.isSome_iff_exists.mp hsome
  rw [firstNamed, hg, Option.getD_some]

theorem firstNamed_mem (hf : f ∈ fields) : firstNamed fields f ∈ fields :=
  List.mem_of_find?_eq_some (find?_eq_firstNamed hf)

theorem name_firstNamed (hf : f ∈ fields) : (firstNamed fields f).name = f.name := by
  simpa using List.find?_some (find?_eq_firstNamed hf)

theorem firstNamed_congr {g : FieldDef} (hf : f ∈ fields) (hg : g ∈ fields) (h : f.name = g.name) :
    firstNamed fields f = firstNamed fields g := by
  have hfound := find?_eq_firstNamed hf
  rw [h, find?_eq_firstNamed hg] at hfound
  exact (Option.some.inj hfound).symm

end FieldDef

namespace Snapshot
variable {s : Snapshot} {v : RawValue} {typeName : String} {size : Nat} {fields : List FieldDef}

/-- Every field of a record is found under its name. -/
theorem readField_of_mem (hv : v.ty.isPointer = false)
    (hentry : s.entries[v.ty.id.toNat]? = some ⟨typeName,.record size fields⟩) {f : FieldDef}
    (hf : f ∈ fields) :
    s.readField v f.name = .ok ((FieldDef.firstNamed fields f).placeIn v) := by
  rw [readField_eq_ok_iff, FieldDef.placeIn_eq]
  exact ⟨hv,_,_,_,_,hentry,FieldDef.find?_eq_firstNamed hf,rfl⟩

end Snapshot

namespace Inspector
variable {i : Inspector} {s : Snapshot} {v : RawValue} (hprinter : i.registry.lookup v.ty = none)
  (hv : v.ty.isPointer = false) {typeName : String} {size : Nat} {fields : List FieldDef}
  (hentry : s.entries[v.ty.id.toNat]? = some ⟨typeName,.record size fields⟩)
include hprinter hv hentry

/-- The children of a record in a snapshot, however names are demangled. -/
theorem eval_children_record (demangler : Option Demangler) :
    (i.children v).run.eval (Host.answers ⟨s.oracle,demangler⟩) =
      .ok (fields.map fun f => ⟨f.name,some ((FieldDef.firstNamed fields f).placeIn v)⟩) := by
  have hfirst : ∀ f ∈ fields, ((fields.find? (·.name = f.name)).map (·.placeIn v)).getD v =
      (FieldDef.firstNamed fields f).placeIn v := by
    intro f hf
    rw [FieldDef.find?_eq_firstNamed hf, Option.map_some, Option.getD_some]
  have hmember : ∀ name ∈ fields.map (·.name),
      (Host.answers ⟨s.oracle,demangler⟩) (.readField v name) =
        .ok (((fields.find? (·.name = name)).map (·.placeIn v)).getD v) := by
    intro name hname
    obtain ⟨f,hf,rfl⟩ := List.mem_map.mp hname
    rw [hfirst f hf]
    exact Snapshot.readField_of_mem hv hentry hf
  rw [eval_children hprinter (Snapshot.fieldNames_of_record hv hentry) hmember, List.map_map]
  exact congrArg Except.ok (List.map_congr_left fun f hf => by rw [Function.comp_apply, hfirst f hf])

/-- A record without a printer lists as many children as it has fields, in their order and under their
names, each at the place of the first field of its name. All of them stand at their own places exactly
if fields of one name share their place. -/
theorem children_of_record (demangler : Demangler) :
    let found := (i.children v).run.runFresh (i.host s.oracle demangler)
    found = .ok (fields.map fun f => ⟨f.name,some ((FieldDef.firstNamed fields f).placeIn v)⟩) ∧
    (found = .ok (fields.map fun f => ⟨f.name,some (f.placeIn v)⟩) ↔
      ∀ f ∈ fields, ∀ g ∈ fields, f.name = g.name → f.placeIn v = g.placeIn v) := by
  have hfound : (i.children v).run.runFresh (i.host s.oracle demangler) =
      .ok (fields.map fun f => ⟨f.name,some ((FieldDef.firstNamed fields f).placeIn v)⟩) := by
    obtain ⟨f,hf⟩ := Query.exists_function_runFresh s.oracle
      (if i.options.demangler.enabled then some demangler else none) (i.children v).run
    rw [host, hf, eval_children_record hprinter hv hentry]
  refine ⟨hfound,?_⟩
  rw [hfound, Except.ok.injEq, List.map_inj_left]
  simp only [Child.mk.injEq, true_and, Option.some.injEq]
  constructor
  · intro hown f hf g hg hname
    rw [← hown f hf, ← hown g hg, FieldDef.firstNamed_congr hf hg hname]
  · exact fun hshare f hf =>
      hshare _ (FieldDef.firstNamed_mem hf) f hf (FieldDef.name_firstNamed hf)

omit hprinter hv hentry

/-- A record with two members of one name, and one whose members have names of their own; one of these
is empty, and one offset is large enough to wrap around. -/
def recordSteps : List BuilderStep :=
  [.type (.primitive "int" .i32),
    .type (.record "Pair" 8 [⟨"x",0,.plain 0 "int"⟩,⟨"x",4,.plain 0 "int"⟩]),
    .type (.record "Odd" 8 [⟨"",4,.plain 0 "int"⟩,⟨"up",18446744073709551615,.plain 1 "Pair"⟩])]

theorem children_of_record_odd :
    let s := (Construction.ofSteps recordSteps).builder.snapshot
    let i : Inspector := ⟨.standard,.standard⟩
    (i.children ⟨4096,.plain 2 "Odd"⟩).run.runFresh (i.host s.oracle .silent) =
      .ok [⟨"",some ⟨4100,.plain 0 "int"⟩⟩,⟨"up",some ⟨4095,.plain 1 "Pair"⟩⟩] := by
  dsimp only
  have hentry : (Construction.ofSteps recordSteps).builder.snapshot.entries[2]? =
      some ⟨"Odd",.record 8 [⟨"",4,.plain 0 "int"⟩,⟨"up",18446744073709551615,.plain 1 "Pair"⟩]⟩ := by
    decide +kernel
  exact (children_of_record (i := ⟨.standard,.standard⟩) (v := ⟨4096,.plain 2 "Odd"⟩)
    (by decide +kernel) rfl hentry .silent).2.mpr (by decide +kernel)

/-- The second of two members of one name is listed at the place of the first. -/
theorem repeated_member_displaced :
    let s := (Construction.ofSteps recordSteps).builder.snapshot
    let i : Inspector := ⟨.empty,.standard⟩
    s.lookupType "Pair" = some (.plain 1 "Pair") ∧
    (s.entries[1]?.map (·.layout)) =
      some (.record 8 [⟨"x",0,.plain 0 "int"⟩,⟨"x",4,.plain 0 "int"⟩]) ∧
    (i.children ⟨4096,.plain 1 "Pair"⟩).run.runFresh (i.host s.oracle .silent) =
      .ok [⟨"x",some ⟨4096,.plain 0 "int"⟩⟩,⟨"x",some ⟨4096,.plain 0 "int"⟩⟩] ∧
    (i.children ⟨4096,.plain 1 "Pair"⟩).run.runFresh (i.host s.oracle .silent) ≠
      .ok [⟨"x",some ⟨4096,.plain 0 "int"⟩⟩,⟨"x",some ⟨4100,.plain 0 "int"⟩⟩] := by
  decide +kernel

end Inspector
end ValueInspector
