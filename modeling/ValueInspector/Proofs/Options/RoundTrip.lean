import ValueInspector.Proofs.Json.Rendering
import ValueInspector.Proofs.Options.Partial

/-! # Options survive being written

Options are written as an object with all names, which chooses all of them: so what is read back is what
was written, whatever the numbers and the characters of the texts.
-/
namespace ValueInspector
open Json

section Forms

theorem openForm_renders {known : List String} {ms : List (String × Form)}
    {members : List (String × Json)} (h : List.Forall₂ RendersMember ms members) :
    (OpenForm known ms).Renders (.object members) := fun rest =>
  ⟨[],ms,nofun,by rw [List.map_nil, List.append_nil],renders_object h rest⟩

theorem stringsForm_renders (texts : List String) :
    (StringsForm texts).Renders (.array (texts.map .string)) := by
  refine renders_array ?_
  induction texts with
  | nil => exact .nil
  | cons s texts ih => exact .cons (renders_string s) ih

end Forms

/-- All settings of the helper are chosen. -/
def DemanglerOptions.all (o : DemanglerOptions) : PartialDemangler :=
  ⟨some o.enabled,some o.program,some o.args,some o.timeoutMs⟩

def StandardLayout.all (o : StandardLayout) : PartialLayout :=
  ⟨some o.variantField,some o.variantIndex,some o.pimplField,some o.pimplPointer,some o.optionalEngaged⟩

def InspectOptions.all (o : InspectOptions) : PartialOptions :=
  ⟨some o.maxDepth,some o.maxChildren,some o.expandPointers,some o.maxTextLen,some o.demangler.all,
    some o.layout.all⟩

theorem InspectOptions.over_all (o other : InspectOptions) : o.all.over other = o := rfl

theorem DemanglerOptions.all_renders (o : DemanglerOptions) : o.all.form.Renders o.toJson :=
  openForm_renders (.cons ⟨rfl,renders_bool o.enabled⟩ (.cons ⟨rfl,renders_string o.program⟩
    (.cons ⟨rfl,stringsForm_renders o.args⟩ (.cons ⟨rfl,renders_nat o.timeoutMs.toNat⟩ .nil))))

theorem StandardLayout.all_renders (o : StandardLayout) : o.all.form.Renders o.toJson :=
  openForm_renders (.cons ⟨rfl,renders_string o.variantField⟩ (.cons ⟨rfl,renders_string o.variantIndex⟩
    (.cons ⟨rfl,renders_string o.pimplField⟩ (.cons ⟨rfl,stringsForm_renders o.pimplPointer⟩
      (.cons ⟨rfl,stringsForm_renders o.optionalEngaged⟩ .nil)))))

theorem InspectOptions.all_renders (o : InspectOptions) : o.all.form.Renders o.toJson :=
  openForm_renders (.cons ⟨rfl,renders_nat o.maxDepth.toNat⟩ (.cons ⟨rfl,renders_nat o.maxChildren.toNat⟩
    (.cons ⟨rfl,renders_nat o.expandPointers.toNat⟩ (.cons ⟨rfl,renders_nat o.maxTextLen.toNat⟩
      (.cons ⟨rfl,o.demangler.all_renders⟩ (.cons ⟨rfl,o.layout.all_renders⟩ .nil))))))

/-- What is written of options is read back as the same options. -/
theorem ofText_text_toJson (o : InspectOptions) : InspectOptions.ofText (text o.toJson) = .ok o := by
  rw [InspectOptions.ofText, readAll_of_reads o.all.reads o.all_renders.padded_text,
    InspectOptions.over_all]

end ValueInspector
