import ValueInspector.Implementation
import ValueInspector.Proofs.Query.Outcomes
import ValueInspector.Proofs.Snapshot.Reading

/-! # Implementations behind opaque objects

A path of member names leads from a value to the member at its end. The implementation of an opaque
object is the target of the pointer at the end of the path through its owner, whatever type that
pointer is declared with.
-/
namespace ValueInspector

namespace Snapshot

/-- A path of member names leads from one value to another. -/
inductive HasPath (s : Snapshot) : RawValue → List String → RawValue → Prop
  | nil (v : RawValue) : HasPath s v [] v
  | cons {v member w : RawValue} {field : String} {path : List String}
      (h : s.HasMember v field member) (rest : HasPath s member path w) :
      HasPath s v (field :: path) w

/-- The implementation of an object, by the name of its type. -/
def Unwraps (s : Snapshot) (layout : StandardLayout) (v : RawValue) (implementation : String)
    (inner : RawValue) : Prop :=
  ∃ ty owner raw, s.lookupType implementation = some ty ∧ s.HasMember v layout.pimplField owner ∧
    s.HasPath owner layout.pimplPointer raw ∧ s.dereference (raw.retyped ty.pointer) = .ok inner

end Snapshot

section Answered
variable {s : Snapshot} {demangler : Option Demangler} {v w : RawValue}

/-- Reading along a path finds what is at its end. -/
theorem Decode.eval_readPath_eq_ok_iff {path : List String} :
    (Decode.readPath v path).run.eval (Host.answers ⟨s.oracle,demangler⟩) = .ok w ↔
      s.HasPath v path w := by
  induction path generalizing v with
  | nil =>
    constructor
    · intro h
      cases Except.ok.inj h
      exact .nil _
    · rintro ⟨⟩
      rfl
  | cons field path ih =>
    rw [readPath, eval_bind_eq_ok_iff]
    constructor
    · rintro ⟨member,hmember,hrest⟩
      exact .cons (Snapshot.readField_eq_ok_iff.mp hmember) (ih.mp hrest)
    · intro h
      cases h with
      | cons hmember hrest => exact ⟨_,Snapshot.readField_eq_ok_iff.mpr hmember,ih.mpr hrest⟩

/-- Unwrapping finds the implementation. -/
theorem eval_unwrapImplementation_eq_ok_iff {layout : StandardLayout} {implementation : String} :
    (unwrapImplementation layout v implementation).run.eval (Host.answers ⟨s.oracle,demangler⟩) =
      .ok w ↔ s.Unwraps layout v implementation w := by
  rw [unwrapImplementation, Decode.eval_bind_eq_ok_iff]
  constructor
  · rintro ⟨found,hfound,h⟩
    cases found with
    | none => cases h
    | some ty =>
      obtain ⟨owner,howner,h⟩ := (Decode.eval_bind_eq_ok_iff _).mp h
      obtain ⟨raw,hraw,h⟩ := (Decode.eval_bind_eq_ok_iff _).mp h
      obtain ⟨pointer,hpointer,h⟩ := (Decode.eval_bind_eq_ok_iff _).mp h
      cases Except.ok.inj hpointer
      exact ⟨ty,owner,raw,Except.ok.inj hfound,Snapshot.readField_eq_ok_iff.mp howner,
        Decode.eval_readPath_eq_ok_iff.mp hraw,h⟩
  · rintro ⟨ty,owner,raw,hfound,howner,hraw,htarget⟩
    refine ⟨some ty,congrArg Except.ok hfound,?_⟩
    refine (Decode.eval_bind_eq_ok_iff _).mpr
      ⟨owner,Snapshot.readField_eq_ok_iff.mpr howner,?_⟩
    refine (Decode.eval_bind_eq_ok_iff _).mpr ⟨raw,Decode.eval_readPath_eq_ok_iff.mpr hraw,?_⟩
    exact (Decode.eval_bind_eq_ok_iff _).mpr ⟨raw.retyped ty.pointer,rfl,htarget⟩

end Answered
end ValueInspector
