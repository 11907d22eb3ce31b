import Mathlib.Data.List.Basic
import ValueInspector.Registry

/-! # What registered printers are found under

A registration is found under its normalized name and changes nothing else, so of all printers that are
registered under one name the last is found. In the standard registry each printer is found under the
name it stands by.
-/
namespace ValueInspector.Registry

theorem lookup_filter_of_ne {α : Type} {key other : String} (h : key ≠ other)
    (l : List (String × α)) : (l.filter (·.1 ≠ other)).lookup key = l.lookup key := by
  induction l with
  | nil => rfl
  | cons p rest ih =>
    by_cases hp : p.1 = other
    · have hkey : (key == p.1) = false := beq_eq_false_iff_ne.mpr (hp ▸ h)
      rw [List.filter_cons_of_neg (by simpa using hp), ih, List.lookup_cons, hkey]
    · rw [List.filter_cons_of_pos (by simpa using hp), List.lookup_cons, List.lookup_cons, ih]

/-- A registration is found under its normalized name, and what is found under others stays. -/
theorem lookup_register (r : Registry) (typeName : String) (printer : Printer) (key : String) :
    (r.register typeName printer).2.entries.lookup key =
      if key = Name.normalize typeName then some printer else r.entries.lookup key := by
  rw [register, List.lookup_cons]
  by_cases h : key = Name.normalize typeName
  · rw [if_pos h, beq_iff_eq.mpr h]
  · rw [if_neg h, beq_eq_false_iff_ne.mpr h]
    exact lookup_filter_of_ne h r.entries

/-- Of printers that are registered in order, the last one of a name is found. -/
theorem lookup_registerAll (printers : List (String × Printer)) (r : Registry) (key : String) :
    (r.registerAll printers).entries.lookup key =
      ((printers.reverse.find? fun p => key = Name.normalize p.1).map (·.2)).or
        (r.entries.lookup key) := by
  induction printers generalizing r with
  | nil => rfl
  | cons p rest ih =>
    rw [registerAll, List.foldl_cons, ← registerAll, ih, lookup_register, List.reverse_cons,
      List.find?_append, List.find?_singleton]
    cases rest.reverse.find? fun p => key = Name.normalize p.1 with
    | some q => rfl
    | none => by_cases h : key = Name.normalize p.1 <;> simp [h]

section Standard
variable {ty : TypeDesc}

/-- The standard registry has no printers but these. -/
theorem mem_of_lookup_standard {printer : Printer} (h : standard.lookup ty = some printer) :
    printer ∈ [.prototype,.property,.method,.value,.text,.number,.proxy true,.proxy false] := by
  rw [lookup] at h
  split at h
  · cases h
  · rw [standard, lookup_registerAll, empty, List.lookup_nil, Option.or_none] at h
    obtain ⟨p,hp,rfl⟩ := Option.map_eq_some_iff.mp h
    have hmem := List.mem_map_of_mem (f := (·.2)) (List.mem_reverse.mp (List.mem_of_find?_eq_some hp))
    exact hmem

/-- The names of the standard registry are normalized. -/
theorem normalize_standard : ∀ name ∈ ["complate::Prototype","complate::Property","complate::Method",
    "complate::Value","complate::String","complate::Number","complate::Proxy","complate::ProxyWeak"],
    Name.normalize name = name := by
  decide +kernel

/-- A union of the standard object model has the printer of its kind. -/
theorem lookup_standard_union (hv : ty.isPointer = false) :
    (ty.base = "complate::Value" → standard.lookup ty = some .value) ∧
    (ty.base = "complate::Number" → standard.lookup ty = some .number) ∧
    (ty.base = "complate::String" → standard.lookup ty = some .text) := by
  rw [lookup, hv, if_neg Bool.false_ne_true, standard, lookup_registerAll]
  have hnames := normalize_standard
  simp only [List.forall_mem_cons] at hnames
  refine ⟨fun h => ?_,fun h => ?_,fun h => ?_⟩ <;>
  · rw [h]
    simp [hnames]

end Standard
end ValueInspector.Registry
