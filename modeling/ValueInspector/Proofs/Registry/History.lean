import Mathlib.Data.Finset.Card
import ValueInspector.Proofs.Registry.Qualifiers
import ValueInspector.Proofs.Registry.Registration

/-! # The last registration counts

After any registrations a registry is a map from normalized names to printers: of all registrations
under one normalized name it keeps the last, a further one reports the printer it replaces, and its size
is the number of different normalized names.
-/
namespace ValueInspector.Registry

def keys (r : Registry) : List String := r.entries.map (·.1)

section Keys
variable {r : Registry} {key : String}

theorem lookup_isSome_iff (r : Registry) (key : String) :
    (r.entries.lookup key).isSome = true ↔ key ∈ r.keys := by
  rw [keys, List.lookup_isSome_iff, List.mem_map]
  simp only [beq_iff_eq]
  exact ⟨fun ⟨p,hp,heq⟩ => ⟨p,hp,heq.symm⟩,fun ⟨p,hp,heq⟩ => ⟨p,hp,heq.symm⟩⟩

theorem keys_register (r : Registry) (name : String) (printer : Printer) :
    (r.register name printer).2.keys =
      Name.normalize name :: r.keys.filter (· ≠ Name.normalize name) := by
  rw [register, keys, keys, List.map_cons, List.filter_map]
  rfl

theorem nodup_keys_register (h : r.keys.Nodup) (name : String) (printer : Printer) :
    (r.register name printer).2.keys.Nodup := by
  rw [keys_register]
  exact List.nodup_cons.mpr ⟨fun hmem => by simpa using List.of_mem_filter hmem,h.filter _⟩

theorem mem_keys_register (name : String) (printer : Printer) :
    key ∈ (r.register name printer).2.keys ↔ key = Name.normalize name ∨ key ∈ r.keys := by
  rw [keys_register, List.mem_cons, List.mem_filter, decide_eq_true_eq]
  by_cases h : key = Name.normalize name <;> simp [h]

theorem nodup_keys_registerAll (h : r.keys.Nodup) (calls : List (String × Printer)) :
    (r.registerAll calls).keys.Nodup := by
  induction calls generalizing r with
  | nil => exact h
  | cons p rest ih => exact ih (nodup_keys_register h p.1 p.2)

theorem mem_keys_registerAll (calls : List (String × Printer)) :
    key ∈ (r.registerAll calls).keys ↔ key ∈ r.keys ∨ ∃ p ∈ calls, Name.normalize p.1 = key := by
  induction calls generalizing r with
  | nil => simp [registerAll]
  | cons p rest ih =>
    rw [registerAll, List.foldl_cons, ← registerAll, ih, mem_keys_register, List.exists_mem_cons_iff,
      or_comm (a := key = _), or_assoc, eq_comm (a := key)]

end Keys

/-- The printer of the last registration under a normalized name. -/
def latest (calls : List (String × Printer)) (key : String) : Option Printer :=
  (calls.reverse.find? fun p => key = Name.normalize p.1).map (·.2)

theorem latest_concat (calls : List (String × Printer)) (p : String × Printer) (key : String) :
    latest (calls ++ [p]) key = if key = Name.normalize p.1 then some p.2 else latest calls key := by
  rw [latest, List.reverse_concat, List.find?_cons, latest]
  by_cases h : key = Name.normalize p.1 <;> simp [h]

/-- The registry is the map that some registrations make. -/
structure Keeps (r : Registry) (calls : List (String × Printer)) : Prop where
  lookup_pointer : ∀ ty, ty.isPointer = true → r.lookup ty = none
  lookup_value : ∀ ty, ty.isPointer = false → r.lookup ty = latest calls (Name.normalize ty.base)
  replaced : ∀ name printer, (r.register name printer).1 = latest calls (Name.normalize name)
  replaces_iff : ∀ name printer, (r.register name printer).1.isSome = true ↔
    ∃ p ∈ calls, Name.normalize p.1 = Name.normalize name
  size_eq : r.size = (calls.map fun p => Name.normalize p.1).toFinset.card

theorem keeps_registerAll (calls : List (String × Printer)) : (empty.registerAll calls).Keeps calls := by
  have hlookup : ∀ key, (empty.registerAll calls).entries.lookup key = latest calls key := by
    intro key
    rw [lookup_registerAll, empty, List.lookup_nil, Option.or_none, latest]
  have hkeys : ∀ key, key ∈ (empty.registerAll calls).keys ↔
      ∃ p ∈ calls, Name.normalize p.1 = key := by
    intro key
    rw [mem_keys_registerAll]
    exact or_iff_right (List.not_mem_nil)
  have hnodup := nodup_keys_registerAll (r := empty) List.nodup_nil calls
  refine ⟨fun ty hty => ?_,fun ty hty => ?_,fun name _ => hlookup _,fun name _ => ?_,?_⟩
  · rw [lookup, if_pos hty]
  · rw [lookup, if_neg (by simp [hty]), hlookup]
  · exact (lookup_isSome_iff _ _).trans (hkeys _)
  · rw [size, ← List.length_map (f := (·.1)), ← keys, ← List.toFinset_card_of_nodup hnodup]
    congr 1
    ext key
    rw [List.mem_toFinset, hkeys, List.mem_toFinset, List.mem_map]

/-- The registrations of the standard registry. -/
def standardCalls : List (String × Printer) :=
  [("complate::Prototype",.prototype),("complate::Property",.property),("complate::Method",.method),
   ("complate::Value",.value),("complate::String",.text),("complate::Number",.number),
   ("complate::Proxy",.proxy true),("complate::ProxyWeak",.proxy false)]

theorem registerAll_standard (calls : List (String × Printer)) :
    standard.registerAll calls = empty.registerAll (standardCalls ++ calls) := by
  rw [registerAll, registerAll, List.foldl_append]
  rfl

/-- The empty and the standard registry stay the maps that their registrations make, whatever is
registered. Their names are normalized: this is done once and for all, leaves no blank at the ends and
no qualifier in front, and does not see qualifiers and blanks that are put around a name. -/
theorem registrations_keep_latest (calls : List (String × Printer)) :
    (empty.registerAll calls).Keeps calls ∧
    (standard.registerAll calls).Keeps (standardCalls ++ calls) ∧
    (∀ name, Name.normalize (Name.normalize name) = Name.normalize name ∧
      Text.Tight (Name.normalize name).toList ∧ ¬"const ".toList <+: (Name.normalize name).toList ∧
      ¬"volatile ".toList <+: (Name.normalize name).toList) ∧
    ∀ (name : String) (front run back : List Char), (∃ c ∈ name.toList, Text.isBlank c = false) →
      Text.Blanks front → Name.QualifierRun run → Text.Blanks back →
        Name.normalize (String.ofList (front ++ run ++ name.toList ++ back)) = Name.normalize name := by
  refine ⟨keeps_registerAll calls,?_,fun name => ?_,fun name front run back hname hfront hrun hback => ?_⟩
  · rw [registerAll_standard]
    exact keeps_registerAll _
  · have hplain := Name.afterQualifier?_eq_none_iff.mp (Name.afterQualifier?_normalize name)
    exact ⟨Name.normalize_idem name,Name.tight_normalize name,
      hplain _ (Name.mem_qualifiers.mpr (.inl rfl)),hplain _ (Name.mem_qualifiers.mpr (.inr rfl))⟩
  · exact Name.normalize_surrounded hname hfront hrun hback

/-- Two registrations under one name, of which the second has qualifiers and blanks around it. -/
theorem registrations_keep_latest_qualified :
    Name.normalize " volatile const  Foo " = Name.normalize "Foo" ∧
    (standard.registerAll [("Foo",.text),(" volatile const  Foo ",.number)]).lookup
      (.plain 0 "const Foo") = some .number ∧
    (standard.registerAll [("Foo",.text),(" volatile const  Foo ",.number)]).size = 9 := by
  obtain ⟨-,hkeeps,-,haround⟩ :=
    registrations_keep_latest [("Foo",.text),(" volatile const  Foo ",.number)]
  have hgap : Text.Blanks [' '] := List.forall_mem_singleton.mpr (by decide)
  have hrun : Name.QualifierRun ("volatile ".toList ++ ([] ++ ("const ".toList ++ ([' '] ++ [])))) :=
    .qualifier (.inr rfl) (List.forall_mem_nil _) (.qualifier (.inl rfl) hgap .none)
  have hfoo := haround "Foo" [' '] _ [' '] ⟨'F',by decide,by decide⟩ hgap hrun hgap
  have htext : [' '] ++ ("volatile ".toList ++ ([] ++ ("const ".toList ++ ([' '] ++ [])))) ++
      "Foo".toList ++ [' '] = " volatile const  Foo ".toList := by decide
  rw [htext, String.ofList_toList] at hfoo
  have hname : Name.normalize "const Foo" = Name.normalize " volatile const  Foo " := by decide +kernel
  have hlatest := latest_concat (standardCalls ++ [("Foo",.text)]) (" volatile const  Foo ",.number)
    (Name.normalize "const Foo")
  rw [if_pos hname, List.append_assoc, List.singleton_append] at hlatest
  exact ⟨hfoo,(hkeeps.lookup_value _ rfl).trans hlatest,hkeeps.size_eq.trans (by decide +kernel)⟩

end ValueInspector.Registry
