import ValueInspector.Printer
import ValueInspector.Proofs.Union.Decoding

/-! # What the printers of unions come to

A general value is decoded once for its summary and once for its children, and the other unions are
formatted. A union without an interpretation is shown as such, so none of these printers ever fails,
whatever the answers. In a snapshot the summary of a general value names the alternative that its one
child is, unless the child has no value.
-/
namespace ValueInspector.Printer

/-- A summary and a list of children come out, whatever the answers. -/
structure NeverFails (p : Printer) : Prop where
  summary (layout : StandardLayout) (v : RawValue) :
    (p.summary layout v).run.Always fun r => ∃ said, r = .ok said
  children (layout : StandardLayout) (v : RawValue) :
    (p.children layout v).run.Always fun r => ∃ cs, r = .ok cs

/-- What a general value shows of its active member. -/
def tag (active : Option (Union.Active ValueAlternative)) : String :=
  active.elim Union.noInterpretation fun active =>
    "\x7b" ++ Alternatives.typeName active.alternative ++ "\x7d"

section Tag
variable {active : Option (Union.Active ValueAlternative)}

theorem braced_ne_noInterpretation (name : String) :
    "\x7b" ++ name ++ "\x7d" ≠ Union.noInterpretation := by
  intro h
  have hhead := congrArg (·.toList.head?) h
  simp [Union.noInterpretation] at hhead

theorem tag_eq_braced_iff {name : String} :
    tag active = "\x7b" ++ name ++ "\x7d" ↔
      ∃ a ∈ active, Alternatives.typeName a.alternative = name := by
  cases active with
  | none => simp [tag, (braced_ne_noInterpretation name).symm]
  | some a => simp [tag]

theorem tag_eq_noInterpretation_iff : tag active = Union.noInterpretation ↔ active = none := by
  cases active with
  | none => simp [tag]
  | some a => simp [tag, braced_ne_noInterpretation]

end Tag

section Runs
variable (layout : StandardLayout) (v : RawValue)

theorem summary_value : (value.summary layout v).run =
    (fun active => .ok (some (tag active))) <$> Union.decodeUnion ValueAlternative layout v := by
  change (ExceptT.lift (Union.decodeUnion ValueAlternative layout v) >>= _).run = _
  rw [ExceptT.run_bind_lift, map_eq_pure_bind]
  refine bind_congr fun active => ?_
  cases active <;> rfl

theorem children_value : (value.children layout v).run =
    (fun active => .ok [⟨containedLabel,active.map (·.value)⟩]) <$>
      Union.decodeUnion ValueAlternative layout v := by
  change (ExceptT.lift (Union.decodeUnion ValueAlternative layout v) >>= _).run = _
  rw [ExceptT.run_bind_lift, map_eq_pure_bind]
  rfl

theorem summary_leafUnion (α : Type) [Alternatives α] : ((leafUnion α).summary layout v).run =
    (fun text => .ok (some text)) <$> Union.formatUnion α layout v := by
  change (ExceptT.lift (Union.formatUnion α layout v) >>= _).run = _
  rw [ExceptT.run_bind_lift, map_eq_pure_bind]
  rfl

theorem always_summary_value :
    (value.summary layout v).run.Always fun r => ∃ text, r = .ok (some text) := by
  rw [summary_value, Query.always_map]
  exact (Query.always_true _).mono fun active _ => ⟨tag active,rfl⟩

theorem always_children_value :
    (value.children layout v).run.Always fun r =>
      ∃ contained, r = .ok [⟨"[contained value]",contained⟩] := by
  rw [children_value, Query.always_map]
  exact (Query.always_true _).mono fun active _ => ⟨active.map (·.value),rfl⟩

end Runs

theorem neverFails_value : value.NeverFails where
  summary layout v := (always_summary_value layout v).mono fun _ ⟨text,h⟩ => ⟨some text,h⟩
  children layout v := (always_children_value layout v).mono fun _ ⟨_,h⟩ => ⟨_,h⟩

theorem neverFails_leafUnion (α : Type) [Alternatives α] : (leafUnion α).NeverFails where
  summary layout v := by
    rw [summary_leafUnion, Query.always_map]
    exact (Query.always_true _).mono fun text _ => ⟨some text,rfl⟩
  children _ _ := ⟨[],rfl⟩

/-- The summary and the child of a general value are read off one and the same member. -/
theorem run_value (s : Snapshot) (demangler : Option Demangler) (m : ResolverMemory)
    (layout : StandardLayout) (v : RawValue) :
    ∃ active : Option (Union.Active ValueAlternative),
      (∀ a, active = some a ↔ Union.Selects s layout v a) ∧
      ((value.summary layout v).run.run ⟨s.oracle,demangler⟩ m).1 = .ok (some (tag active)) ∧
      ((value.children layout v).run.run ⟨s.oracle,demangler⟩ m).1 =
        .ok [⟨containedLabel,active.map (·.value)⟩] := by
  have hreads := Union.asksOnly_decodeUnion layout v ValueAlternative
  refine ⟨_,fun a => Union.eval_decodeUnion_eq_some_iff demangler,?_,?_⟩
  · rw [summary_value, Query.run_of_isRead (Query.asksOnly_map hreads _), Query.eval_map]
  · rw [children_value, Query.run_of_isRead (Query.asksOnly_map hreads _), Query.eval_map]

end ValueInspector.Printer
