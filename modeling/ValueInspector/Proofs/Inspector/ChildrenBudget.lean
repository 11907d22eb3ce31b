import ValueInspector.Proofs.Inspector.Texts

/-! # Listed children and the children budget

A list of members is cut to the children budget. The target of a pointer is listed without a look at the
budget, alone under its pointer. So a node lists more children than it may only where there is no room
for any and a pointer is followed, and then it lists one.
-/
namespace ValueInspector

namespace Survey

/-- A visit that follows a pointer lists its target, and any other visit keeps to the budget. -/
theorem Possible.length_children {o : InspectOptions} {s : Survey} (h : s.Possible o) :
    s.followed = none ∧ s.children.length ≤ o.maxChildren.toNat ∨
      s.followed ≠ none ∧ s.children.length = 1 := by
  cases h with
  | followed => exact .inr ⟨nofun,rfl⟩
  | listed _ _ _ hwithin _ _ => exact .inl ⟨rfl,hwithin⟩
  | _ => exact .inl ⟨rfl,Nat.zero_le _⟩

/-- A visit lists more children than the budget has room for exactly if there is room for none and it
follows a pointer. -/
theorem Possible.children_within_iff {o : InspectOptions} {s : Survey} (h : s.Possible o) :
    s.children.length ≤ o.maxChildren.toNat ↔ o.maxChildren ≠ 0 ∨ s.followed = none := by
  have hzero : o.maxChildren = 0 ↔ o.maxChildren.toNat = 0 := by
    rw [← UInt64.toNat_inj]
    exact Iff.rfl
  rcases h.length_children with ⟨hstay,hwithin⟩ | ⟨hfollowed,hone⟩
  · exact iff_of_true hwithin (.inr hstay)
  · rw [hone, or_iff_left hfollowed, ne_eq, hzero]
    omega

end Survey

namespace Inspector
open Survey

/-- Whatever the answers, a node with more children than the budget allows shows a pointer that was
followed, and lists nothing but its target, where the budget has no room for any. So the budget holds
for the whole tree exactly if it has room for one child, or if no pointer is followed. -/
theorem inspect_children_budget (i : Inspector) (label : String) (v : RawValue) :
    (i.inspect label v).Always fun root =>
      root.All (fun t => t.toNode.children.length ≤ i.options.maxChildren.toNat ∨
        i.options.maxChildren = 0 ∧ t.followed ≠ none ∧ t.toNode.children.length = 1) ∧
      (root.toNode.All (fun n => n.children.length ≤ i.options.maxChildren.toNat) ↔
        i.options.maxChildren ≠ 0 ∨ root.All fun t => t.followed = none) := by
  have hlength : ∀ t : Survey, t.toNode.children.length = t.children.length := fun t => by
    rw [children_toNode, List.length_map]
  refine Query.Always.mono (inspect_ends i label v) fun root hroot => ?_
  have hpossible : root.All (Possible i.options) := hroot.possible.all fun _ h => h
  constructor
  · refine hpossible.mono fun t ht => ?_
    rw [hlength]
    by_cases hzero : i.options.maxChildren = 0
    · rcases ht.length_children with ⟨_,hwithin⟩ | hfollowed
      · exact .inl hwithin
      · exact .inr ⟨hzero,hfollowed⟩
    · exact .inl (ht.children_within_iff.mpr (.inl hzero))
  · rw [all_toNode_iff]
    simp only [hlength]
    constructor
    · intro hwithin
      refine or_iff_not_imp_left.mpr fun hzero => ?_
      exact (hpossible.and hwithin).mono fun t ht =>
        (ht.1.children_within_iff.mp ht.2).resolve_left hzero
    · rintro (hroom | hstay)
      · exact hpossible.mono fun t ht => ht.children_within_iff.mpr (.inl hroom)
      · exact (hpossible.and hstay).mono fun t ht => ht.1.children_within_iff.mpr (.inr ht.2)

/-- A pointer to a number. -/
def numberPointerSteps : List BuilderStep :=
  [.type (.primitive "int" .i32),
    .memory (.map 4096 #[0,32,0,0,0,0,0,0]),
    .memory (.map 8192 #[7,0,0,0])]

/-- With no room for children the target of a pointer is listed all the same. -/
theorem target_exceeds_budget :
    let s := (Construction.ofSteps numberPointerSteps).builder.snapshot
    let i : Inspector := ⟨.standard,{ InspectOptions.standard with maxChildren := 0 }⟩
    let tree := i.display s.oracle .silent "pointer" ⟨4096,⟨0,1,"int"⟩⟩
    tree.children.map (·.label) = ["*"] ∧ ¬tree.children.length ≤ 0 ∧ tree.truncated = none := by
  dsimp only
  rw [show Demangler.silent = .ofFunction fun _ => none from rfl, display_eq_outline]
  exact ⟨by decide +kernel,by decide +kernel,by decide +kernel⟩

end Inspector
end ValueInspector
