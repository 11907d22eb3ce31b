import ValueInspector.Proofs.Inspector.Display

/-! # Display trees are put together from display trees

The tree of a value that is no pointer lists, for each child shown, the tree that an inspection of
the child alone builds with one level less. Depth has no other influence than through the levels
left, and siblings have none.
-/
namespace ValueInspector.Inspector
variable {host : (r : Request) → r.Answer}

/-- The same budgets, with one level less. -/
def oneLevelLess (i : Inspector) : Inspector :=
  { i with options := { i.options with maxDepth := i.options.maxDepth - 1 } }

/-- The tree of a child that is inspected alone, or a leaf with no type if it has no value. -/
def childDisplay (i : Inspector) (oracle : Oracle) (demangler : Demangler) (c : Child) : Node :=
  match c.value with
  | some v => i.oneLevelLess.display oracle demangler c.label v
  | none => ⟨c.label,none,some Union.noInterpretation,none,none,[]⟩

/-- Two ways to visit that display the same from frames which differ at most in depth. -/
def Look.Alike (below below' : Look) : Prop :=
  ∀ depth depth' left trail label v,
    (below ⟨depth,left,trail⟩ label v).toNode = (below' ⟨depth',left,trail⟩ label v).toNode

section Below
variable {below below' : Option Look} (hb : Option.Rel Look.Alike below below')
variable (depth depth' left : UInt32) (trail : List UInt64) (label : String) (v : RawValue)
include hb

theorem outlinePointer_alike (summary : Option String) :
    (outlinePointer host below v
      { Survey.start label ⟨depth,left,trail⟩ (some v) with summary }).toNode =
    (outlinePointer host below' v
      { Survey.start label ⟨depth',left,trail⟩ (some v) with summary }).toNode := by
  unfold outlinePointer
  cases host (.readInteger v) with
  | error e => rfl
  | ok n =>
    dsimp only [Survey.start]
    by_cases hstop : n.toUInt64 = 0 ∨ left = 0
    · simp only [if_pos hstop]
      rfl
    · simp only [if_neg hstop]
      cases hb with
      | none => rfl
      | some hb =>
        by_cases hcycle : n.toUInt64 ∈ trail
        · simp only [if_pos hcycle]
          rfl
        · simp only [if_neg hcycle]
          cases host (.dereference v) with
          | error e => cases e <;> rfl
          | ok target =>
            have hinner := hb (depth + 1) (depth' + 1) (left - 1) (n.toUInt64 :: trail) "*" target
            simp only [Survey.toNode_mk, List.map_cons, List.map_nil, Frame.across]
            rw [hinner]

theorem outlineMembers_alike (i : Inspector) (summary : Option String) :
    (i.outlineMembers host below v
      { Survey.start label ⟨depth,left,trail⟩ (some v) with summary }).toNode =
    (i.oneLevelLess.outlineMembers host below' v
      { Survey.start label ⟨depth',left,trail⟩ (some v) with summary }).toNode := by
  have hsame : i.oneLevelLess.children v = i.children v := rfl
  unfold outlineMembers
  rw [hsame]
  cases (i.children v).run.eval host with
  | error e => rfl
  | ok children =>
    by_cases hnone : children.isEmpty
    · simp only [if_pos hnone]
      rfl
    · simp only [if_neg hnone]
      cases hb with
      | none => rfl
      | some hb =>
        simp only [Survey.toNode_mk, oneLevelLess, List.map_map]
        congr 1
        apply List.map_congr_left
        intro c _
        unfold outlineChild
        simp only [Function.comp_apply]
        cases c.value with
        | none => rfl
        | some w => exact hb (depth + 1) (depth' + 1) left trail c.label w

theorem outlineValue_alike (i : Inspector) :
    (i.outlineValue host below ⟨depth,left,trail⟩ label v).toNode =
      (i.oneLevelLess.outlineValue host below' ⟨depth',left,trail⟩ label v).toNode := by
  have hsame : i.oneLevelLess.summarize v = i.summarize v := rfl
  unfold outlineValue
  rw [hsame]
  cases (i.summarize v).run.eval host with
  | error e => rfl
  | ok summary =>
    dsimp only
    split
    · exact outlinePointer_alike hb depth depth' left trail label v _
    · exact outlineMembers_alike hb depth depth' left trail label v i _

end Below

theorem outline_alike (i : Inspector) (levels : Nat) :
    Look.Alike (i.outline host levels) (i.oneLevelLess.outline host levels) := by
  induction levels with
  | zero => exact fun depth depth' left trail label v =>
      outlineValue_alike .none depth depth' left trail label v i
  | succ levels ih => exact fun depth depth' left trail label v =>
      outlineValue_alike (.some ih) depth depth' left trail label v i

section Root
variable (i : Inspector) (oracle : Oracle) (f : String → Option String)

theorem oneLevelLess_answers : i.oneLevelLess.answers oracle f = i.answers oracle f := rfl

theorem toNat_oneLevelLess (hd : 1 ≤ i.options.maxDepth) :
    i.oneLevelLess.options.maxDepth.toNat + 1 = i.options.maxDepth.toNat := by
  have hle := UInt32.le_iff_toNat_le.mp hd
  change (i.options.maxDepth - 1).toNat + 1 = _
  rw [UInt32.toNat_sub_of_le _ _ hd]
  simp only [UInt32.toNat_one] at hle ⊢
  omega

/-- A child below the root displays as it does alone. -/
theorem outlineChild_toNode (c : Child) :
    (outlineChild (i.outline (i.answers oracle f) i.oneLevelLess.options.maxDepth.toNat)
      ⟨1,i.options.expandPointers,[]⟩ c).toNode = i.childDisplay oracle (.ofFunction f) c := by
  unfold outlineChild childDisplay
  cases c.value with
  | none => rfl
  | some v =>
    dsimp only
    rw [display_eq_outline, oneLevelLess_answers]
    exact outline_alike i _ 1 0 i.options.expandPointers [] c.label v

/-- The children of a tree are the trees of the children, each inspected alone with one level less,
as many as the budget admits. -/
theorem display_children (label : String) (v : RawValue) (hd : 1 ≤ i.options.maxDepth)
    (hv : v.ty.isPointer = false) {summary : Option String}
    (hs : (i.summarize v).run.runFresh (i.host oracle (.ofFunction f)) = .ok summary)
    {cs : List Child}
    (hc : (i.children v).run.runFresh (i.host oracle (.ofFunction f)) = .ok cs) :
    (i.display oracle (.ofFunction f) label v).children.length =
      min cs.length i.options.maxChildren.toNat ∧
    (i.display oracle (.ofFunction f) label v).children =
      (cs.take i.options.maxChildren.toNat).map (i.childDisplay oracle (.ofFunction f)) := by
  rw [runFresh_eq_answers] at hs hc
  have hmap : (i.display oracle (.ofFunction f) label v).children =
      (cs.take i.options.maxChildren.toNat).map (i.childDisplay oracle (.ofFunction f)) := by
    rw [display_eq_outline, ← i.toNat_oneLevelLess hd, outline, outlineValue, hs]
    dsimp only
    rw [hv, if_neg Bool.false_ne_true, outlineMembers, hc]
    cases cs with
    | nil => rw [List.take_nil]; rfl
    | cons c rest =>
      simp only [List.isEmpty_cons, Bool.false_eq_true, if_false, Survey.toNode_mk, List.map_map]
      apply List.map_congr_left
      intro c _
      exact i.outlineChild_toNode oracle f c
  refine ⟨?_,hmap⟩
  rw [hmap, List.length_map, List.length_take, Nat.min_comm]

end Root

/-- The members of a record that points to itself display as they do alone. -/
theorem display_children_selfLink :
    (Inspector.display ⟨.empty,.standard⟩ Snapshot.selfLink.oracle .silent "root"
      ⟨4096,.plain 0 "Link"⟩).children =
    [⟨"next",some ⟨4096,⟨0,1,"Link"⟩⟩⟩,⟨"value",some ⟨4104,⟨1,0,"int32_t"⟩⟩⟩].map
      (childDisplay ⟨.empty,.standard⟩ Snapshot.selfLink.oracle .silent) := by
  have hs : (Inspector.summarize ⟨.empty,.standard⟩ ⟨4096,.plain 0 "Link"⟩).run.runFresh
      (Inspector.host ⟨.empty,.standard⟩ Snapshot.selfLink.oracle .silent) = .ok none := rfl
  have hc : (Inspector.children ⟨.empty,.standard⟩ ⟨4096,.plain 0 "Link"⟩).run.runFresh
      (Inspector.host ⟨.empty,.standard⟩ Snapshot.selfLink.oracle .silent) =
        .ok [⟨"next",some ⟨4096,⟨0,1,"Link"⟩⟩⟩,⟨"value",some ⟨4104,⟨1,0,"int32_t"⟩⟩⟩] := rfl
  exact (display_children ⟨.empty,.standard⟩ Snapshot.selfLink.oracle (fun _ => none) "root"
    ⟨4096,.plain 0 "Link"⟩ (by decide) rfl hs hc).2

end ValueInspector.Inspector
