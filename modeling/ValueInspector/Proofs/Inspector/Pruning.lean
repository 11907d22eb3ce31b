import ValueInspector.Proofs.Inspector.Display

/-! # Smaller budgets only prune

An inspection with smaller budgets shows the same values as one with larger budgets, down to fewer
visits below them: at each visit those it keeps are the first ones, and a value that is no pointer
says so when some are left out.
-/
namespace ValueInspector

/-- Budgets that allow no more than others do, with the same settings otherwise. -/
structure InspectOptions.Tighter (small big : InspectOptions) : Prop where
  depth : small.maxDepth ≤ big.maxDepth
  children : small.maxChildren ≤ big.maxChildren
  pointers : small.expandPointers ≤ big.expandPointers
  text : small.maxTextLen = big.maxTextLen
  demangler : small.demangler = big.demangler
  layout : small.layout = big.layout

/-- The first tree is the second with the ends of child lists cut off. -/
inductive Node.Prunes : Node → Node → Prop
  | mk {s b : Node} (label : s.label = b.label) (typeName : s.typeName = b.typeName)
      (summary : s.summary = b.summary) (error : s.error = b.error)
      (shorter : s.children.length ≤ b.children.length)
      (children : ∀ j (hs : j < s.children.length) (hb : j < b.children.length),
        Node.Prunes s.children[j] b.children[j]) : Node.Prunes s b

namespace Survey

/-- Two surveys show the same value, whatever they show below it. -/
structure SameValue (s b : Survey) : Prop where
  label : s.label = b.label
  value : s.value = b.value
  summary : s.summary = b.summary
  error : s.error = b.error

/-- The first survey is the second with the ends of child lists cut off, and marked as truncated
where the value is no pointer. -/
inductive Prunes : Survey → Survey → Prop
  | mk {s b : Survey} (same : s.SameValue b) (shorter : s.children.length ≤ b.children.length)
      (marked : (∀ v ∈ s.value, v.ty.isPointer = false) →
        s.children.length < b.children.length → s.truncated ≠ none)
      (children : ∀ j (hs : j < s.children.length) (hb : j < b.children.length),
        Prunes s.children[j] b.children[j]) : Prunes s b

theorem Prunes.toNode {s b : Survey} (h : s.Prunes b) : s.toNode.Prunes b.toNode := by
  induction h with
  | @mk s b same shorter _ _ ih =>
    obtain ⟨hlabel,hvalue,hsummary,herror⟩ := same
    cases s
    cases b
    simp only [toNode_mk]
    refine .mk hlabel (congrArg (Option.map _) hvalue) hsummary (congrArg (Option.map _) herror)
      ?_ ?_
    · simpa only [List.length_map] using shorter
    · intro j hs hb
      simp only [List.getElem_map]
      exact ih j (by simpa using hs) (by simpa using hb)

/-- A survey with nothing below it prunes every survey of the same value. -/
theorem Prunes.leaf {s b : Survey} (h : s.SameValue b) (hc : s.children = [])
    (hm : (∀ v ∈ s.value, v.ty.isPointer = false) → b.children ≠ [] → s.truncated ≠ none) :
    s.Prunes b := by
  refine .mk h (by simp [hc]) ?_ ?_
  · intro hv hlt
    refine hm hv fun hb => ?_
    simp [hc, hb] at hlt
  · intro j hs
    simp [hc] at hs

end Survey

namespace Inspector
variable {host : (r : Request) → r.Answer}

/-- A way to visit that prunes another, from frames with the same trail and no more hops. -/
def Look.Prunes (small big : Look) : Prop :=
  ∀ f g : Frame, f.trail = g.trail → f.pointersLeft ≤ g.pointersLeft →
    ∀ label v, (small f label v).Prunes (big g label v)

/-- The visits below prune others, or there are none. -/
def BelowPrunes : Option Look → Option Look → Prop
  | none, _ => True
  | some small, some big => small.Prunes big
  | some _, none => False

theorem hop_mono {m n : UInt32} (h : m ≤ n) (hm : m ≠ 0) : n ≠ 0 ∧ m - 1 ≤ n - 1 := by
  have hle := UInt32.le_iff_toNat_le.mp h
  have hmhop := Frame.toNat_hop hm
  have hn : n ≠ 0 := by
    rintro rfl
    simp only [UInt32.toNat_zero] at hle
    omega
  have hnhop := Frame.toNat_hop hn
  exact ⟨hn,UInt32.le_iff_toNat_le.mpr (by omega)⟩

/-- A pointer whose address is readable shows the same whether it is followed or not. -/
theorem sameValue_outlinePointer {v : RawValue} {n : Int64} (hn : host (.readInteger v) = .ok n)
    (below : Option Look) (s : Survey) : s.SameValue (outlinePointer host below v s) := by
  unfold outlinePointer
  rw [hn]
  dsimp only
  split
  · exact ⟨rfl,rfl,rfl,rfl⟩
  · cases below with
    | none => exact ⟨rfl,rfl,rfl,rfl⟩
    | some below =>
      dsimp only
      split
      · exact ⟨rfl,rfl,rfl,rfl⟩
      · split <;> exact ⟨rfl,rfl,rfl,rfl⟩

/-- A value whose children are readable shows the same whether they are visited or not. -/
theorem sameValue_outlineMembers {i : Inspector} {v : RawValue} {cs : List Child}
    (hc : (i.children v).run.eval host = .ok cs) (below : Option Look) (s : Survey) :
    s.SameValue (i.outlineMembers host below v s) := by
  unfold outlineMembers
  rw [hc]
  dsimp only
  split
  · exact ⟨rfl,rfl,rfl,rfl⟩
  · cases below <;> exact ⟨rfl,rfl,rfl,rfl⟩

section Below
variable {below below' : Option Look} (hb : BelowPrunes below below') {f g : Frame}
variable (ht : f.trail = g.trail) (hl : f.pointersLeft ≤ g.pointersLeft) (label : String)
variable {v : RawValue}
include hb ht hl

theorem outlinePointer_prunes (hv : v.ty.isPointer = true) (summary : Option String) :
    (outlinePointer host below v { Survey.start label f (some v) with summary }).Prunes
      (outlinePointer host below' v { Survey.start label g (some v) with summary }) := by
  have hpointer {P : Prop} : (∀ w ∈ some v, w.ty.isPointer = false) → P := by
    intro h
    cases hv.symm.trans (h v rfl)
  cases hn : host (.readInteger v) with
  | error e =>
    simp only [outlinePointer, hn]
    exact .leaf ⟨rfl,rfl,rfl,rfl⟩ rfl hpointer
  | ok n =>
    have hsame := sameValue_outlinePointer hn below'
      { Survey.start label g (some v) with summary }
    have hleaf (truncated : Option Truncation) :
        Survey.Prunes { Survey.start label f (some v) with summary, truncated }
          (outlinePointer host below' v { Survey.start label g (some v) with summary }) :=
      .leaf ⟨hsame.label,hsame.value,hsame.summary,hsame.error⟩ rfl hpointer
    by_cases hstop : n.toUInt64 = 0 ∨ f.pointersLeft = 0
    · rw [outlinePointer, hn]
      simp only [if_pos hstop]
      exact hleaf none
    · obtain ⟨hnull,hleft⟩ := not_or.mp hstop
      obtain ⟨hleft',hhop⟩ := hop_mono hl hleft
      have hstop' : ¬(n.toUInt64 = 0 ∨ g.pointersLeft = 0) := not_or.mpr ⟨hnull,hleft'⟩
      match below, below', hb with
      | none, _, _ =>
        rw [outlinePointer, hn]
        simp only [if_neg hstop]
        exact hleaf (some .depth)
      | some below, some below', hb =>
        by_cases hcycle : n.toUInt64 ∈ f.trail
        · rw [outlinePointer, hn]
          simp only [if_neg hstop, if_pos hcycle]
          exact hleaf (some .cycle)
        · cases hd : host (.dereference v) with
          | error e =>
            rw [outlinePointer, hn]
            simp only [if_neg hstop, if_neg hcycle, hd]
            cases e with
            | incompleteType _ => exact hleaf none
            | _ => exact hleaf (some .unresolved)
          | ok target =>
            have hcycle' : n.toUInt64 ∉ g.trail := ht ▸ hcycle
            simp only [outlinePointer, hn, hd, if_neg hstop, if_neg hstop', if_neg hcycle,
              if_neg hcycle']
            refine .mk ⟨rfl,rfl,rfl,rfl⟩ (Nat.le_refl _) hpointer ?_
            intro j hs _
            obtain rfl : j = 0 := by simpa using hs
            have htrail : (f.across n.toUInt64).trail = (g.across n.toUInt64).trail :=
              congrArg (n.toUInt64 :: ·) ht
            exact hb _ _ htrail hhop "*" target

omit hb in
theorem outlineChild_prunes {small big : Look} (hb : small.Prunes big) (c : Child) :
    (outlineChild small f c).Prunes (outlineChild big g c) := by
  unfold outlineChild
  cases c.value with
  | some v => exact hb f g ht hl c.label v
  | none => exact .leaf ⟨rfl,rfl,rfl,rfl⟩ rfl fun _ h => (h rfl).elim

theorem outlineMembers_prunes {i j : Inspector} (hc : i.children v = j.children v)
    (hn : i.options.maxChildren ≤ j.options.maxChildren) (summary : Option String) :
    (i.outlineMembers host below v { Survey.start label f (some v) with summary }).Prunes
      (j.outlineMembers host below' v { Survey.start label g (some v) with summary }) := by
  cases he : (i.children v).run.eval host with
  | error e =>
    simp only [outlineMembers, ← hc, he]
    exact .leaf ⟨rfl,rfl,rfl,rfl⟩ rfl fun _ h => (h rfl).elim
  | ok cs =>
    have hsame := sameValue_outlineMembers (hc ▸ he) below'
      { Survey.start label g (some v) with summary }
    by_cases hempty : cs.isEmpty
    · simp only [outlineMembers, ← hc, he, if_pos hempty]
      exact .leaf ⟨rfl,rfl,rfl,rfl⟩ rfl fun _ h => (h rfl).elim
    · match below, below', hb with
      | none, _, _ =>
        rw [outlineMembers, he]
        simp only [if_neg hempty]
        exact .leaf ⟨hsame.label,hsame.value,hsame.summary,hsame.error⟩ rfl
          fun _ _ => Option.some_ne_none _
      | some below, some below', hb =>
        have hle := UInt64.le_iff_toNat_le.mp hn
        simp only [outlineMembers, ← hc, he, if_neg hempty]
        refine .mk ⟨rfl,rfl,rfl,rfl⟩ ?_ ?_ ?_
        · simp only [List.length_map, List.length_take]
          omega
        · intro _ hlt
          simp only [List.length_map, List.length_take] at hlt
          rw [if_neg (by omega)]
          exact Option.some_ne_none _
        · intro k hs hb'
          simp only [List.getElem_map, List.getElem_take]
          exact outlineChild_prunes (f := f.deeper) (g := g.deeper) ht hl hb _

end Below

/-- Inspectors with the same printers and settings, the first with budgets no larger. -/
structure Tighter (i j : Inspector) : Prop where
  registry : i.registry = j.registry
  options : i.options.Tighter j.options

namespace Tighter
variable {i j : Inspector} (h : i.Tighter j)
include h

theorem summarize_eq (v : RawValue) : i.summarize v = j.summarize v := by
  unfold Inspector.summarize
  rw [h.registry, h.options.layout]

theorem children_eq (v : RawValue) : i.children v = j.children v := by
  unfold Inspector.children
  rw [h.registry, h.options.layout]

theorem host_eq (oracle : Oracle) (demangler : Demangler) :
    i.host oracle demangler = j.host oracle demangler := by
  unfold Inspector.host
  rw [h.options.demangler]

end Tighter

theorem outlineValue_prunes {i j : Inspector} (h : i.Tighter j) {below below' : Option Look}
    (hb : BelowPrunes below below') :
    Look.Prunes (i.outlineValue host below) (j.outlineValue host below') := by
  intro f g ht hl label v
  unfold outlineValue
  rw [← h.summarize_eq v, ← h.options.text]
  cases (i.summarize v).run.eval host with
  | error e => exact .leaf ⟨rfl,rfl,rfl,rfl⟩ rfl fun _ h => (h rfl).elim
  | ok summary =>
    dsimp only
    split
    next hv => exact outlinePointer_prunes hb ht hl label hv _
    · exact outlineMembers_prunes hb ht hl label (h.children_eq v) h.options.children _

theorem outline_prunes {i j : Inspector} (h : i.Tighter j) {m n : Nat} (hmn : m ≤ n) :
    Look.Prunes (i.outline host m) (j.outline host n) := by
  induction m generalizing n with
  | zero => cases n <;> exact outlineValue_prunes h trivial
  | succ m ih =>
    obtain ⟨n,rfl⟩ : ∃ k, n = k + 1 := ⟨n - 1,by omega⟩
    have hbelow : BelowPrunes (some (i.outline host m)) (some (j.outline host n)) :=
      ih (Nat.le_of_succ_le_succ hmn)
    exact outlineValue_prunes h hbelow

/-- Smaller budgets only prune: at each visit the visits below are the first of those that larger
budgets admit, with the same labels, types, summaries and errors, and a value that is no pointer is
marked as truncated where it lists fewer. -/
theorem inspect_prunes {i j : Inspector} (h : i.Tighter j) (oracle : Oracle)
    (f : String → Option String) (label : String) (v : RawValue) :
    ((i.inspect label v).runFresh (i.host oracle (.ofFunction f))).Prunes
      ((j.inspect label v).runFresh (j.host oracle (.ofFunction f))) ∧
    (i.display oracle (.ofFunction f) label v).Prunes
      (j.display oracle (.ofFunction f) label v) := by
  have hsurvey : ((i.inspect label v).runFresh (i.host oracle (.ofFunction f))).Prunes
      ((j.inspect label v).runFresh (j.host oracle (.ofFunction f))) := by
    rw [← h.host_eq, runFresh_eq_answers, runFresh_eq_answers, eval_inspect, eval_inspect]
    have hlevels := UInt32.le_iff_toNat_le.mp h.options.depth
    exact outline_prunes h hlevels ⟨0,i.options.expandPointers,[]⟩
      ⟨0,j.options.expandPointers,[]⟩ rfl h.options.pointers label v
  exact ⟨hsurvey,hsurvey.toNode⟩

/-- The tree of a record that points to itself, with one level, one child and no hops. -/
theorem inspect_prunes_selfLink :
    Tighter ⟨.standard,{ InspectOptions.standard with
      maxDepth := 1, maxChildren := 1, expandPointers := 0 }⟩ ⟨.standard,.standard⟩ ∧
    (Inspector.display ⟨.standard,{ InspectOptions.standard with
      maxDepth := 1, maxChildren := 1, expandPointers := 0 }⟩ Snapshot.selfLink.oracle .silent "root"
        ⟨4096,.plain 0 "Link"⟩).Prunes
    (Inspector.display ⟨.standard,.standard⟩ Snapshot.selfLink.oracle .silent "root"
      ⟨4096,.plain 0 "Link"⟩) := by
  have h : Tighter ⟨.standard,{ InspectOptions.standard with
      maxDepth := 1, maxChildren := 1, expandPointers := 0 }⟩ ⟨.standard,.standard⟩ :=
    ⟨rfl,by decide,by decide,by decide,rfl,rfl,rfl⟩
  exact ⟨h,(inspect_prunes h Snapshot.selfLink.oracle (fun _ => none) "root" _).2⟩

end Inspector
end ValueInspector
