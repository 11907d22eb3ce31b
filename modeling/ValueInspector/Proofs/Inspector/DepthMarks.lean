import ValueInspector.Proofs.Inspector.Pruning
import ValueInspector.Proofs.Inspector.Visits
import ValueInspector.Proofs.Query.Resolutions
import ValueInspector.Proofs.Snapshot.Reading

/-! # What the depth limit hides

With one more level an inspection builds the same tree, except below the visits that stopped at the depth
limit. A value that is no pointer stops there only if it has children, so it lists some of them then. A
pointer stops there before its target is looked at: with one more level it may turn out to lead back to
the trail, or to have no target that can be shown.
-/
namespace ValueInspector

namespace Survey

/-- The visit at the end of a way down, told by the position of each visit beside its siblings. -/
def at? (s : Survey) : List Nat → Option Survey
  | [] => some s
  | j :: path => (s.children[j]?).bind (·.at? path)

/-- The second survey has the visits of the first at the same positions, and its visits are in a relation
to those of the first that stopped at the depth limit. -/
inductive GoesOn (R : Survey → Survey → Prop) : Survey → Survey → Prop
  | stopped {s b : Survey} (mark : s.truncated = some .depth) (leaf : s.children = [])
      (related : R s b) : GoesOn R s b
  | through {s b : Survey} (mark : s.truncated ≠ some .depth)
      (length : s.children.length = b.children.length)
      (children : ∀ j (hs : j < s.children.length) (hb : j < b.children.length),
        GoesOn R s.children[j] b.children[j]) : GoesOn R s b

namespace GoesOn
variable {R : Survey → Survey → Prop} {s b : Survey}

theorem bare (hmark : s.truncated ≠ some .depth) (hs : s.children = []) (hb : b.children = []) :
    GoesOn R s b := by
  refine .through hmark (by rw [hs, hb]) fun j hj _ => ?_
  rw [hs] at hj
  exact absurd hj (Nat.not_lt_zero j)

/-- A visit that stopped at the depth limit is found again at its position. -/
theorem exists_at (h : GoesOn R s b) {path : List Nat} {t : Survey} (ht : s.at? path = some t)
    (hmark : t.truncated = some .depth) : ∃ u, b.at? path = some u ∧ R t u := by
  induction path generalizing s b with
  | nil =>
    cases ht
    cases h with
    | stopped _ _ related => exact ⟨b,rfl,related⟩
    | through mark => exact absurd hmark mark
  | cons j path ih =>
    obtain ⟨c,hc,htail⟩ := Option.bind_eq_some_iff.mp ht
    obtain ⟨hj,rfl⟩ := List.getElem?_eq_some_iff.mp hc
    cases h with
    | stopped _ leaf =>
      rw [leaf] at hj
      exact absurd hj (Nat.not_lt_zero j)
    | through _ length children =>
      have hjb : j < b.children.length := length ▸ hj
      obtain ⟨u,hu,hrelated⟩ := ih (children j hj hjb) htail
      refine ⟨u,?_,hrelated⟩
      rw [at?, List.getElem?_eq_getElem hjb, Option.bind_some]
      exact hu

end GoesOn
end Survey

namespace Inspector
open Survey

/-- The same budgets, with one level more. -/
def oneLevelMore (i : Inspector) : Inspector :=
  { i with options := { i.options with maxDepth := i.options.maxDepth + 1 } }

section Answered
variable {host : (r : Request) → r.Answer} {i : Inspector}

/-- What becomes, with one more level, of a visit that stopped at the depth limit. -/
structure Reopened (host : (r : Request) → r.Answer) (t u : Survey) : Prop where
  same : t.SameValue u
  below : ∃ v, t.value = some v ∧ (v.ty.isPointer = false → u.children ≠ []) ∧
    (v.ty.isPointer = true → ∃ n, host (.readInteger v) = .ok n ∧ n.toUInt64 ≠ 0 ∧
      (u.children ≠ [] ↔
        n.toUInt64 ∉ t.frame.trail ∧ ∃ target, host (.dereference v) = .ok target))

/-- The visits below go on where others stop, or there are none where others go on. -/
def BelowGoesOn (host : (r : Request) → r.Answer) : Option Look → Option Look → Prop
  | none, some _ => True
  | some look, some look' => ∀ f label v, GoesOn (Reopened host) (look f label v) (look' f label v)
  | _, none => False

/-- Above the depth limit a pointer with hops left is followed unless it leads back to the trail or has no
target. -/
theorem children_outlinePointer_ne_nil_iff {v : RawValue} {n : Int64}
    (hn : host (.readInteger v) = .ok n) {s : Survey}
    (hgo : ¬(n.toUInt64 = 0 ∨ s.frame.pointersLeft = 0)) (hs : s.children = []) (look : Look) :
    (outlinePointer host (some look) v s).children ≠ [] ↔
      n.toUInt64 ∉ s.frame.trail ∧ ∃ target, host (.dereference v) = .ok target := by
  by_cases htrail : n.toUInt64 ∈ s.frame.trail
  · rw [outlinePointer_cycle hn hgo htrail]
    simp [hs, htrail]
  · cases ht : host (.dereference v) with
    | error e =>
      obtain ⟨mark,_,heq⟩ := outlinePointer_untargeted s hn hgo look htrail ht
      rw [heq]
      simp [hs]
    | ok target =>
      rw [outlinePointer_follow hn hgo htrail ht]
      simp [htrail]

section Visit
variable {below below' : Option Look} (hb : BelowGoesOn host below below') {f : Frame}
  {label : String} {v : RawValue} (summary : Option String)
include hb

theorem outlinePointer_goesOn (hv : v.ty.isPointer = true) :
    GoesOn (Reopened host)
      (outlinePointer host below v { Survey.start label f (some v) with summary })
      (outlinePointer host below' v { Survey.start label f (some v) with summary }) := by
  cases hn : host (.readInteger v) with
  | error e =>
    rw [outlinePointer_error hn, outlinePointer_error hn]
    exact .bare (by simp) rfl rfl
  | ok n =>
    by_cases hstop : n.toUInt64 = 0 ∨ f.pointersLeft = 0
    · rw [outlinePointer_stop hn hstop, outlinePointer_stop hn hstop]
      exact .bare (by simp) rfl rfl
    · cases below with
      | none =>
        cases below' with
        | none => exact hb.elim
        | some look =>
          have hsame := sameValue_outlinePointer hn (some look)
            { Survey.start label f (some v) with summary }
          rw [outlinePointer_none hn hstop]
          refine .stopped rfl rfl
            ⟨⟨hsame.label,hsame.value,hsame.summary,hsame.error⟩,v,rfl,?_,fun _ => ?_⟩
          · exact fun hplain => absurd (hplain.symm.trans hv) Bool.false_ne_true
          · exact ⟨n,hn,fun hnull => hstop (.inl hnull),
              children_outlinePointer_ne_nil_iff hn hstop rfl look⟩
      | some look =>
        cases below' with
        | none => exact hb.elim
        | some look' =>
          by_cases htrail : n.toUInt64 ∈ f.trail
          · rw [outlinePointer_cycle hn hstop htrail, outlinePointer_cycle hn hstop htrail]
            exact .bare (by simp) rfl rfl
          · cases ht : host (.dereference v) with
            | error e =>
              have hcut (look : Look) := outlinePointer_untargeted
                { Survey.start label f (some v) with summary } hn hstop look htrail ht
              obtain ⟨mark,hmark,heq⟩ := hcut look
              obtain ⟨_,_,heq'⟩ := hcut look'
              rw [heq, heq']
              exact .bare (by rcases hmark with rfl | rfl <;> simp) rfl rfl
            | ok target =>
              rw [outlinePointer_follow hn hstop htrail ht, outlinePointer_follow hn hstop htrail ht]
              refine .through (by simp) rfl fun j hj _ => ?_
              obtain rfl : j = 0 := by simpa using hj
              exact hb _ "*" target

omit hb in
theorem outlineChild_goesOn {look look' : Look} (hb : BelowGoesOn host (some look) (some look'))
    (f : Frame) (c : Child) :
    GoesOn (Reopened host) (outlineChild look f c) (outlineChild look' f c) := by
  unfold outlineChild
  cases c.value with
  | some v => exact hb f c.label v
  | none => exact .bare (by simp) rfl rfl

theorem outlineMembers_goesOn (hc : 1 ≤ i.options.maxChildren) (hv : v.ty.isPointer = false) :
    GoesOn (Reopened host)
      (i.outlineMembers host below v { Survey.start label f (some v) with summary })
      (i.outlineMembers host below' v { Survey.start label f (some v) with summary }) := by
  cases hcs : (i.children v).run.eval host with
  | error e =>
    rw [outlineMembers_error hcs, outlineMembers_error hcs]
    exact .bare (by simp) rfl rfl
  | ok cs =>
    by_cases hnone : cs = []
    · rw [outlineMembers_nil hcs hnone, outlineMembers_nil hcs hnone]
      exact .bare (by simp) rfl rfl
    · cases below with
      | none =>
        cases below' with
        | none => exact hb.elim
        | some look =>
          have hshown : cs.take i.options.maxChildren.toNat ≠ [] := by
            have hpos : 1 ≤ i.options.maxChildren.toNat := UInt64.le_iff_toNat_le.mp hc
            exact mt List.take_eq_nil_iff.mp (not_or.mpr ⟨by omega,hnone⟩)
          rw [outlineMembers_none hcs hnone, outlineMembers_some hcs hnone]
          refine .stopped rfl rfl ⟨⟨rfl,rfl,rfl,rfl⟩,v,rfl,?_,?_⟩
          · exact fun _ => mt List.map_eq_nil_iff.mp hshown
          · exact fun hpointer => absurd (hv.symm.trans hpointer) Bool.false_ne_true
      | some look =>
        cases below' with
        | none => exact hb.elim
        | some look' =>
          rw [outlineMembers_some hcs hnone, outlineMembers_some hcs hnone]
          refine .through ?_ (by simp only [List.length_map]) fun j hj hj' => ?_
          · dsimp only
            split <;> simp
          · simp only [List.getElem_map]
            exact outlineChild_goesOn hb _ _

end Visit

theorem outlineValue_goesOn (hc : 1 ≤ i.options.maxChildren) {below below' : Option Look}
    (hb : BelowGoesOn host below below') (f : Frame) (label : String) (v : RawValue) :
    GoesOn (Reopened host) (i.outlineValue host below f label v)
      (i.outlineValue host below' f label v) := by
  unfold outlineValue
  cases (i.summarize v).run.eval host with
  | error e => exact .bare (by simp) rfl rfl
  | ok summary =>
    cases hv : v.ty.isPointer with
    | true => exact outlinePointer_goesOn hb _ hv
    | false => exact outlineMembers_goesOn hb _ hc hv

/-- An outline with one more level goes on where the outline stops. -/
theorem outline_goesOn (hc : 1 ≤ i.options.maxChildren) (levels : Nat) (f : Frame) (label : String)
    (v : RawValue) :
    GoesOn (Reopened host) (i.outline host levels f label v)
      (i.outline host (levels + 1) f label v) := by
  induction levels generalizing f label v with
  | zero =>
    have hb : BelowGoesOn host none (some (i.outline host 0)) := trivial
    exact outlineValue_goesOn hc hb f label v
  | succ levels ih =>
    have hb : BelowGoesOn host (some (i.outline host levels)) (some (i.outline host (levels + 1))) :=
      ih
    exact outlineValue_goesOn hc hb f label v

/-- The limit itself plays no part in what an outline of some levels shows. -/
theorem outline_oneLevelMore (levels : Nat) :
    i.oneLevelMore.outline host levels = i.outline host levels := by
  induction levels with
  | zero => rfl
  | succ levels ih =>
    rw [outline, outline, ih]
    rfl

end Answered

/-- What one more level shows of a visit that stopped at the depth limit: the same value, and something
below it, unless it is a pointer back to the trail or one whose type has no target. -/
theorem inspect_depth_marks {i : Inspector} (hlimit : i.options.maxDepth < 4294967295)
    (hc : 1 ≤ i.options.maxChildren) (s : Snapshot) (demangle : String → Option String)
    (label : String) (v : RawValue) {path : List Nat} {t : Survey}
    (hat : ((i.inspect label v).runFresh (i.host s.oracle (.ofFunction demangle))).at? path = some t)
    (hmark : t.truncated = some .depth) :
    ∃ u, ((i.oneLevelMore.inspect label v).runFresh
        (i.oneLevelMore.host s.oracle (.ofFunction demangle))).at? path = some u ∧
      t.SameValue u ∧ ∃ w, t.value = some w ∧ (w.ty.isPointer = false → u.children ≠ []) ∧
        (w.ty.isPointer = true → ∃ address, s.readPointer w = .ok address ∧ address ≠ 0 ∧
          (u.children ≠ [] ↔ address ∉ t.frame.trail ∧ s.HasTarget w.ty)) := by
  have hlevels : i.oneLevelMore.options.maxDepth.toNat = i.options.maxDepth.toNat + 1 :=
    toNat_depth_succ hlimit
  have hanswers : i.oneLevelMore.answers s.oracle demangle = i.answers s.oracle demangle := rfl
  rw [inspect_eq_outline] at hat ⊢
  rw [hanswers, outline_oneLevelMore, hlevels]
  have hgoes : GoesOn (Reopened (i.answers s.oracle demangle))
      (i.outline _ i.options.maxDepth.toNat ⟨0,i.options.expandPointers,[]⟩ label v)
      (i.outline _ (i.options.maxDepth.toNat + 1) ⟨0,i.options.expandPointers,[]⟩ label v) :=
    outline_goesOn hc _ _ label v
  obtain ⟨u,hu,⟨hsame,w,hw,hmembers,hpointer⟩⟩ := hgoes.exists_at hat hmark
  refine ⟨u,hu,hsame,w,hw,hmembers,fun hv => ?_⟩
  obtain ⟨n,hn,hnull,hbelow⟩ := hpointer hv
  have hread : s.readPointer w = .ok n.toUInt64 := (Snapshot.readInteger_eq_ok_iff hv).mp hn
  have htarget : (∃ target, i.answers s.oracle demangle (.dereference w) = .ok target) ↔
      s.HasTarget w.ty := Snapshot.exists_dereference_iff hread hnull
  exact ⟨n.toUInt64,hread,hnull,hbelow.trans (and_congr_right fun _ => htarget)⟩

/-- The standard printers and budgets, but for the depth limit. -/
def standardTo (maxDepth : UInt32) : Inspector :=
  ⟨.standard,{ InspectOptions.standard with maxDepth }⟩

/-- The pointer of a record that points to itself, where the depth limit stops at it. With one more level it
lists its target. -/
theorem inspect_depth_marks_selfLink :
    let shown (i : Inspector) := ((i.inspect "root" ⟨4096,.plain 0 "Link"⟩).runFresh
      (i.host Snapshot.selfLink.oracle .silent)).at? [0]
    ∃ t u, shown (standardTo 1) = some t ∧ t.truncated = some .depth ∧
      shown (standardTo 2) = some u ∧ t.SameValue u ∧ u.children ≠ [] := by
  have hstopped : ((((standardTo 1).inspect "root" ⟨4096,.plain 0 "Link"⟩).runFresh
      ((standardTo 1).host Snapshot.selfLink.oracle (.ofFunction fun _ => none))).at? [0]).map
        (fun t => (t.truncated,t.value,t.frame.trail)) =
      some (some .depth,some ⟨4096,⟨0,1,"Link"⟩⟩,[]) := by
    rw [inspect_eq_outline]
    decide +kernel
  obtain ⟨t,ht,hfound⟩ := Option.map_eq_some_iff.mp hstopped
  obtain ⟨hmark,hvalue,htrail⟩ : t.truncated = some .depth ∧ t.value = some ⟨4096,⟨0,1,"Link"⟩⟩ ∧
      t.frame.trail = [] := by simpa using hfound
  obtain ⟨u,hu,hsame,w,hw,_,hpointer⟩ := inspect_depth_marks (by decide) (by decide)
    Snapshot.selfLink (fun _ => none) "root" _ ht hmark
  cases hvalue.symm.trans hw
  obtain ⟨address,_,_,hopen⟩ := hpointer rfl
  have htarget : Snapshot.selfLink.HasTarget ⟨0,1,"Link"⟩ :=
    ⟨.plain 0 "Link",by decide,.inr ⟨_,rfl,by decide⟩⟩
  exact ⟨t,u,ht,hmark,hu,hsame,hopen.mpr ⟨htrail ▸ List.not_mem_nil,htarget⟩⟩

/-- A pointer to an object of no known type. -/
def untypedPointerSteps : List BuilderStep :=
  [.type (.primitive "void" .void), .memory (.map 4096 #[0,32,0,0,0,0,0,0])]

/-- Nothing is below a pointer to void, and the depth limit marks it all the same. -/
theorem void_pointer_marked_depth :
    let s := (Construction.ofSteps untypedPointerSteps).builder.snapshot
    let tree (i : Inspector) := i.display s.oracle .silent "object" ⟨4096,⟨0,1,"void"⟩⟩
    s.lookupType "void*" = some ⟨0,1,"void"⟩ ∧ 1 ≤ (standardTo 0).options.maxChildren ∧
    (tree (standardTo 0)).truncated = some .depth ∧ (tree (standardTo 1)).truncated = none ∧
    (tree (standardTo 1)).children = [] := by
  dsimp only
  rw [show Demangler.silent = .ofFunction fun _ => none from rfl, display_eq_outline,
    display_eq_outline]
  refine ⟨by decide +kernel,by decide,by decide +kernel,by decide +kernel,?_⟩
  exact List.isEmpty_iff.mp (by decide +kernel)

end Inspector
end ValueInspector
