import Mathlib.Data.List.Nodup
import ValueInspector.Proofs.Inspector.Endings

/-! # Visits stay within the budgets

The frame of every visit of an inspection obeys one invariant, which the two ways down preserve: to
the members of a value and to the target of a pointer. It bounds the depth, counts the hops that are
spent, and keeps the trail free of the null address and of repetitions. Answers to requests may be
arbitrary, so the invariant does not depend on what is inspected.
-/
namespace ValueInspector

/-- What holds of the frame of every visit. -/
structure Frame.Within (o : InspectOptions) (f : Frame) : Prop where
  depth_le : f.depth ≤ o.maxDepth
  hops : f.trail.length + f.pointersLeft.toNat = o.expandPointers.toNat
  trail_le : f.trail.length ≤ f.depth.toNat
  nodup : f.trail.Nodup
  nonzero : 0 ∉ f.trail

namespace Frame
variable {o : InspectOptions} {f : Frame}

theorem within_root (o : InspectOptions) : Within o ⟨0,o.expandPointers,[]⟩ where
  depth_le := UInt32.le_iff_toNat_le.mpr (Nat.zero_le _)
  hops := Nat.zero_add _
  trail_le := Nat.zero_le _
  nodup := List.nodup_nil
  nonzero := List.not_mem_nil

theorem toNat_deeper_depth (hd : f.depth < o.maxDepth) :
    f.deeper.depth.toNat = f.depth.toNat + 1 := Inspector.toNat_depth_succ hd

/-- Taking a hop that is left does not wrap around. -/
theorem toNat_hop {n : UInt32} (h : n ≠ 0) : (n - 1).toNat + 1 = n.toNat := by
  have hpos : n.toNat ≠ 0 := fun h0 => h (UInt32.toNat_inj.mp h0)
  have hle : 1 ≤ n := UInt32.le_iff_toNat_le.mpr (Nat.one_le_iff_ne_zero.mpr hpos)
  rw [UInt32.toNat_sub_of_le n 1 hle, UInt32.toNat_one]
  omega

theorem Within.deeper (h : f.Within o) (hd : f.depth < o.maxDepth) : f.deeper.Within o := by
  have hs := toNat_deeper_depth hd
  have hlt := UInt32.lt_iff_toNat_lt.mp hd
  refine ⟨UInt32.le_iff_toNat_le.mpr (by omega),h.hops,?_,h.nodup,h.nonzero⟩
  exact Nat.le_trans h.trail_le (by omega)

theorem Within.across (h : f.Within o) (hd : f.depth < o.maxDepth) {address : UInt64}
    (ha : address ≠ 0) (hleft : f.pointersLeft ≠ 0) (hnew : address ∉ f.trail) :
    (f.across address).Within o := by
  have hdeeper := h.deeper hd
  have hs := toNat_deeper_depth hd
  have hhop := toNat_hop hleft
  have hhops := h.hops
  have htrail := h.trail_le
  refine ⟨hdeeper.depth_le,?_,?_,List.nodup_cons.mpr ⟨hnew,h.nodup⟩,?_⟩
  · simp only [Frame.across, List.length_cons]
    omega
  · change f.trail.length + 1 ≤ f.deeper.depth.toNat
    omega
  · exact List.not_mem_cons_of_ne_of_not_mem ha.symm h.nonzero

end Frame

namespace Survey
variable {o : InspectOptions}

/-- The frame a visit hands to the visits below it. -/
def inner (s : Survey) : Frame :=
  match s.followed with
  | none => s.frame.deeper
  | some address => s.frame.across address

/-- A visit within the budgets, with visits below it only where the budgets allow them. -/
inductive Regular (o : InspectOptions) : Survey → Prop
  | mk {s : Survey} (within : s.frame.Within o)
      (fresh : ∀ a ∈ s.followed, a ≠ 0 ∧ s.frame.pointersLeft ≠ 0 ∧ a ∉ s.frame.trail)
      (room : s.children ≠ [] → s.frame.depth < o.maxDepth)
      (handed : ∀ c ∈ s.children, c.frame = s.inner)
      (below : ∀ c ∈ s.children, Regular o c) : Regular o s

namespace Regular
variable {s c : Survey}

protected theorem frame_within (h : s.Regular o) : s.frame.Within o := by
  cases h
  assumption

protected theorem child (h : s.Regular o) (hc : c ∈ s.children) : c.Regular o := by
  cases h with
  | mk _ _ _ _ below => exact below c hc

/-- The step from a visit to one below it, in numbers that do not wrap around. -/
theorem step_down (h : s.Regular o) (hc : c ∈ s.children) :
    c.frame.depth.toNat = s.frame.depth.toNat + 1 ∧
    c.frame.pointersLeft.toNat + s.followed.toList.length = s.frame.pointersLeft.toNat ∧
    c.frame.trail = s.followed.toList ++ s.frame.trail := by
  cases h with
  | mk within fresh room handed below =>
    have hd := Frame.toNat_deeper_depth (room (List.ne_nil_of_mem hc))
    have hf := handed c hc
    cases ha : s.followed with
    | none =>
      rw [inner, ha] at hf
      rw [hf]
      exact ⟨hd,rfl,rfl⟩
    | some address =>
      rw [inner, ha] at hf
      rw [hf]
      exact ⟨hd,Frame.toNat_hop (fresh address ha).2.1,rfl⟩

end Regular

/-- A way down a survey: each visit on it is right below the one before. -/
def IsDescent (path : List Survey) : Prop := path.IsChain fun s c => c ∈ s.children

/-- The addresses of the pointers followed on a way down. -/
def expanded (path : List Survey) : List UInt64 := path.filterMap (·.followed)

theorem expanded_cons (s : Survey) (path : List Survey) :
    expanded (s :: path) = s.followed.toList ++ expanded path := by
  cases h : s.followed <;> simp [expanded, h]

/-- What each visit passes on to the visits below it holds on every way down. -/
theorem IsDescent.forall_mem {P : Survey → Prop} (hP : ∀ s c, P s → c ∈ s.children → P c)
    {path : List Survey} {s : Survey} (hp : IsDescent (s :: path)) (h : P s) :
    ∀ t ∈ s :: path, P t := by
  induction path generalizing s with
  | nil => simpa using h
  | cons c rest ih =>
    obtain ⟨hc,hrest⟩ := List.isChain_cons_cons.mp hp
    exact List.forall_mem_cons.mpr ⟨h,ih hrest (hP s c h hc)⟩

theorem IsDescent.regular {path : List Survey} {s : Survey} (hp : IsDescent (s :: path))
    (h : s.Regular o) : ∀ t ∈ s :: path, t.Regular o :=
  hp.forall_mem (fun _ _ hs hc => hs.child hc) h

theorem IsDescent.length_le {path : List Survey} {s : Survey} (hp : IsDescent (s :: path))
    (h : s.Regular o) : path.length + s.frame.depth.toNat ≤ o.maxDepth.toNat := by
  induction path generalizing s with
  | nil => simpa using UInt32.le_iff_toNat_le.mp h.frame_within.depth_le
  | cons c rest ih =>
    obtain ⟨hc,hrest⟩ := List.isChain_cons_cons.mp hp
    have hlen := ih hrest (h.child hc)
    have hd := (h.step_down hc).1
    rw [List.length_cons]
    omega

/-- The hops left at the start pay for all pointers followed on the way down. -/
theorem IsDescent.expanded_length_le {path : List Survey} {s : Survey}
    (hp : IsDescent (s :: path)) (h : s.Regular o) :
    (expanded (s :: path)).length ≤ s.frame.pointersLeft.toNat := by
  induction path generalizing s with
  | nil =>
    rw [expanded_cons]
    cases h with
    | mk _ fresh _ _ _ =>
      cases ha : s.followed with
      | none => exact Nat.zero_le _
      | some address =>
        have hhop := Frame.toNat_hop (fresh address ha).2.1
        change 1 ≤ s.frame.pointersLeft.toNat
        omega
  | cons c rest ih =>
    obtain ⟨hc,hrest⟩ := List.isChain_cons_cons.mp hp
    have hlen := ih hrest (h.child hc)
    have hhops := (h.step_down hc).2.1
    rw [expanded_cons, List.length_append]
    omega

/-- No address is expanded twice on the way down, nor one that was on the trail at its start. -/
theorem IsDescent.expanded_nodup {path : List Survey} {s : Survey} (hp : IsDescent (s :: path))
    (h : s.Regular o) : ((expanded (s :: path)).reverse ++ s.frame.trail).Nodup := by
  induction path generalizing s with
  | nil =>
    rw [expanded_cons]
    cases h with
    | mk within fresh _ _ _ =>
      cases ha : s.followed with
      | none => exact within.nodup
      | some address => exact List.nodup_cons.mpr ⟨(fresh address ha).2.2,within.nodup⟩
  | cons c rest ih =>
    obtain ⟨hc,hrest⟩ := List.isChain_cons_cons.mp hp
    have hnodup := ih hrest (h.child hc)
    rw [(h.step_down hc).2.2, ← List.append_assoc] at hnodup
    rw [expanded_cons, List.reverse_append]
    cases ha : s.followed <;> simpa [ha] using hnodup

/-- A visit that found a frame, and is regular if the frame is within the budgets. -/
def Fits (o : InspectOptions) (f : Frame) (s : Survey) : Prop :=
  s.frame = f ∧ (f.Within o → s.Regular o)

/-- A visit with nothing below it. -/
theorem regular_leaf {s : Survey} (h : s.frame.Within o) (hf : s.followed = none)
    (hc : s.children = []) : s.Regular o :=
  .mk h (by simp [hf]) (by simp [hc]) (by simp [hc]) (by simp [hc])

/-- However a visit ends, it is regular if it starts within the budgets. -/
theorem Possible.regular {s : Survey} (h : s.Possible o) (hw : s.frame.Within o) :
    s.Regular o := by
  induction h with
  | followed _ hroom hnull hleft hnew hframe _ _ ih =>
    refine .mk hw (fun a ha => ?_) (fun _ => hroom) (fun c hc => ?_) (fun c hc => ?_)
    · cases ha
      exact ⟨hnull,hleft,hnew⟩
    · rw [List.mem_singleton.mp hc]
      exact hframe
    · rw [List.mem_singleton.mp hc]
      exact ih (hframe ▸ hw.across hroom hnull hleft hnew)
  | listed _ hroom hframes _ _ _ ih =>
    exact .mk hw nofun (fun _ => hroom) hframes fun c hc =>
      ih c hc (hframes c hc ▸ hw.deeper hroom)
  | _ => exact regular_leaf hw rfl rfl

theorem EndsAt.fits {f : Frame} {label : String} {s : Survey} (h : s.EndsAt o f label) :
    s.Fits o f := by
  rw [← h.frame]
  exact ⟨rfl,h.possible.regular⟩

end Survey

namespace Inspector

/-- Every visit restores the trail, and is regular if it starts within the budgets. -/
theorem survey_keeps (i : Inspector) (depth left : UInt32) (label : String) (v : RawValue)
    (trail : List UInt64) :
    (i.survey depth left label v).Keeps trail (Survey.Fits i.options ⟨depth,left,trail⟩) :=
  (survey_ends i depth left label v trail).mono fun _ hs => hs.fits

/-- Whatever the answers, each visit records the frame it finds and restores the trail. On every way
down from the root each visit is within the budgets and steps down without wrapping around; the
depth limit bounds the way, the hops bound the pointers followed on it, and no pointer target is
expanded twice. -/
theorem inspect_obeys_budgets (i : Inspector) (label : String) (v : RawValue) :
    (∀ depth left label v trail, ((i.survey depth left label v).run trail).Always fun r =>
      r.1.frame = ⟨depth,left,trail⟩ ∧ r.2 = trail) ∧
    (i.inspect label v).Always fun root =>
      root.frame = ⟨0,i.options.expandPointers,[]⟩ ∧
      ∀ below, Survey.IsDescent (root :: below) →
        (∀ s ∈ root :: below, s.frame.Within i.options ∧ ∀ c ∈ s.children,
          c.frame.depth.toNat = s.frame.depth.toNat + 1 ∧
          c.frame.pointersLeft.toNat + s.followed.toList.length = s.frame.pointersLeft.toNat ∧
          c.frame.trail = s.followed.toList ++ s.frame.trail) ∧
        below.length ≤ i.options.maxDepth.toNat ∧
        (Survey.expanded (root :: below)).length ≤ i.options.expandPointers.toNat ∧
        (Survey.expanded (root :: below)).Nodup := by
  constructor
  · intro depth left label v trail
    exact Query.Always.mono (survey_keeps i depth left label v trail) fun r hr => ⟨hr.1.1,hr.2⟩
  · unfold inspect
    rw [StateT.run'_eq, map_eq_pure_bind, Query.always_bind]
    apply Query.Always.mono (survey_keeps i 0 i.options.expandPointers label v [])
    rintro ⟨root,_⟩ ⟨⟨hframe,hregular⟩,_⟩
    refine ⟨hframe,fun below hpath => ?_⟩
    have hroot := hregular (Frame.within_root i.options)
    have hlength := hpath.length_le hroot
    have hhops := hpath.expanded_length_le hroot
    have hnodup := hpath.expanded_nodup hroot
    dsimp only at hframe
    rw [hframe] at hlength hhops hnodup
    refine ⟨fun s hs => ?_,by omega,hhops,by simpa [List.nodup_reverse] using hnodup⟩
    have hsr := hpath.regular hroot s hs
    exact ⟨hsr.frame_within,fun c hc => hsr.step_down hc⟩

end Inspector
end ValueInspector
