import ValueInspector.Proofs.Inspector.Trail

/-! # How a visit can end

A visit fails, or comes to rest at its value, or is cut, or goes on below: to the target of a pointer or
to the children of another value. What it records is one of six kinds of surveys, each with what the
options and the frame must have allowed. Answers to requests may be arbitrary, so whatever holds of
these kinds holds of every visit of every inspection.
-/
namespace ValueInspector

namespace Frame

/-- The frame of the visits below, if no pointer is followed. -/
def deeper (f : Frame) : Frame := { f with depth := f.depth + 1 }

/-- The frame of the visit of a pointer's target. -/
def across (f : Frame) (address : UInt64) : Frame :=
  ⟨f.depth + 1,f.pointersLeft - 1,address :: f.trail⟩

end Frame

namespace Survey

/-- A survey that a visit can end with. -/
inductive Possible (o : InspectOptions) : Survey → Prop
  | uninterpreted {label : String} {f : Frame} :
      Possible o { start label f none with summary := some Union.noInterpretation }
  | failed {label : String} {f : Frame} {v : RawValue} {summary : Option String}
      {e : InspectError} : Possible o { start label f (some v) with summary, error := some e }
  /-- Children are neither there nor missing: a leaf, a null pointer, one out of hops, or one whose target
  is incomplete. -/
  | bare {label : String} {f : Frame} {v : RawValue} {summary : Option String} :
      Possible o { start label f (some v) with summary }
  | cut {label : String} {f : Frame} {v : RawValue} {summary : Option String} {mark : Truncation}
      (hmark : mark = .depth ∨ v.ty.isPointer = true ∧ (mark = .cycle ∨ mark = .unresolved)) :
      Possible o { start label f (some v) with summary, truncated := some mark }
  | followed {label : String} {f : Frame} {v : RawValue} {summary : Option String}
      {address : UInt64} {inner : Survey} (hv : v.ty.isPointer = true)
      (hroom : f.depth < o.maxDepth) (hnull : address ≠ 0) (hleft : f.pointersLeft ≠ 0)
      (hnew : address ∉ f.trail) (hframe : inner.frame = f.across address)
      (hlabel : inner.label = "*") (hinner : Possible o inner) :
      Possible o
        { start label f (some v) with summary, followed := some address, children := [inner] }
  | listed {label : String} {f : Frame} {v : RawValue} {summary : Option String}
      {truncated : Option Truncation} {shown : List Survey} (hv : v.ty.isPointer = false)
      (hroom : f.depth < o.maxDepth) (hframes : ∀ c ∈ shown, c.frame = f.deeper)
      (hwithin : shown.length ≤ o.maxChildren.toNat)
      (homitted : ∀ mark ∈ truncated,
        shown.length = o.maxChildren.toNat ∧ ∃ k, 1 ≤ k ∧ mark = .moreChildren k)
      (hshown : ∀ c ∈ shown, Possible o c) :
      Possible o { start label f (some v) with summary, truncated, children := shown }

/-- What a visit at a frame and with a label ends with. -/
structure EndsAt (o : InspectOptions) (f : Frame) (label : String) (s : Survey) : Prop where
  frame : s.frame = f
  label : s.label = label
  possible : s.Possible o

/-- A property of a visit and of all visits below it. -/
inductive All (P : Survey → Prop) : Survey → Prop
  | mk {s : Survey} (here : P s) (below : ∀ c ∈ s.children, All P c) : All P s

theorem All.mono {P Q : Survey → Prop} {s : Survey} (h : s.All P) (hPQ : ∀ t, P t → Q t) :
    s.All Q := by
  induction h with
  | mk here _ ih => exact .mk (hPQ _ here) ih

theorem All.and {P Q : Survey → Prop} {s : Survey} (hp : s.All P) (hq : s.All Q) :
    s.All fun t => P t ∧ Q t := by
  induction hp with
  | mk here _ ih =>
    cases hq with
    | mk here' below' => exact .mk ⟨here,here'⟩ fun c hc => ih c hc (below' c hc)

/-- What holds of all kinds of surveys holds of all visits. -/
theorem Possible.all {o : InspectOptions} {P : Survey → Prop} (hP : ∀ s, s.Possible o → P s)
    {s : Survey} (h : s.Possible o) : s.All P := by
  have hhere := hP s h
  induction h with
  | followed _ _ _ _ _ _ _ hinner ih =>
    refine .mk hhere fun c hc => ?_
    rw [List.mem_singleton.mp hc]
    exact ih (hP _ hinner)
  | listed _ _ _ _ _ hshown ih =>
    exact .mk hhere fun c hc => ih c hc (hP c (hshown c hc))
  | _ => exact .mk hhere nofun

end Survey

namespace Inspector
open Walk Survey
variable {o : InspectOptions} {f : Frame}

/-- What a visit needs to know about the visits below it: there are some only above the depth limit,
and each ends at the frame it finds. -/
def BelowEnds (o : InspectOptions) (depth : UInt32) (below : Option Visit) : Prop :=
  ∀ visit ∈ below, depth < o.maxDepth ∧
    ∀ left label v trail, (visit left label v).Keeps trail (EndsAt o ⟨depth + 1,left,trail⟩ label)

theorem visitChild_ends {below : Visit} (hb : BelowEnds o f.depth (some below)) (c : Child) :
    (visitChild below f.depth f.pointersLeft c).Keeps f.trail (EndsAt o f.deeper c.label) := by
  unfold visitChild
  cases c.value with
  | some v => exact (hb below rfl).2 f.pointersLeft c.label v f.trail
  | none =>
    refine keeps_get.bind fun trail ht => ?_
    subst ht
    exact keeps_pure ⟨rfl,rfl,.uninterpreted⟩

theorem followPointer_ends {below : Option Visit} (hb : BelowEnds o f.depth below) {v : RawValue}
    (hv : v.ty.isPointer = true) (label : String) (summary : Option String) :
    (followPointer below f.pointersLeft v { start label f (some v) with summary }).Keeps f.trail
      (EndsAt o f label) := by
  have hbare : EndsAt o f label { start label f (some v) with summary } := ⟨rfl,rfl,.bare⟩
  have hcut : ∀ mark, mark = .depth ∨ mark = .cycle ∨ mark = .unresolved →
      EndsAt o f label { start label f (some v) with summary, truncated := some mark } :=
    fun mark hmark => ⟨rfl,rfl,.cut (hmark.imp_right fun h => ⟨hv,h⟩)⟩
  unfold followPointer
  refine (keeps_attempt _).bind fun r _ => ?_
  cases r with
  | error e => exact keeps_pure ⟨rfl,rfl,.failed⟩
  | ok n =>
    dsimp only
    split
    · exact keeps_pure hbare
    next hstop =>
      obtain ⟨hnull,hleft⟩ := not_or.mp hstop
      cases below with
      | none => exact keeps_pure (hcut .depth (.inl rfl))
      | some below =>
        obtain ⟨hroom,hbelow⟩ := hb below rfl
        refine keeps_get.bind fun trail ht => ?_
        subst ht
        split
        · exact keeps_pure (hcut .cycle (.inr (.inl rfl)))
        next hnew =>
          refine (keeps_attempt _).bind fun t _ => ?_
          split
          · exact keeps_pure hbare
          · exact keeps_pure (hcut .unresolved (.inr (.inr rfl)))
          next target =>
            refine (hbelow _ "*" target _).under.bind fun inner hinner => ?_
            exact keeps_pure ⟨rfl,rfl,.followed hv hroom hnull hleft hnew
              hinner.frame hinner.label hinner.possible⟩

theorem listChildren_ends {i : Inspector} {below : Option Visit}
    (hb : BelowEnds i.options f.depth below) {v : RawValue} (hv : v.ty.isPointer = false)
    (label : String) (summary : Option String) :
    (i.listChildren below f.depth f.pointersLeft v { start label f (some v) with summary }).Keeps
      f.trail (EndsAt i.options f label) := by
  unfold listChildren
  refine (keeps_attempt _).bind fun r _ => ?_
  cases r with
  | error e => exact keeps_pure ⟨rfl,rfl,.failed⟩
  | ok children =>
    dsimp only
    split
    · exact keeps_pure ⟨rfl,rfl,.bare⟩
    · cases below with
      | none => exact keeps_pure ⟨rfl,rfl,.cut (.inl rfl)⟩
      | some below =>
        have hvisit : ∀ c, (visitChild below f.depth f.pointersLeft c).Keeps f.trail
            fun s => s.frame = f.deeper ∧ s.Possible i.options := fun c =>
          (visitChild_ends hb c).mono fun s hs => ⟨hs.frame,hs.possible⟩
        refine (Keeps.forEach fun c _ => hvisit c).bind fun shown hall => ?_
        obtain ⟨hlength,hshown⟩ := hall
        rw [List.length_take] at hlength
        refine keeps_pure ⟨rfl,rfl,.listed hv (hb below rfl).1 (fun c hc => (hshown c hc).1)
          (Nat.le_trans (Nat.le_of_eq hlength) (Nat.min_le_left _ _)) (fun mark hmark => ?_)
          fun c hc => (hshown c hc).2⟩
        split at hmark
        · cases hmark
        · cases hmark
          exact ⟨by omega,_,by omega,rfl⟩

/-- A visit restores the trail and ends at its frame, if the visits below do. -/
theorem visit_ends {i : Inspector} {below : Option Visit} (hb : BelowEnds i.options f.depth below)
    (label : String) (v : RawValue) :
    (i.visit below f.depth f.pointersLeft label v).Keeps f.trail (EndsAt i.options f label) := by
  unfold visit
  refine keeps_get.bind fun trail ht => ?_
  subst ht
  refine (keeps_attempt _).bind fun r _ => ?_
  cases r with
  | error e => exact keeps_pure ⟨rfl,rfl,.failed⟩
  | ok summary =>
    cases hv : v.ty.isPointer with
    | true => exact followPointer_ends hb hv label _
    | false => exact listChildren_ends hb hv label _

/-- Every visit restores the trail and ends at the frame it finds. -/
theorem survey_ends (i : Inspector) (depth left : UInt32) (label : String) (v : RawValue)
    (trail : List UInt64) :
    (i.survey depth left label v).Keeps trail (EndsAt i.options ⟨depth,left,trail⟩ label) := by
  induction depth using survey.induct i generalizing left label v trail with
  | case1 depth ih =>
    rw [survey]
    refine visit_ends (f := ⟨depth,left,trail⟩) (fun visit hvisit => ?_) label v
    split at hvisit
    next hd =>
      cases hvisit
      exact ⟨hd,ih hd⟩
    · cases hvisit

/-- Whatever the answers, an inspection ends as a visit does. -/
theorem inspect_ends (i : Inspector) (label : String) (v : RawValue) :
    (i.inspect label v).Always (EndsAt i.options ⟨0,i.options.expandPointers,[]⟩ label) := by
  unfold inspect
  rw [StateT.run'_eq, map_eq_pure_bind, Query.always_bind]
  exact Query.Always.mono (survey_ends i 0 i.options.expandPointers label v []) fun r hr => hr.1

end Inspector
end ValueInspector
