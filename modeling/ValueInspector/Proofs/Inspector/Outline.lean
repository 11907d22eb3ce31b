import ValueInspector.Proofs.Inspector.Budgets
import ValueInspector.Proofs.Query.Outcomes

/-! # Inspections with the answers at hand

When each request has one answer, an inspection is a recursion on the levels left, with no trail to
restore: a visit finds its frame and hands the next one down. The outline of a value is that
recursion, and the survey evaluates to it.
-/
namespace ValueInspector

namespace Walk
variable {α β : Type} (host : (r : Request) → r.Answer)

/-- The result of a walk and the trail after it. -/
def eval (w : Walk α) (trail : List UInt64) : α × List UInt64 := (w.run trail).eval host

variable {host} {trail : List UInt64}

@[simp] theorem eval_pure (a : α) : (pure a : Walk α).eval host trail = (a,trail) := rfl

@[simp] theorem eval_get : (get : Walk (List UInt64)).eval host trail = (trail,trail) := rfl

@[simp] theorem eval_bind (w : Walk α) (f : α → Walk β) :
    (w >>= f).eval host trail = (f (w.eval host trail).1).eval host (w.eval host trail).2 := by
  unfold eval
  rw [StateT.run_bind, Query.eval_bind]

@[simp] theorem eval_attempt (q : Decode α) :
    (attempt q).eval host trail = (q.run.eval host,trail) := by
  unfold eval attempt
  rw [StateT.run_lift, Query.eval_bind]
  rfl

theorem eval_under {w : Walk α} {address : UInt64} {a : α}
    (h : w.eval host (address :: trail) = (a,address :: trail)) :
    (under address w).eval host trail = (a,trail) := by
  unfold under
  rw [eval_bind]
  change (w >>= fun a => modify List.tail >>= fun _ => pure a).eval host (address :: trail) = _
  rw [eval_bind, h]
  rfl

theorem eval_forEach {f : α → Walk β} {g : α → β} {l : List α}
    (h : ∀ a ∈ l, (f a).eval host trail = (g a,trail)) :
    (forEach f l).eval host trail = (l.map g,trail) := by
  induction l with
  | nil => rfl
  | cons a rest ih =>
    have hrest := ih fun b hb => h b (List.mem_cons_of_mem a hb)
    simp only [forEach, eval_bind, h a List.mem_cons_self, hrest, eval_pure, List.map_cons]

end Walk

namespace Inspector

/-- What a visit that finds a frame makes of a labelled value. -/
abbrev Look := Frame → String → RawValue → Survey

def outlineChild (below : Look) (f : Frame) (c : Child) : Survey :=
  match c.value with
  | some v => below f c.label v
  | none => { Survey.start c.label f none with summary := some Union.noInterpretation }

section Answered
variable (host : (r : Request) → r.Answer)

def outlinePointer (below : Option Look) (v : RawValue) (s : Survey) : Survey :=
  match host (.readInteger v) with
  | .error e => { s with error := some e }
  | .ok n =>
    if n.toUInt64 = 0 ∨ s.frame.pointersLeft = 0 then s
    else
      match below with
      | none => { s with truncated := some .depth }
      | some below =>
        if n.toUInt64 ∈ s.frame.trail then { s with truncated := some .cycle }
        else
          match host (.dereference v) with
          | .error (.incompleteType _) => s
          | .error _ => { s with truncated := some .unresolved }
          | .ok target =>
            { s with
              followed := some n.toUInt64
              children := [below (s.frame.across n.toUInt64) "*" target] }

def outlineMembers (i : Inspector) (below : Option Look) (v : RawValue) (s : Survey) : Survey :=
  match (i.children v).run.eval host with
  | .error e => { s with error := some e }
  | .ok children =>
    if children.isEmpty then s
    else
      match below with
      | none => { s with truncated := some .depth }
      | some below =>
        let limit := i.options.maxChildren.toNat
        let omitted := children.length - limit
        { s with
          truncated := if omitted = 0 then none else some (.moreChildren omitted)
          children := (children.take limit).map (outlineChild below s.frame.deeper) }

def outlineValue (i : Inspector) (below : Option Look) : Look := fun f label v =>
  let s := Survey.start label f (some v)
  match (i.summarize v).run.eval host with
  | .error e => { s with error := some e }
  | .ok summary =>
    let s := { s with summary := summary.map (truncateText i.options.maxTextLen.toNat) }
    if v.ty.isPointer then outlinePointer host below v s else i.outlineMembers host below v s

/-- A value and what lies below it, some levels deep. -/
def outline (i : Inspector) : Nat → Look
  | 0 => i.outlineValue host none
  | levels + 1 => i.outlineValue host (some (i.outline levels))

variable {host} {f : Frame}

/-- The visits below evaluate to what the outline takes them to be. -/
def BelowIs (host : (r : Request) → r.Answer) (depth : UInt32) : Option Visit → Option Look → Prop
  | none, none => True
  | some visit, some look => ∀ left label v trail,
      (visit left label v).eval host trail = (look ⟨depth + 1,left,trail⟩ label v,trail)
  | _, _ => False

theorem eval_visitChild {visit : Visit} {look : Look}
    (hb : BelowIs host f.depth (some visit) (some look)) (c : Child) :
    (visitChild visit f.depth f.pointersLeft c).eval host f.trail =
      (outlineChild look f.deeper c,f.trail) := by
  unfold visitChild outlineChild
  cases c.value with
  | some v => exact hb f.pointersLeft c.label v f.trail
  | none => rfl

theorem eval_followPointer {below : Option Visit} {look : Option Look}
    (hb : BelowIs host f.depth below look) (v : RawValue) {s : Survey} (hs : s.frame = f) :
    (followPointer below f.pointersLeft v s).eval host f.trail =
      (outlinePointer host look v s,f.trail) := by
  subst hs
  unfold followPointer outlinePointer
  rw [Walk.eval_bind, Walk.eval_attempt, Decode.eval_readInteger]
  cases host (.readInteger v) with
  | error e => rfl
  | ok n =>
    dsimp only
    split
    · rfl
    · cases below with
      | none =>
        cases look with
        | none => rfl
        | some look => exact hb.elim
      | some visit =>
        cases look with
        | none => exact hb.elim
        | some look =>
          dsimp only
          rw [Walk.eval_bind, Walk.eval_get]
          split
          · rfl
          · rw [Walk.eval_bind, Walk.eval_attempt, Decode.eval_dereference]
            cases host (.dereference v) with
            | error e => cases e <;> rfl
            | ok target =>
              dsimp only
              rw [Walk.eval_bind, Walk.eval_under (hb _ "*" _ _)]
              rfl

theorem eval_listChildren (i : Inspector) {below : Option Visit} {look : Option Look}
    (hb : BelowIs host f.depth below look) (v : RawValue) {s : Survey} (hs : s.frame = f) :
    (i.listChildren below f.depth f.pointersLeft v s).eval host f.trail =
      (i.outlineMembers host look v s,f.trail) := by
  subst hs
  unfold listChildren outlineMembers
  rw [Walk.eval_bind, Walk.eval_attempt]
  cases (i.children v).run.eval host with
  | error e => rfl
  | ok children =>
    dsimp only
    split
    · rfl
    · cases below with
      | none =>
        cases look with
        | none => rfl
        | some look => exact hb.elim
      | some visit =>
        cases look with
        | none => exact hb.elim
        | some look =>
          dsimp only
          rw [Walk.eval_bind, Walk.eval_forEach fun c _ => eval_visitChild hb c]
          rfl

theorem eval_visit (i : Inspector) {below : Option Visit} {look : Option Look}
    (hb : BelowIs host f.depth below look) (label : String) (v : RawValue) :
    (i.visit below f.depth f.pointersLeft label v).eval host f.trail =
      (i.outlineValue host look f label v,f.trail) := by
  unfold visit outlineValue
  rw [Walk.eval_bind, Walk.eval_get]
  dsimp only
  rw [Walk.eval_bind, Walk.eval_attempt]
  cases (i.summarize v).run.eval host with
  | error e => rfl
  | ok summary =>
    dsimp only
    split
    · exact eval_followPointer hb v rfl
    · exact eval_listChildren i hb v rfl

/-- The survey at a frame evaluates to the outline of the levels below the depth limit, and leaves
the trail as it was. -/
theorem eval_survey (i : Inspector) (depth left : UInt32) (label : String) (v : RawValue)
    (trail : List UInt64) :
    (i.survey depth left label v).eval host trail =
      (i.outline host (i.options.maxDepth.toNat - depth.toNat) ⟨depth,left,trail⟩ label v,
        trail) := by
  induction depth using survey.induct i generalizing left label v trail with
  | case1 depth ih =>
    rw [survey]
    by_cases hd : depth < i.options.maxDepth
    · have hlevels : i.options.maxDepth.toNat - depth.toNat =
          i.options.maxDepth.toNat - (depth + 1).toNat + 1 := by
        have hlt := UInt32.lt_iff_toNat_lt.mp hd
        rw [toNat_depth_succ hd]
        omega
      have hbelow : BelowIs host depth (some (i.survey (depth + 1)))
          (some (i.outline host (i.options.maxDepth.toNat - (depth + 1).toNat))) := ih hd
      rw [dif_pos hd, hlevels, outline]
      exact eval_visit (f := ⟨depth,left,trail⟩) i hbelow label v
    · have hlevels : i.options.maxDepth.toNat - depth.toNat = 0 :=
        Nat.sub_eq_zero_of_le (Nat.le_of_not_lt fun h => hd (UInt32.lt_iff_toNat_lt.mpr h))
      have hbelow : BelowIs host depth none none := trivial
      rw [dif_neg hd, hlevels, outline]
      exact eval_visit (f := ⟨depth,left,trail⟩) i hbelow label v

/-- The outline from the root. -/
theorem eval_inspect (i : Inspector) (label : String) (v : RawValue) :
    (i.inspect label v).eval host =
      i.outline host i.options.maxDepth.toNat ⟨0,i.options.expandPointers,[]⟩ label v := by
  unfold inspect
  rw [StateT.run'_eq, Query.eval_map]
  exact congrArg Prod.fst (eval_survey i 0 i.options.expandPointers label v [])

end Answered
end Inspector
end ValueInspector
