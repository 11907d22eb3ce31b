import ValueInspector.Inspector
import ValueInspector.Proofs.Query.Outcomes

/-! # Walks that restore the trail

A walk keeps a trail if, started with it and whatever the answers to its requests, it ends with the
same trail. Each part of an inspection does, also when it fails or breaks off.
-/
namespace ValueInspector.Walk
variable {α β : Type} {P : α → Prop} {Q : β → Prop} {trail : List UInt64}

/-- Started with the trail, the walk ends with it and with a result that has the property. -/
def Keeps (w : Walk α) (trail : List UInt64) (P : α → Prop) : Prop :=
  (w.run trail).Always fun r => P r.1 ∧ r.2 = trail

theorem Keeps.mono {P' : α → Prop} {w : Walk α} (h : w.Keeps trail P) (hP : ∀ a, P a → P' a) :
    w.Keeps trail P' :=
  Query.Always.mono h fun r hr => ⟨hP r.1 hr.1,hr.2⟩

theorem keeps_pure {a : α} (h : P a) : (pure a : Walk α).Keeps trail P := ⟨h,rfl⟩

theorem Keeps.bind {w : Walk α} {f : α → Walk β} (hw : w.Keeps trail P)
    (hf : ∀ a, P a → (f a).Keeps trail Q) : (w >>= f).Keeps trail Q := by
  unfold Keeps
  rw [StateT.run_bind, Query.always_bind]
  apply Query.Always.mono hw
  rintro ⟨a,t⟩ ⟨ha,ht⟩
  obtain rfl : t = trail := ht
  exact hf a ha

theorem keeps_get : (get : Walk (List UInt64)).Keeps trail (· = trail) := ⟨rfl,rfl⟩

/-- What can come of a query comes of its attempt. -/
theorem Keeps.attempt {q : Decode α} {P : Except InspectError α → Prop} (h : q.run.Always P) :
    (attempt q).Keeps trail P := by
  unfold Keeps Walk.attempt
  rw [StateT.run_lift, Query.always_bind]
  exact Query.Always.mono h fun _ hr => ⟨hr,rfl⟩

theorem keeps_attempt (q : Decode α) : (attempt q).Keeps trail fun _ => True :=
  .attempt (Query.always_true q)

/-- What goes on the trail comes off it again. -/
theorem Keeps.under {address : UInt64} {w : Walk α} (h : w.Keeps (address :: trail) P) :
    (under address w).Keeps trail P := by
  unfold Keeps Walk.under
  simp only [StateT.run_bind, StateT.run_modify, StateT.run_pure, pure_bind]
  rw [Query.always_bind]
  apply Query.Always.mono h
  rintro ⟨a,t⟩ ⟨ha,ht⟩
  obtain rfl : t = address :: trail := ht
  exact ⟨ha,rfl⟩

/-- There is one result for each element. -/
theorem Keeps.forEach {f : α → Walk β} {l : List α} (h : ∀ a ∈ l, (f a).Keeps trail Q) :
    (Walk.forEach f l).Keeps trail fun bs => bs.length = l.length ∧ ∀ b ∈ bs, Q b := by
  induction l with
  | nil => exact keeps_pure ⟨rfl,nofun⟩
  | cons a rest ih =>
    refine (h a List.mem_cons_self).bind fun b hb => ?_
    refine (ih fun c hc => h c (List.mem_cons_of_mem a hc)).bind fun bs hbs => ?_
    exact keeps_pure ⟨congrArg (· + 1) hbs.1,List.forall_mem_cons.mpr ⟨hb,hbs.2⟩⟩

end ValueInspector.Walk
