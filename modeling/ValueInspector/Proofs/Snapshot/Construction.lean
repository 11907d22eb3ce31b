import Mathlib.Data.List.Induction
import ValueInspector.Proofs.Memory.History

/-! # Constructions

A construction runs steps on an empty builder and keeps all their results. A step concerns either the
type table or the memory, and neither kind sees what the other does: the builder reached is the one
the type steps alone lead to, over the memory the memory steps alone lead to.
-/
namespace ValueInspector

/-- A builder step that concerns the type table. -/
inductive TypeStep where
  | define (name : String) (layout : Layout)
  | primitive (name : String) (p : Primitive)
  | record (name : String) (size : Nat) (fields : List FieldDef)
  | declare (name : String)
deriving DecidableEq

namespace TypeStep

def apply : TypeStep → Change SnapshotBuilder TypeDesc
  | .define name layout => SnapshotBuilder.define name layout
  | .primitive name p => SnapshotBuilder.primitive name p
  | .record name size fields => SnapshotBuilder.record name size fields
  | .declare name => SnapshotBuilder.declare name

/-- The trimmed name a step is about. -/
def name : TypeStep → String
  | .define name _ | .primitive name _ | .record name _ _ | .declare name => Text.trimmed name

/-- The layout a step defines its name with, if it does more than to reserve it. -/
def layout? : TypeStep → Option Layout
  | .define _ layout => some layout
  | .primitive _ p => some (.primitive p)
  | .record _ size fields => some (.record size fields)
  | .declare _ => none

end TypeStep

namespace SnapshotBuilder

/-- The builder with one more entry, which is only reserved if no layout is given. -/
def added (b : SnapshotBuilder) (name : String) (layout? : Option Layout) : SnapshotBuilder where
  snapshot :=
    { b.snapshot with
      entries := b.snapshot.entries.push ⟨name,layout?.getD (.blob 0)⟩
      byName := (name,b.nextId) :: b.snapshot.byName }
  declared := if layout?.isSome then b.declared else b.nextId :: b.declared

/-- The builder with a reserved entry defined, or reserved again if no layout is given. -/
def completed (b : SnapshotBuilder) (id : UInt32) (layout? : Option Layout) : SnapshotBuilder where
  snapshot :=
    { b.snapshot with
      entries := b.snapshot.entries.modify id.toNat ({ · with layout := layout?.getD (.blob 0) }) }
  declared :=
    if layout?.isSome then b.declared.filter (· ≠ id) else id :: b.declared.filter (· ≠ id)

section Declared
variable {b : SnapshotBuilder} {layout? : Option Layout} {id : UInt32}

theorem mem_declared_added {name : String} : id ∈ (b.added name layout?).declared ↔
    id ∈ b.declared ∨ id = b.nextId ∧ layout? = none := by
  cases layout? <;> simp [added, or_comm]

theorem mem_declared_completed {other : UInt32} : other ∈ (b.completed id layout?).declared ↔
    other ∈ b.declared ∧ other ≠ id ∨ other = id ∧ layout? = none := by
  cases layout? <;> simp [completed, or_comm]

end Declared

variable (b : SnapshotBuilder) (m : Memory)

@[simp] theorem overMemory_byName : (b.overMemory m).snapshot.byName = b.snapshot.byName := rfl
@[simp] theorem overMemory_entries : (b.overMemory m).snapshot.entries = b.snapshot.entries := rfl
@[simp] theorem overMemory_memory : (b.overMemory m).snapshot.memory = m := rfl
@[simp] theorem overMemory_declared : (b.overMemory m).declared = b.declared := rfl
@[simp] theorem overMemory_lookupType :
    (b.overMemory m).snapshot.lookupType = b.snapshot.lookupType := rfl

end SnapshotBuilder

theorem SnapshotBuilder.release_eq (b : SnapshotBuilder) (id : UInt32) :
    (release id).run b = .ok (decide (id ∈ b.declared)) ⟨b.snapshot,b.declared.filter (· ≠ id)⟩ := rfl

/-- An id that is not declared is not there to be taken out. -/
theorem SnapshotBuilder.filter_declared_of_not_mem {b : SnapshotBuilder} {id : UInt32}
    (hid : id ∉ b.declared) : b.declared.filter (· ≠ id) = b.declared := by
  refine List.filter_eq_self.mpr fun other hother => decide_eq_true ?_
  rintro rfl
  exact hid hother

/-- All that a definition can do. -/
theorem SnapshotBuilder.define_eq (b : SnapshotBuilder) (name : String) (layout : Layout) :
    (define name layout).run b =
      match b.snapshot.byName.lookup (Text.trimmed name) with
      | none => .ok (.plain b.nextId (Text.trimmed name)) (b.added (Text.trimmed name) (some layout))
      | some id =>
        if id ∈ b.declared then
          .ok (.plain id (Text.trimmed name)) (b.completed id (some layout))
        else .error (.duplicateType (Text.trimmed name)) b := by
  simp only [define, EStateM.run_bind, EStateM.run_get]
  cases b.snapshot.byName.lookup (Text.trimmed name) with
  | none => rfl
  | some id =>
    simp only [EStateM.run_bind, release_eq]
    by_cases hid : id ∈ b.declared
    · simp only [hid, if_pos, decide_true]
      rfl
    · simp only [hid, decide_false, filter_declared_of_not_mem hid]
      rfl

/-- All that a type step can do. -/
theorem TypeStep.apply_eq (s : TypeStep) (b : SnapshotBuilder) :
    s.apply.run b =
      match b.snapshot.byName.lookup s.name with
      | none => .ok (.plain b.nextId s.name) (b.added s.name s.layout?)
      | some id =>
        if id ∈ b.declared then .ok (.plain id s.name) (b.completed id s.layout?)
        else .error (.duplicateType s.name) b := by
  cases s with
  | define name layout => exact b.define_eq name layout
  | primitive name p => exact b.define_eq name _
  | record name size fields => exact b.define_eq name _
  | declare name =>
    rw [apply, SnapshotBuilder.declare, EStateM.run_bind, b.define_eq, TypeStep.name]
    cases b.snapshot.byName.lookup (Text.trimmed name) with
    | none => rfl
    | some id =>
      by_cases hid : id ∈ b.declared
      · simp only [if_pos hid]
        rfl
      · simp only [if_neg hid]

/-- A type step fails for its name alone, and then it changes nothing. -/
theorem TypeStep.apply_eq_error {s : TypeStep} {b b' : SnapshotBuilder} {e : InspectError}
    (he : s.apply.run b = .error e b') : e = .duplicateType s.name ∧ b' = b := by
  rw [apply_eq] at he
  cases hl : b.snapshot.byName.lookup s.name with
  | none =>
    rw [hl] at he
    cases he
  | some id =>
    simp only [hl] at he
    split at he
    · cases he
    · cases he
      exact ⟨rfl,rfl⟩

theorem TypeStep.apply_overMemory (s : TypeStep) (b : SnapshotBuilder) (m : Memory) :
    s.apply.run (b.overMemory m) = Change.mapState (·.overMemory m) (s.apply.run b) := by
  rw [apply_eq, apply_eq, SnapshotBuilder.overMemory_byName]
  cases b.snapshot.byName.lookup s.name with
  | none => rfl
  | some id =>
    dsimp only
    by_cases hid : id ∈ b.declared
    · rw [if_pos hid, if_pos (by rwa [SnapshotBuilder.overMemory_declared])]
      rfl
    · rw [if_neg hid, if_neg (by rwa [SnapshotBuilder.overMemory_declared])]
      rfl

theorem MemoryStep.run_apply (s : MemoryStep) (b : SnapshotBuilder) :
    s.apply.run b = Change.mapState b.overMemory (s.onMemory.run b.snapshot.memory) := by
  rw [apply_eq]
  rfl

inductive BuilderStep where
  | type (s : TypeStep)
  | memory (s : MemoryStep)

namespace BuilderStep

/-- What a step leads to, with the descriptor a type step returns. -/
def apply : BuilderStep → Change SnapshotBuilder (Option TypeDesc)
  | .type s => do return some (← s.apply)
  | .memory s => do
    s.apply
    return none

def isType : BuilderStep → Bool
  | .type _ => true
  | .memory _ => false

@[simp] theorem isType_type (s : TypeStep) : (type s).isType = true := rfl
@[simp] theorem isType_memory (s : MemoryStep) : (memory s).isType = false := rfl

end BuilderStep

/-- A builder, and the steps that were run on it, each with its result. -/
structure Construction where
  builder : SnapshotBuilder
  results : List (BuilderStep × Except InspectError (Option TypeDesc))

namespace Construction

def start : Construction := ⟨.empty,[]⟩

/-- The builder that a step leaves, and what the step returned. -/
def next (c : Construction) (s : BuilderStep) : Construction :=
  match s.apply.run c.builder with
  | .ok ty b => ⟨b,c.results ++ [(s,.ok ty)]⟩
  | .error e b => ⟨b,c.results ++ [(s,.error e)]⟩

def ofSteps (steps : List BuilderStep) : Construction := steps.foldl next start

theorem ofSteps_concat (steps : List BuilderStep) (s : BuilderStep) :
    ofSteps (steps ++ [s]) = (ofSteps steps).next s := by
  rw [ofSteps, List.foldl_append]
  rfl

/-- Each step has one result. -/
theorem map_results (steps : List BuilderStep) : (ofSteps steps).results.map (·.1) = steps := by
  induction steps using List.reverseRecOn with
  | nil => rfl
  | append_singleton steps s ih =>
    rw [ofSteps_concat, next]
    split <;> rw [List.map_append, ih] <;> rfl

/-- Both kinds of steps side by side: the builder and the results of a mixed construction are those
of its type steps and of its memory steps. -/
structure Mixes (c types memories : Construction) : Prop where
  builder_eq : c.builder = types.builder.overMemory memories.builder.snapshot.memory
  type_results : c.results.filter (·.1.isType) = types.results
  memory_results : c.results.filter (!·.1.isType) = memories.results

theorem Mixes.next_type {c types memories : Construction} (h : Mixes c types memories)
    (s : TypeStep) : Mixes (c.next (.type s)) (types.next (.type s)) memories := by
  have hs := s.apply_overMemory types.builder memories.builder.snapshot.memory
  rw [← h.builder_eq] at hs
  have htypes := h.type_results
  have hmemories := h.memory_results
  simp only [next, BuilderStep.apply, EStateM.run_bind, hs]
  cases s.apply.run types.builder with
  | error e b => exact ⟨rfl,by simp [Change.mapState, htypes],by simp [Change.mapState, hmemories]⟩
  | ok ty b => exact ⟨rfl,by simp [Change.mapState, htypes],by simp [Change.mapState, hmemories]⟩

theorem Mixes.next_memory {c types memories : Construction} (h : Mixes c types memories)
    (s : MemoryStep) : Mixes (c.next (.memory s)) types (memories.next (.memory s)) := by
  have hmemory : c.builder.snapshot.memory = memories.builder.snapshot.memory := by
    rw [h.builder_eq, SnapshotBuilder.overMemory_memory]
  have hover : ∀ m, c.builder.overMemory m = types.builder.overMemory m := fun m => by
    rw [h.builder_eq]
    rfl
  have htypes := h.type_results
  have hmemories := h.memory_results
  simp only [next, BuilderStep.apply, EStateM.run_bind, MemoryStep.run_apply, hmemory]
  cases s.onMemory.run memories.builder.snapshot.memory with
  | error e m => exact ⟨hover m,by simp [Change.mapState, htypes],by simp [Change.mapState, hmemories]⟩
  | ok _ m => exact ⟨hover m,by simp [Change.mapState, htypes],by simp [Change.mapState, hmemories]⟩

theorem mixes_ofSteps (steps : List BuilderStep) :
    Mixes (ofSteps steps) (ofSteps (steps.filter (·.isType)))
      (ofSteps (steps.filter (!·.isType))) := by
  induction steps using List.reverseRecOn with
  | nil => exact ⟨rfl,rfl,rfl⟩
  | append_singleton steps s ih =>
    cases s with
    | type s => simpa [List.filter_cons, ofSteps_concat] using ih.next_type s
    | memory s => simpa [List.filter_cons, ofSteps_concat] using ih.next_memory s

/-- The type steps that succeeded, each with the descriptor it returned. -/
def granted (c : Construction) : List (TypeStep × TypeDesc) :=
  c.results.filterMap fun
    | (.type s, .ok (some ty)) => some (s,ty)
    | _ => none

end Construction
end ValueInspector
