import ValueInspector.Proofs.Inspector.Endings

/-! # What a visit records of its value

Of its value a visit records a summary and an error, and either may be missing. Both come of the queries
for the summary and for the children, and of the address if the value is a pointer; nothing that is done to
the survey afterwards changes them. So a property of a value, its summary and its error that holds of all
those queries can come to holds throughout a tree, whatever the answers.
-/
namespace ValueInspector

/-- A property of a value with the summary and the error that are recorded of it. -/
abbrev Account := RawValue → Option String → Option InspectError → Prop

namespace Survey

/-- What is recorded of a value has the property, and a fixed text stands for a missing one. -/
structure Accounts (P : Account) (s : Survey) : Prop where
  value : ∀ v ∈ s.value, P v s.summary s.error
  placeholder : s.value = none → s.summary = some Union.noInterpretation ∧ s.error = none

variable {P : Account}

theorem accounts_start {label : String} {f : Frame} {v : RawValue} {summary : Option String}
    {error : Option InspectError} {truncated : Option Truncation} {followed : Option UInt64}
    {children : List Survey} (h : P v summary error) :
    Accounts P ⟨label,f,some v,summary,error,truncated,followed,children⟩ where
  value w hw := by
    cases hw
    exact h
  placeholder := nofun

theorem All.leaf {P : Survey → Prop} {s : Survey} (h : P s) (hc : s.children = []) : s.All P :=
  .mk h fun _ hmem => absurd hmem (hc ▸ List.not_mem_nil)

end Survey

namespace Inspector
open Walk Survey

/-- Whatever the answers, what can be recorded of a value has the property: an error alone if there is
no summary, a summary alone, and a summary with the error of a pointer's address or of the children. -/
structure Settles (i : Inspector) (P : Account) (v : RawValue) : Prop where
  failed : (i.summarize v).run.Always fun r => ∀ e, r = .error e → P v none (some e)
  shown : (i.summarize v).run.Always fun r => ∀ said, r = .ok said →
    P v (said.map (truncateText i.options.maxTextLen.toNat)) none
  lost : v.ty.isPointer = true → ∀ said e,
    P v (Option.map (truncateText i.options.maxTextLen.toNat) said) (some e)
  childless : v.ty.isPointer = false → (i.children v).run.Always fun r => ∀ e, r = .error e →
    ∀ said, P v (Option.map (truncateText i.options.maxTextLen.toNat) said) (some e)

section Settled
variable {i : Inspector} {P : Account} {trail : List UInt64}

/-- The visits below record what has the property. -/
def BelowAccounts (P : Account) (below : Option Visit) : Prop :=
  ∀ visit ∈ below, ∀ left label v trail,
    (visit left label v).Keeps trail (Survey.All (Accounts P))

theorem visitChild_accounts {below : Visit} (hb : BelowAccounts P (some below))
    (depth left : UInt32) (c : Child) :
    (visitChild below depth left c).Keeps trail (Survey.All (Accounts P)) := by
  unfold visitChild
  cases c.value with
  | some v => exact hb below rfl left c.label v trail
  | none =>
    refine keeps_get.bind fun _ _ => keeps_pure ?_
    exact .leaf ⟨nofun,fun _ => ⟨rfl,rfl⟩⟩ rfl

section Completed
variable {below : Option Visit} (hb : BelowAccounts P below) (left : UInt32) {v : RawValue}
  (hv : i.Settles P v) {label : String} {f : Frame} {said : Option String}
  (hshown : P v (said.map (truncateText i.options.maxTextLen.toNat)) none)
include hb hv hshown

theorem followPointer_accounts (hpointer : v.ty.isPointer = true) :
    (followPointer below left v { start label f (some v) with
      summary := said.map (truncateText i.options.maxTextLen.toNat) }).Keeps trail
      (Survey.All (Accounts P)) := by
  unfold followPointer
  refine (keeps_attempt _).bind fun r _ => ?_
  cases r with
  | error e => exact keeps_pure (.leaf (accounts_start (hv.lost hpointer said e)) rfl)
  | ok n =>
    dsimp only
    split
    · exact keeps_pure (.leaf (accounts_start hshown) rfl)
    · cases below with
      | none => exact keeps_pure (.leaf (accounts_start hshown) rfl)
      | some below =>
        refine keeps_get.bind fun _ _ => ?_
        split
        · exact keeps_pure (.leaf (accounts_start hshown) rfl)
        · refine (keeps_attempt _).bind fun t _ => ?_
          split
          · exact keeps_pure (.leaf (accounts_start hshown) rfl)
          · exact keeps_pure (.leaf (accounts_start hshown) rfl)
          next target =>
            refine (hb below rfl _ "*" target _).under.bind fun inner hinner => ?_
            refine keeps_pure (.mk (accounts_start hshown) fun c hmem => ?_)
            rw [List.mem_singleton.mp hmem]
            exact hinner

theorem listChildren_accounts (hpointer : v.ty.isPointer = false) (depth : UInt32) :
    (i.listChildren below depth left v { start label f (some v) with
      summary := said.map (truncateText i.options.maxTextLen.toNat) }).Keeps trail
      (Survey.All (Accounts P)) := by
  unfold listChildren
  refine (Keeps.attempt (hv.childless hpointer)).bind fun r hr => ?_
  cases r with
  | error e => exact keeps_pure (.leaf (accounts_start (hr e rfl said)) rfl)
  | ok children =>
    dsimp only
    split
    · exact keeps_pure (.leaf (accounts_start hshown) rfl)
    · cases below with
      | none => exact keeps_pure (.leaf (accounts_start hshown) rfl)
      | some below =>
        refine (Keeps.forEach fun c _ => visitChild_accounts hb depth left c).bind
          fun shown hall => ?_
        exact keeps_pure (.mk (accounts_start hshown) hall.2)

end Completed

/-- A visit records what has the property, if the visits below do. -/
theorem visit_accounts {below : Option Visit} (hb : BelowAccounts P below) (depth left : UInt32)
    (label : String) {v : RawValue} (hv : i.Settles P v) :
    (i.visit below depth left label v).Keeps trail (Survey.All (Accounts P)) := by
  unfold visit
  refine keeps_get.bind fun f _ => ?_
  refine (Keeps.attempt (hv.failed.and hv.shown)).bind fun r hr => ?_
  cases r with
  | error e => exact keeps_pure (.leaf (accounts_start (hr.1 e rfl)) rfl)
  | ok said =>
    cases hpointer : v.ty.isPointer with
    | true => exact followPointer_accounts hb left hv (hr.2 said rfl) hpointer
    | false => exact listChildren_accounts hb left hv (hr.2 said rfl) hpointer depth

theorem survey_accounts (h : ∀ v, i.Settles P v) (depth left : UInt32) (label : String)
    (v : RawValue) (trail : List UInt64) :
    (i.survey depth left label v).Keeps trail (Survey.All (Accounts P)) := by
  induction depth using survey.induct i generalizing left label v trail with
  | case1 depth ih =>
    rw [survey]
    refine visit_accounts (fun visit hvisit => ?_) depth left label (h v)
    split at hvisit
    next hd =>
      cases hvisit
      exact ih hd
    · cases hvisit

/-- What the queries for any value settle is recorded of every value of every inspection. -/
theorem inspect_accounts (h : ∀ v, i.Settles P v) (label : String) (v : RawValue) :
    (i.inspect label v).Always (Survey.All (Accounts P)) := by
  unfold inspect
  rw [StateT.run'_eq, map_eq_pure_bind, Query.always_bind]
  exact Query.Always.mono (survey_accounts h 0 i.options.expandPointers label v []) fun r hr => hr.1

end Settled
end Inspector
end ValueInspector
