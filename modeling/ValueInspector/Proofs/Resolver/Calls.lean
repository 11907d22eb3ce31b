import ValueInspector.Proofs.FirstOccurrences
import ValueInspector.Proofs.Resolver.Cache

/-! # Sequences of resolver calls

A resolver answers calls one after another and keeps what its demangler said. The names it hands over
are logged by the calls that need the demangler, and every answer can be told from the table of what
is remembered at the end, since an entry never changes once it is made. So answers depend on the
stripped name only, also where the demangler contradicts itself.
-/
namespace ValueInspector

/-- A call on a resolver: for a type alone, or for the step and the spelling that led to it too. -/
inductive ResolverCall where
  | plain (name : String)
  | traced (name : String)

inductive ResolverAnswer where
  | plain (ty : Option TypeDesc)
  | traced (found : Option Resolved)

namespace ResolverCall

def name : ResolverCall → String
  | .plain name | .traced name => name

/-- The name that is looked up. -/
def captured (c : ResolverCall) : String := Name.stripQuotes c.name

/-- What a call reports of the resolution of its name. -/
def report (found : Option Resolved) : ResolverCall → ResolverAnswer
  | .plain _ => .plain (found.map (·.ty))
  | .traced _ => .traced found

def run (r : Resolver) (m : ResolverMemory) : ResolverCall → ResolverAnswer × ResolverMemory
  | .plain name =>
    let (ty, m) := r.resolveType name m
    (.plain ty, m)
  | .traced name =>
    let (found, m) := r.resolve name m
    (.traced found, m)

theorem run_eq (c : ResolverCall) (r : Resolver) (m : ResolverMemory) :
    c.run r m = (c.report (r.resolve c.name m).1,(r.resolve c.name m).2) := by
  cases c with
  | plain _ => simp only [run, Resolver.resolveType, report, ResolverCall.name]
  | traced _ => simp only [run, report, ResolverCall.name]

end ResolverCall

/-- Answers calls in order, with one memory. -/
def Resolver.runCalls (r : Resolver) :
    List ResolverCall → ResolverMemory → List ResolverAnswer × ResolverMemory
  | [], m => ([], m)
  | c :: rest, m =>
    let (first, m) := c.run r m
    let (others, m) := r.runCalls rest m
    (first :: others, m)

namespace ResolverMemory

/-- Everything remembered is still remembered. -/
def Extends (m m' : ResolverMemory) : Prop :=
  ∀ name answer, m.answers.lookup name = some answer → m'.answers.lookup name = some answer

theorem Extends.refl (m : ResolverMemory) : m.Extends m := fun _ _ h => h

theorem Extends.trans {m₁ m₂ m₃ : ResolverMemory} (h : m₁.Extends m₂) (h' : m₂.Extends m₃) :
    m₁.Extends m₃ := fun name answer hm => h' name answer (h name answer hm)

/-- The memory after the names of a log were needed: each was asked once, in order of its first
occurrence, and has an answer. -/
structure Logs (m : ResolverMemory) (log : List String) : Prop where
  asked_eq : m.asked = log.eraseDups
  known : ∀ name, (m.answers.lookup name).isSome ↔ name ∈ log

theorem logs_fresh : fresh.Logs [] where
  asked_eq := rfl
  known _ := by simp [fresh]

end ResolverMemory

namespace Resolver
variable {m m' : ResolverMemory}

section Consult
variable (d : Demangler) (name : String)

theorem consult_remembers (m : ResolverMemory) :
    m.Extends (consult d name m).2 ∧
      (consult d name m).2.answers.lookup name = some (consult d name m).1 := by
  unfold consult
  cases h : m.answers.lookup name with
  | some answer => exact ⟨.refl m,h⟩
  -- the new entry is for a name that had none, so it hides no other
  | none =>
    refine ⟨fun other answer hother => ?_,List.lookup_cons_self⟩
    have hne : other ≠ name := by
      rintro rfl
      cases h.symm.trans hother
    rw [List.lookup_cons, beq_false_of_ne hne]
    exact hother

theorem consult_logs {log : List String} (hm : m.Logs log) :
    (consult d name m).2.Logs (log ++ [name]) := by
  unfold consult
  cases h : m.answers.lookup name with
  | some answer =>
    have hmem : name ∈ log := (hm.known name).mp (by rw [h]; rfl)
    refine ⟨?_,fun other => (hm.known other).trans ?_⟩
    · rw [eraseDups_concat_of_mem hmem]
      exact hm.asked_eq
    · rw [List.mem_append, List.mem_singleton]
      exact ⟨.inl,fun hor => hor.elim id fun heq => heq ▸ hmem⟩
  | none =>
    have hmem : name ∉ log := fun hin => by simpa [h] using (hm.known name).mpr hin
    refine ⟨?_,fun other => ?_⟩
    · rw [eraseDups_concat_of_not_mem hmem, ← hm.asked_eq]
    · rw [List.lookup_cons, List.mem_append, List.mem_singleton, ← hm.known]
      by_cases heq : other = name
      · simp [heq]
      · simp [heq, beq_false_of_ne heq]

end Consult

/-- A stripped name needs the demangler if there is something left of it, and neither it nor what
follows a length prefix is in the table. -/
def needsDemangler (lookup : String → Option TypeDesc) (captured : String) : Bool :=
  captured ≠ "" && (lookup captured).isNone &&
    ((Name.stripLengthPrefix captured).bind lookup).isNone

theorem resolvePlain_isNone (lookup : String → Option TypeDesc) (captured : String) :
    (resolvePlain lookup captured).isNone =
      ((lookup captured).isNone && ((Name.stripLengthPrefix captured).bind lookup).isNone) := by
  unfold resolvePlain found
  cases lookup captured with
  | some ty => rfl
  | none =>
    cases Name.stripLengthPrefix captured with
    | none => rfl
    | some rest => simp

/-- What a stripped name resolves to, if the demangler says what is remembered. -/
def remembered (lookup : String → Option TypeDesc) (m : ResolverMemory) (captured : String) :
    Option Resolved :=
  if captured = "" then none
  else
    match resolvePlain lookup captured with
    | some found => some found
    | none => resolveDemangled lookup captured (m.answers.lookup captured).join

section Demangling
variable (lookup : String → Option TypeDesc) (d : Demangler)

/-- A resolution either needs nothing of the memory, or consults the demangler once. -/
theorem resolve_cases (name : String) (m : ResolverMemory) :
    let captured := Name.stripQuotes name
    let r : Resolver := ⟨lookup,some d⟩
    (needsDemangler lookup captured = false ∧ (r.resolve name m).2 = m ∧
      ∀ m', remembered lookup m' captured = (r.resolve name m).1) ∨
    (needsDemangler lookup captured = true ∧ (r.resolve name m).2 = (consult d captured m).2 ∧
      ∀ m', m'.answers.lookup captured = some (consult d captured m).1 →
        remembered lookup m' captured = (r.resolve name m).1) := by
  dsimp only
  have hneeds : needsDemangler lookup (Name.stripQuotes name) =
      (decide (Name.stripQuotes name ≠ "") &&
        (resolvePlain lookup (Name.stripQuotes name)).isNone) := by
    rw [needsDemangler, resolvePlain_isNone, Bool.and_assoc]
  unfold resolve remembered
  by_cases hempty : Name.stripQuotes name = ""
  · left
    simp [hempty, needsDemangler]
  · cases hplain : resolvePlain lookup (Name.stripQuotes name) with
    | some found =>
      left
      simp [hneeds, hplain, hempty]
    | none =>
      right
      refine ⟨by simp [hneeds, hplain, hempty],by simp [hplain, hempty],fun m' hm' => ?_⟩
      simp [hplain, hempty, hm']

theorem resolve_extends (name : String) (m : ResolverMemory) :
    m.Extends ((⟨lookup,some d⟩ : Resolver).resolve name m).2 := by
  rcases resolve_cases lookup d name m with ⟨_,hm,_⟩ | ⟨_,hm,_⟩
  · rw [hm]
    exact .refl m
  · rw [hm]
    exact (consult_remembers d _ m).1

/-- An answer can be told from any later memory. -/
theorem remembered_of_extends {name : String}
    (h : ((⟨lookup,some d⟩ : Resolver).resolve name m).2.Extends m') :
    remembered lookup m' (Name.stripQuotes name) =
      ((⟨lookup,some d⟩ : Resolver).resolve name m).1 := by
  rcases resolve_cases lookup d name m with ⟨_,_,hremembered⟩ | ⟨_,hm,hremembered⟩
  · exact hremembered m'
  · rw [hm] at h
    exact hremembered m' (h _ _ (consult_remembers d _ m).2)

theorem resolve_logs {log : List String} (hm : m.Logs log) (name : String) :
    ((⟨lookup,some d⟩ : Resolver).resolve name m).2.Logs
      (log ++ if needsDemangler lookup (Name.stripQuotes name) then [Name.stripQuotes name]
        else []) := by
  rcases resolve_cases lookup d name m with ⟨hneeds,hm',_⟩ | ⟨hneeds,hm',_⟩
  · rw [hm', hneeds, if_neg Bool.false_ne_true, List.append_nil]
    exact hm
  · rw [hm', hneeds, if_pos rfl]
    exact consult_logs d _ hm

end Demangling

section Calls
variable (lookup : String → Option TypeDesc) (d : Demangler)

theorem runCalls_cons (r : Resolver) (c : ResolverCall) (rest : List ResolverCall)
    (m : ResolverMemory) :
    r.runCalls (c :: rest) m =
      (c.report (r.resolve c.name m).1 :: (r.runCalls rest (r.resolve c.name m).2).1,
        (r.runCalls rest (r.resolve c.name m).2).2) := by
  rw [runCalls, ResolverCall.run_eq]

theorem runCalls_extends (calls : List ResolverCall) (m : ResolverMemory) :
    m.Extends ((⟨lookup,some d⟩ : Resolver).runCalls calls m).2 := by
  induction calls generalizing m with
  | nil => exact .refl m
  | cons c rest ih =>
    rw [runCalls_cons]
    exact (resolve_extends lookup d c.name m).trans (ih _)

/-- All answers of a run can be told from the memory at its end. -/
theorem runCalls_eq_remembered {calls : List ResolverCall}
    (h : ((⟨lookup,some d⟩ : Resolver).runCalls calls m).2.Extends m') :
    ((⟨lookup,some d⟩ : Resolver).runCalls calls m).1 =
      calls.map fun c => c.report (remembered lookup m' c.captured) := by
  induction calls generalizing m with
  | nil => rfl
  | cons c rest ih =>
    rw [runCalls_cons] at h ⊢
    have hc := remembered_of_extends lookup d ((runCalls_extends lookup d rest _).trans h)
    rw [List.map_cons, ResolverCall.captured, hc, ih h]

/-- The names that were asked during a run are those that needed the demangler. -/
theorem runCalls_logs {log : List String} (hm : m.Logs log) (calls : List ResolverCall) :
    ((⟨lookup,some d⟩ : Resolver).runCalls calls m).2.Logs
      (log ++ (calls.map (·.captured)).filter (needsDemangler lookup)) := by
  induction calls generalizing m log with
  | nil =>
    rw [runCalls, List.map_nil, List.filter_nil, List.append_nil]
    exact hm
  | cons c rest ih =>
    have hrest := ih (resolve_logs lookup d hm c.name)
    rw [← ResolverCall.captured, List.append_assoc] at hrest
    rw [runCalls_cons, List.map_cons, List.filter_cons]
    cases hneeds : needsDemangler lookup c.captured with
    | false =>
      rw [hneeds, if_neg Bool.false_ne_true, List.nil_append] at hrest
      rw [if_neg Bool.false_ne_true]
      exact hrest
    | true =>
      rw [hneeds, if_pos rfl, List.singleton_append] at hrest
      rw [if_pos rfl]
      exact hrest

theorem runCalls_eq_fresh {f : String → Option String} (hm : m.Faithful (.ofFunction f))
    (calls : List ResolverCall) :
    ((⟨lookup,some (.ofFunction f)⟩ : Resolver).runCalls calls m).1 =
      calls.map fun c => (c.run ⟨lookup,some (.ofFunction f)⟩ .fresh).1 := by
  induction calls generalizing m with
  | nil => rfl
  | cons c rest ih =>
    obtain ⟨hfresh,hfaithful⟩ :=
      resolve_eq_fresh (r := ⟨lookup,some (.ofFunction f)⟩) rfl hm c.name
    rw [runCalls_cons, List.map_cons, ResolverCall.run_eq, hfresh, ih hfaithful]

end Calls

/-- The names a demangler is handed during a run of calls are the stripped names that need it, each
once and in order of first occurrence. Calls whose names strip to the same text get the same answer,
whatever the demangler says at which time. Where it is a function, every call gets the answer of a
resolver that remembers nothing. -/
theorem runCalls_transparent (lookup : String → Option TypeDesc) (d : Demangler)
    (calls : List ResolverCall) :
    ((⟨lookup,some d⟩ : Resolver).runCalls calls .fresh).2.asked =
      ((calls.map (·.captured)).filter (needsDemangler lookup)).eraseDups ∧
    ((⟨lookup,some d⟩ : Resolver).runCalls calls .fresh).2.asked.Nodup ∧
    (∃ resolution : String → Option Resolved,
      ((⟨lookup,some d⟩ : Resolver).runCalls calls .fresh).1 =
        calls.map fun c => c.report (resolution c.captured)) ∧
    ∀ f : String → Option String,
      ((⟨lookup,some (.ofFunction f)⟩ : Resolver).runCalls calls .fresh).1 =
        calls.map fun c => (c.run ⟨lookup,some (.ofFunction f)⟩ .fresh).1 := by
  have hlogs := (runCalls_logs lookup d ResolverMemory.logs_fresh calls).asked_eq
  rw [List.nil_append] at hlogs
  refine ⟨hlogs,?_,⟨_,runCalls_eq_remembered lookup d (.refl _)⟩,fun f => ?_⟩
  · rw [hlogs]
    exact nodup_eraseDups _
  · exact runCalls_eq_fresh lookup (ResolverMemory.faithful_fresh _) calls

end Resolver
end ValueInspector
