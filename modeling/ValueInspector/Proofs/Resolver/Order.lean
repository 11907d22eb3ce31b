import ValueInspector.Proofs.Resolver.Calls

/-! # The order of resolution

A captured name is looked up as a few texts in a fixed order, and the first one in the table wins. A
demangled form that repeats an earlier text is not looked up again; nothing is lost by that, as that
text was not in the table. A resolver without a demangler tries the texts that need none.
-/
namespace ValueInspector.Resolver

/-- The texts a stripped name is looked up as before the demangler is asked. -/
def plainAttempts (captured : String) : List (ResolveStep × String) :=
  (.direct,captured) :: (Name.stripLengthPrefix captured).toList.map (ResolveStep.lengthPrefix,·)

/-- The text that the demangler's output is looked up as, unless it is blank. -/
def demangledAttempts : Option String → List (ResolveStep × String)
  | none => []
  | some output =>
    if Text.trimmed output = "" then [] else [(.demangled,Text.trimmed output)]

/-- The first text that is in the table, with the step it belongs to and the type it names. -/
def firstFound (lookup : String → Option TypeDesc) (attempts : List (ResolveStep × String)) :
    Option Resolved :=
  attempts.findSome? fun a => (lookup a.2).map fun ty => ⟨ty,a.1,a.2⟩

section Attempts
variable {lookup : String → Option TypeDesc} {captured : String}
variable {attempts : List (ResolveStep × String)}

theorem firstFound_eq_none_iff :
    firstFound lookup attempts = none ↔ ∀ a ∈ attempts, lookup a.2 = none := by
  simp [firstFound]

theorem firstFound_eq_some {r : Resolved} (h : firstFound lookup attempts = some r) :
    (r.step,r.spelling) ∈ attempts ∧ lookup r.spelling = some r.ty := by
  obtain ⟨a,ha,hr⟩ := List.exists_of_findSome?_eq_some h
  obtain ⟨ty,hty,rfl⟩ := Option.map_eq_some_iff.mp hr
  exact ⟨ha,hty⟩

theorem firstFound_append (others : List (ResolveStep × String)) :
    firstFound lookup (attempts ++ others) =
      (firstFound lookup attempts).or (firstFound lookup others) := List.findSome?_append

theorem step_of_mem_plainAttempts {a : ResolveStep × String} (h : a ∈ plainAttempts captured) :
    a.1 ≠ .demangled := by
  rcases List.mem_cons.mp h with rfl | h
  · exact nofun
  · obtain ⟨text,_,rfl⟩ := List.mem_map.mp h
    exact nofun

theorem step_of_mem_demangledAttempts {output : Option String} {a : ResolveStep × String}
    (h : a ∈ demangledAttempts output) : a.1 = .demangled := by
  cases output with
  | none => cases h
  | some output =>
    rw [demangledAttempts] at h
    split at h
    · cases h
    · rw [List.mem_singleton.mp h]

theorem resolvePlain_eq_firstFound (lookup : String → Option TypeDesc) (captured : String) :
    resolvePlain lookup captured = firstFound lookup (plainAttempts captured) := by
  unfold resolvePlain firstFound plainAttempts
  rw [List.findSome?_cons, found]
  cases lookup captured with
  | some ty => rfl
  | none =>
    cases Name.stripLengthPrefix captured with
    | none => rfl
    | some text => simp [found]

/-- A demangled form that repeats an earlier text would not be found either. -/
theorem resolveDemangled_eq_firstFound
    (hplain : firstFound lookup (plainAttempts captured) = none) (output : Option String) :
    resolveDemangled lookup captured output = firstFound lookup (demangledAttempts output) := by
  rw [firstFound_eq_none_iff] at hplain
  have hdirect : lookup captured = none := hplain (.direct,captured) List.mem_cons_self
  have hprefix : ∀ text, some text = Name.stripLengthPrefix captured → lookup text = none :=
    fun text htext => hplain (.lengthPrefix,text) (by simp [plainAttempts, ← htext])
  cases output with
  | none => rfl
  | some output =>
    rw [resolveDemangled, demangledAttempts]
    by_cases hblank : Text.trimmed output = ""
    · rw [if_pos (.inl hblank), if_pos hblank]
      rfl
    · rw [if_neg hblank, firstFound, List.findSome?_singleton]
      split
      next hrepeats =>
        have hnone : lookup (Text.trimmed output) = none := by
          rcases hrepeats with h | h | h
          · exact absurd h hblank
          · rw [h, hdirect]
          · exact hprefix _ h
        rw [hnone]
        rfl
      · rfl

end Attempts

/-- Whatever the demangler says, a resolution is what the table has under one of the texts that are
tried. -/
theorem attempt_of_resolve {r : Resolver} {name : String} {m : ResolverMemory} {res : Resolved}
    (h : (r.resolve name m).1 = some res) :
    Name.stripQuotes name ≠ "" ∧ (∃ output, (res.step,res.spelling) ∈
      plainAttempts (Name.stripQuotes name) ++ demangledAttempts output) ∧
        r.lookup res.spelling = some res.ty := by
  rw [resolve, resolvePlain_eq_firstFound] at h
  dsimp only at h
  split at h
  · cases h
  next hname =>
    refine ⟨hname,?_⟩
    cases hplain : firstFound r.lookup (plainAttempts (Name.stripQuotes name)) with
    | some res' =>
      rw [hplain] at h
      cases h
      obtain ⟨hmem,hlookup⟩ := firstFound_eq_some hplain
      exact ⟨⟨none,List.mem_append_left _ hmem⟩,hlookup⟩
    | none =>
      rw [hplain] at h
      cases hd : r.demangler with
      | none =>
        rw [hd] at h
        cases h
      | some d =>
        rw [hd] at h
        obtain ⟨hmem,hlookup⟩ :=
          firstFound_eq_some ((resolveDemangled_eq_firstFound hplain _).symm.trans h)
        exact ⟨⟨_,List.mem_append_right _ hmem⟩,hlookup⟩

/-- A resolution is what the table has under the spelling it reports. -/
theorem lookup_of_resolve {r : Resolver} {name : String} {m : ResolverMemory} {res : Resolved}
    (h : (r.resolve name m).1 = some res) : r.lookup res.spelling = some res.ty :=
  (attempt_of_resolve h).2.2

section Functional
variable (lookup : String → Option TypeDesc) (f : String → Option String)

/-- Whatever names were resolved before, what is remembered is what the demangler says. -/
theorem runCalls_faithful {m : ResolverMemory} (hm : m.Faithful (.ofFunction f))
    (calls : List ResolverCall) :
    ((⟨lookup,some (.ofFunction f)⟩ : Resolver).runCalls calls m).2.Faithful (.ofFunction f) := by
  induction calls generalizing m with
  | nil => exact hm
  | cons c rest ih =>
    rw [runCalls_cons]
    exact ih (resolve_eq_fresh rfl hm c.name).2

/-- All that a resolution does, when what is remembered is what the demangler says. -/
theorem resolve_eq_firstFound {m : ResolverMemory} (hm : m.Faithful (.ofFunction f))
    (name : String) :
    ((⟨lookup,some (.ofFunction f)⟩ : Resolver).resolve name m).1 =
      if Name.stripQuotes name = "" then none
      else firstFound lookup (plainAttempts (Name.stripQuotes name) ++
        demangledAttempts (f (Name.stripQuotes name))) := by
  have hanswer := (consult_ofFunction hm (Name.stripQuotes name)).1
  rw [resolve, firstFound_append]
  dsimp only
  split
  · rfl
  · rw [resolvePlain_eq_firstFound]
    cases hplain : firstFound lookup (plainAttempts (Name.stripQuotes name)) with
    | some r => rfl
    | none =>
      dsimp only
      rw [hanswer, Option.none_or, resolveDemangled_eq_firstFound hplain]

end Functional

section Plain
variable (lookup : String → Option TypeDesc) (name : String) (m : ResolverMemory)

/-- All that a resolver without a demangler does. -/
theorem resolve_none_eq :
    (⟨lookup,none⟩ : Resolver).resolve name m =
      (if Name.stripQuotes name = "" then none
        else firstFound lookup (plainAttempts (Name.stripQuotes name)),m) := by
  rw [resolve, ← resolvePlain_eq_firstFound]
  dsimp only
  split
  · rfl
  · cases resolvePlain lookup (Name.stripQuotes name) <;> rfl

/-- The demangler is not asked about a name that is found without it. -/
theorem resolve_snd_of_firstFound (d : Demangler) {r : Resolved}
    (h : firstFound lookup (plainAttempts (Name.stripQuotes name)) = some r) :
    ((⟨lookup,some d⟩ : Resolver).resolve name m).2 = m := by
  rw [← resolvePlain_eq_firstFound] at h
  rw [resolve]
  dsimp only
  split
  · rfl
  · rw [h]

end Plain

/-- Without the attempts that need the demangler, what they found is missing and nothing else. -/
theorem firstFound_plain_eq_filter (lookup : String → Option TypeDesc) (captured : String)
    (output : Option String) :
    firstFound lookup (plainAttempts captured) =
      (firstFound lookup (plainAttempts captured ++ demangledAttempts output)).filter
        (·.step ≠ .demangled) := by
  rw [firstFound_append]
  cases hplain : firstFound lookup (plainAttempts captured) with
  | some r =>
    have hstep : r.step ≠ .demangled := step_of_mem_plainAttempts (firstFound_eq_some hplain).1
    rw [Option.some_or, Option.filter_some_pos (by simpa using hstep)]
  | none =>
    cases hlate : firstFound lookup (demangledAttempts output) with
    | none => rfl
    | some r =>
      have hstep : r.step = .demangled := step_of_mem_demangledAttempts (firstFound_eq_some hlate).1
      rw [Option.none_or, Option.filter_some_neg (by simpa using hstep)]

/-- A resolution takes the first text in the table: the stripped name, what follows its length prefix,
its demangled form, whether or not that repeats an earlier text. It reports that text, and a resolver
without a demangler gives the same answer unless the demangler was needed for it. An answer that does
without the demangler leaves it alone. All this holds whatever was resolved before. -/
theorem resolve_takes_first_found (lookup : String → Option TypeDesc) (f : String → Option String)
    (calls : List ResolverCall) (name : String) :
    let captured := Name.stripQuotes name
    let full : Resolver := ⟨lookup,some (.ofFunction f)⟩
    let before := (full.runCalls calls .fresh).2
    (full.resolve name before).1 =
      (if captured = "" then none
        else firstFound lookup (plainAttempts captured ++ demangledAttempts (f captured))) ∧
    (∀ r, (full.resolve name before).1 = some r → lookup r.spelling = some r.ty) ∧
    (∀ m, ((⟨lookup,none⟩ : Resolver).resolve name m).1 =
      (full.resolve name before).1.filter (·.step ≠ .demangled)) ∧
    ∀ r, (full.resolve name before).1 = some r → r.step ≠ .demangled →
      (full.resolve name before).2.asked = before.asked := by
  have hfaithful := runCalls_faithful lookup f (ResolverMemory.faithful_fresh _) calls
  have hfull := resolve_eq_firstFound lookup f hfaithful name
  refine ⟨hfull,fun r hr => ?_,fun m => ?_,fun r hr hstep => ?_⟩
  · rw [hfull] at hr
    split at hr
    · cases hr
    · exact (firstFound_eq_some hr).2
  · rw [hfull, resolve_none_eq]
    dsimp only
    split
    · rfl
    · exact firstFound_plain_eq_filter lookup _ _
  · rw [hfull] at hr
    split at hr
    · cases hr
    · have hplain := firstFound_plain_eq_filter lookup (Name.stripQuotes name)
        (f (Name.stripQuotes name))
      rw [hr, Option.filter_some_pos (by simpa using hstep)] at hplain
      rw [resolve_snd_of_firstFound lookup name _ _ hplain]

end ValueInspector.Resolver
