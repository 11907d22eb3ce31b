import ValueInspector.Name
import ValueInspector.Proofs.Text.Trimming

/-! # Normalized type names

Normalization takes away the blanks around a name and all qualifiers before it. What is left has no
blank at its ends and begins with no qualifier, so normalizing it again changes nothing, and any
qualifiers and blanks put around a name do not matter.
-/
namespace ValueInspector.Name
open Text

section Starts
variable {word cs rest : List Char}

theorem afterStart?_eq_some_iff : afterStart? word cs = some rest ↔ cs = word ++ rest := by
  induction word generalizing cs with
  | nil => simp [afterStart?]
  | cons w word ih =>
    cases cs with
    | nil => simp [afterStart?]
    | cons c cs =>
      rw [afterStart?, List.cons_append, List.cons.injEq]
      by_cases h : w = c
      · rw [if_pos h, ih, and_iff_right h.symm]
      · rw [if_neg h]
        exact ⟨fun heq => (by cases heq),fun heq => absurd heq.1.symm h⟩

theorem mem_qualifiers : word ∈ qualifiers ↔ word = "const ".toList ∨ word = "volatile ".toList := by
  simp [qualifiers]

/-- No qualifier is the start of another, so it does not matter which is tried first. -/
theorem afterQualifier?_append (h : word ∈ qualifiers) (rest : List Char) :
    afterQualifier? (word ++ rest) = some rest := by
  rcases mem_qualifiers.mp h with rfl | rfl <;> rfl

theorem afterQualifier?_eq_none_iff :
    afterQualifier? cs = none ↔ ∀ word ∈ qualifiers, ¬word <+: cs := by
  rw [afterQualifier?, List.findSome?_eq_none_iff]
  refine forall₂_congr fun word _ => ?_
  rw [Option.eq_none_iff_forall_ne_some]
  refine ⟨fun h ⟨rest,hrest⟩ => h rest (afterStart?_eq_some_iff.mpr hrest.symm),fun h rest hrest => ?_⟩
  exact h ⟨rest,(afterStart?_eq_some_iff.mp hrest).symm⟩

theorem exists_of_afterQualifier? (h : afterQualifier? cs = some rest) :
    ∃ word ∈ qualifiers, cs = word ++ rest := by
  obtain ⟨word,hword,hrest⟩ := List.exists_of_findSome?_eq_some h
  exact ⟨word,hword,afterStart?_eq_some_iff.mp hrest⟩

theorem dropQualifiers_of_none (h : afterQualifier? cs = none) : dropQualifiers cs = cs := by
  rw [dropQualifiers]
  split
  · rfl
  next hrest => cases h.symm.trans hrest

theorem dropQualifiers_of_some (h : afterQualifier? cs = some rest) :
    dropQualifiers cs = dropQualifiers (trimStart rest) := by
  rw [dropQualifiers]
  split
  next hnone => cases h.symm.trans hnone
  next hrest => rw [Option.some.inj (h.symm.trans hrest)]

end Starts

section Normal
variable {cs : List Char}

theorem head?_trimStart (cs : List Char) : ∀ c ∈ (trimStart cs).head?, isBlank c = false := by
  intro c hc
  have hnot := List.head?_dropWhile_not isBlank cs
  rwa [← trimStart, hc] at hnot

/-- Behind a qualifier, and behind the blanks there, the end stays as it is. -/
theorem tight_trimStart {word rest : List Char} (h : Tight (word ++ rest)) : Tight (trimStart rest) where
  head := head?_trimStart rest
  last c hc := by
    obtain ⟨gap,hgap⟩ : trimStart rest <:+ rest := List.dropWhile_suffix isBlank
    refine h.last c ?_
    rw [← hgap, List.getLast?_append, List.getLast?_append, hc, Option.some_or, Option.some_or]
    exact rfl

theorem dropQualifiers_spec (h : Tight cs) :
    Tight (dropQualifiers cs) ∧ afterQualifier? (dropQualifiers cs) = none := by
  induction cs using dropQualifiers.induct with
  | case1 cs hnone =>
    rw [dropQualifiers_of_none hnone]
    exact ⟨h,hnone⟩
  | case2 cs rest hrest ih =>
    obtain ⟨word,-,rfl⟩ := exists_of_afterQualifier? hrest
    rw [dropQualifiers_of_some hrest]
    exact ih (tight_trimStart h)

theorem toList_normalize (name : String) :
    (normalize name).toList = dropQualifiers (trim name.toList) := by
  rw [normalize, String.toList_ofList]

theorem tight_normalize (name : String) : Tight (normalize name).toList := by
  rw [toList_normalize]
  exact (dropQualifiers_spec (tight_trim _)).1

theorem afterQualifier?_normalize (name : String) : afterQualifier? (normalize name).toList = none := by
  rw [toList_normalize]
  exact (dropQualifiers_spec (tight_trim _)).2

theorem normalize_idem (name : String) : normalize (normalize name) = normalize name := by
  rw [← String.toList_inj, toList_normalize, (tight_normalize name).trim_eq,
    dropQualifiers_of_none (afterQualifier?_normalize name)]

end Normal

/-- Any qualifiers in a row, each with a space behind it and any more blanks. -/
inductive QualifierRun : List Char → Prop
  | none : QualifierRun []
  | qualifier {word gap rest : List Char} (hword : word = "const ".toList ∨ word = "volatile ".toList)
    (hgap : Blanks gap) (hrest : QualifierRun rest) : QualifierRun (word ++ (gap ++ rest))

section Around
variable {run core : List Char}

theorem trimStart_append_of_blanks {gap : List Char} (h : Blanks gap) (cs : List Char) :
    trimStart (gap ++ cs) = trimStart cs := List.dropWhile_append_of_pos h

theorem trimStart_qualifier {word : List Char} (h : word ∈ qualifiers) (cs : List Char) :
    trimStart (word ++ cs) = word ++ cs := by
  rcases mem_qualifiers.mp h with rfl | rfl <;> rfl

theorem dropQualifiers_run (hrun : QualifierRun run) {gap : List Char} (hgap : Blanks gap)
    (hcore : Tight core) :
    dropQualifiers (trimStart (run ++ (gap ++ core))) = dropQualifiers core := by
  induction hrun with
  | none =>
    rw [List.nil_append, trimStart_append_of_blanks hgap, trimStart, dropWhile_eq_self hcore.head]
  | qualifier hword hgap' _ ih =>
    have hword := mem_qualifiers.mpr hword
    rw [List.append_assoc, trimStart_qualifier hword, dropQualifiers_of_some
      (afterQualifier?_append hword _), List.append_assoc, trimStart_append_of_blanks hgap', ih]

/-- Blanks behind a text that does not end in one are all that its end loses. -/
theorem trim_append (hcore : Tight core) (hne : core ≠ []) {front back : List Char}
    (hback : Blanks back) : trim (front ++ core ++ back) = trimStart (front ++ core) := by
  have hkept : dropEndWhile isBlank (front ++ core) = front ++ core := by
    refine dropEndWhile_eq_self_iff.mpr fun c hc => hcore.last c ?_
    rw [List.getLast?_append, List.getLast?_eq_some_getLast hne, Option.some_or] at hc
    rwa [List.getLast?_eq_some_getLast hne]
  rw [trim, stripWhile, ← dropWhile_dropEndWhile, dropEndWhile_append_of_pos hback, hkept, trimStart]

/-- Qualifiers in front of a name and blanks around do not matter. -/
theorem normalize_surrounded {name : String} (hname : ∃ c ∈ name.toList, isBlank c = false)
    {front back : List Char} (hfront : Blanks front) (hrun : QualifierRun run) (hback : Blanks back) :
    normalize (String.ofList (front ++ run ++ name.toList ++ back)) = normalize name := by
  obtain ⟨lead,tail,hlead,htail,hsplit⟩ := exists_blanks_around_trim name.toList
  have hne : trim name.toList ≠ [] := by
    intro hnil
    obtain ⟨c,hc,hdark⟩ := hname
    rw [hsplit, hnil, List.append_nil] at hc
    have hblanks : Blanks (lead ++ tail) := List.forall_mem_append.mpr ⟨hlead,htail⟩
    exact Bool.false_ne_true (hdark.symm.trans (hblanks c hc))
  have htext : front ++ run ++ name.toList ++ back =
      (front ++ (run ++ lead)) ++ trim name.toList ++ (tail ++ back) := by
    nth_rewrite 1 [hsplit]
    simp only [List.append_assoc]
  have hend : Blanks (tail ++ back) := List.forall_mem_append.mpr ⟨htail,hback⟩
  rw [← String.toList_inj, toList_normalize, toList_normalize, String.toList_ofList, htext,
    trim_append (tight_trim _) hne hend, List.append_assoc, trimStart_append_of_blanks hfront,
    List.append_assoc, dropQualifiers_run hrun hlead (tight_trim _)]

end Around
end ValueInspector.Name
