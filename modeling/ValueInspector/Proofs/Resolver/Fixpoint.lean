import ValueInspector.Proofs.Resolver.Order
import ValueInspector.Proofs.Snapshot.Grammar

/-! # Reported spellings are resolved directly

The spelling that a resolution reports can have blanks at its start, and stars at its end. It is never
blank, and where no registered name has a quote at an end, neither has the spelling, apart from
blanks. So it is found at the first attempt when it is resolved again.
-/
namespace ValueInspector
open Text

section Ends
variable {cs : List Char}

/-- No quote stands at either end. -/
def Unquoted (cs : List Char) : Prop := cs.head? ≠ some '"' ∧ cs.getLast? ≠ some '"'

instance (cs : List Char) : Decidable (Unquoted cs) := inferInstanceAs (Decidable (_ ∧ _))

theorem Unquoted.append_run (h : Unquoted cs) {run : List Char}
    (hrun : ∀ c ∈ run, isSuffixChar c = true) : Unquoted (cs ++ run) := by
  have hquote : ∀ c ∈ run, c ≠ '"' := by
    rintro c hc rfl
    exact absurd (hrun '"' hc) (by decide)
  constructor
  · rw [List.head?_append]
    cases hhead : cs.head? with
    | none => exact fun hc => hquote '"' (List.mem_of_mem_head? hc) rfl
    | some c => exact fun hc => h.1 (hhead.trans hc)
  · rw [List.getLast?_append]
    cases hlast : run.getLast? with
    | none => exact h.2
    | some c => exact fun hc => hquote c (List.mem_of_mem_getLast? hlast) (Option.some.inj hc)

/-- Without quotes, only blanks are stripped. -/
theorem stripQuotesChars_eq_trim (h : Unquoted (trim cs)) :
    Name.stripQuotesChars cs = trim cs := by
  have hstrip : stripWhile (· = '"') (trim cs) = trim cs := by
    refine stripWhile_eq_self (fun c hc => ?_) fun c hc => ?_
    · exact decide_eq_false fun heq => h.1 (heq ▸ hc)
    · exact decide_eq_false fun heq => h.2 (heq ▸ hc)
  rw [Name.stripQuotesChars, hstrip, (tight_trim cs).trim_eq]

end Ends

theorem trimmed_ne_empty {text : String} (h : text ≠ "")
    (hlast : ∀ c ∈ text.toList.getLast?, isBlank c = false) : trimmed text ≠ "" := by
  obtain ⟨front,back,hfront,hback,hsplit⟩ := exists_blanks_around_trim text.toList
  intro hempty
  have hnil : trim text.toList = [] := by
    rwa [trimmed, ← String.toList_eq_nil_iff, String.toList_ofList] at hempty
  rw [hnil, List.append_nil] at hsplit
  have hne : text.toList ≠ [] := fun hnil => h (String.toList_eq_nil_iff.mp hnil)
  have hblank : ∀ c ∈ text.toList, isBlank c = true := by
    rw [hsplit]
    exact List.forall_mem_append.mpr ⟨hfront,hback⟩
  have hdark := hlast _ (List.getLast?_eq_some_getLast hne)
  cases hdark.symm.trans (hblank _ (List.getLast_mem hne))

theorem Snapshot.lookupType_trimmed (s : Snapshot) (spelling : String) :
    s.lookupType (trimmed spelling) = s.lookupType spelling := by
  have hsplit : splitStars (trimmed spelling).toList = splitStars spelling.toList := by
    rw [trimmed, String.toList_ofList, splitStars, splitStars, (tight_trim _).trim_eq]
  rw [lookupType, lookupType, hsplit]

/-- What stands around the base in a spelling are blanks and stars. -/
theorem SnapshotBuilder.Names.unquoted_of_lookupType {b : SnapshotBuilder}
    {granted : List (TypeStep × TypeDesc)} (h : b.Names granted)
    (hnames : ∀ entry ∈ b.snapshot.entries.toList, Unquoted entry.name.toList) {spelling : String}
    {ty : TypeDesc} (hty : b.snapshot.lookupType spelling = some ty) :
    Unquoted (trim spelling.toList) := by
  obtain ⟨id,-,hid,-,-⟩ := Snapshot.lookupType_eq_some_iff.mp hty
  obtain ⟨entry,hentry,hname⟩ := List.mem_map.mp (h.names_eq ▸ (h.mem_of_lookup hid).1)
  have hbase := hnames entry hentry
  rw [hname, String.toList_ofList] at hbase
  rw [← dropEndWhile_append_run isSuffixChar (trim spelling.toList)]
  exact hbase.append_run fun c hc => List.mem_takeWhile_imp (List.mem_reverse.mp hc)

namespace Resolver
variable {captured : String} {a : ResolveStep × String}

theorem stripLengthPrefix_spec {rest : String} (h : Name.stripLengthPrefix captured = some rest) :
    rest ≠ "" ∧ rest.toList <:+ captured.toList := by
  rw [Name.stripLengthPrefix] at h
  split at h
  · cases h
  next hcond =>
    obtain rfl := Option.some.inj h
    rw [Ne, ← String.toList_eq_nil_iff, String.toList_ofList]
    refine ⟨fun hnil => hcond ?_,List.dropWhile_suffix _⟩
    rw [hnil]
    exact Bool.or_true _

/-- No text that is looked up is blank. -/
theorem trimmed_ne_empty_of_mem_attempts (hcaptured : captured ≠ "") (htight : Tight captured.toList)
    {output : Option String} (h : a ∈ plainAttempts captured ++ demangledAttempts output) :
    trimmed a.2 ≠ "" := by
  rcases List.mem_append.mp h with h | h
  · rcases List.mem_cons.mp h with rfl | h
    · exact trimmed_ne_empty hcaptured htight.last
    · obtain ⟨rest,hrest,rfl⟩ := List.mem_map.mp h
      obtain ⟨hne,front,hfront⟩ := stripLengthPrefix_spec (Option.mem_toList.mp hrest)
      refine trimmed_ne_empty hne fun c hc => htight.last c ?_
      rw [← hfront, List.getLast?_append, hc, Option.some_or]
      exact rfl
  · cases output with
    | none => cases h
    | some output =>
      rw [demangledAttempts] at h
      split at h
      · cases h
      next hne =>
        rw [List.mem_singleton.mp h]
        refine trimmed_ne_empty hne ?_
        rw [trimmed, String.toList_ofList]
        exact (tight_trim _).last

/-- A text in the table is found at the first attempt. -/
theorem resolve_of_lookup {r : Resolver} {name : String} {ty : TypeDesc}
    (hname : Name.stripQuotes name ≠ "") (hty : r.lookup (Name.stripQuotes name) = some ty)
    (m : ResolverMemory) :
    r.resolve name m = (some ⟨ty,.direct,Name.stripQuotes name⟩,m) := by
  have hplain : resolvePlain r.lookup (Name.stripQuotes name) =
      some ⟨ty,.direct,Name.stripQuotes name⟩ := by
    rw [resolvePlain, found, hty]
    rfl
  rw [resolve]
  dsimp only
  rw [if_neg hname, hplain]

end Resolver

namespace Construction

/-- Where no type has a name with a quote at an end, the spelling that a resolution reports is resolved
to the same type by the first attempt, whatever the resolver knows, and no demangler is asked. -/
theorem resolve_reported_spelling (steps : List BuilderStep)
    (hnames : ∀ entry ∈ (ofSteps steps).builder.snapshot.entries.toList, Unquoted entry.name.toList)
    (demangler : Option Demangler) (name : String) (m : ResolverMemory) (res : Resolved)
    (h : ((⟨(ofSteps steps).builder.snapshot.lookupType,demangler⟩ : Resolver).resolve name m).1 =
      some res) (demangler' : Option Demangler) (m' : ResolverMemory) :
    (⟨(ofSteps steps).builder.snapshot.lookupType,demangler'⟩ : Resolver).resolve res.spelling m' =
      (some ⟨res.ty,.direct,trimmed res.spelling⟩,m') := by
  obtain ⟨hcaptured,⟨output,hattempt⟩,hty⟩ := Resolver.attempt_of_resolve h
  have htight : Tight (Name.stripQuotes name).toList := by
    rw [Name.stripQuotes, String.toList_ofList]
    exact tight_trim _
  have hne := Resolver.trimmed_ne_empty_of_mem_attempts hcaptured htight hattempt
  have hunquoted := (names_ofSteps steps).unquoted_of_lookupType hnames hty
  have hstrip : Name.stripQuotes res.spelling = trimmed res.spelling := by
    rw [Name.stripQuotes, stripQuotesChars_eq_trim hunquoted, trimmed]
  rw [← hstrip] at hne ⊢
  refine Resolver.resolve_of_lookup hne ?_ m'
  rw [hstrip]
  exact (Snapshot.lookupType_trimmed _ _).trans hty

/-- A name in quotes and with a number before it. The blank after the number is reported, and dropped
when the spelling is resolved. -/
theorem resolve_reported_spelling_numbered :
    ((⟨(ofSteps pointedSteps).builder.snapshot.lookupType,none⟩ : Resolver).resolve
        "\"7 Node * \"" .fresh).1 = some ⟨⟨0,1,"Node"⟩,.lengthPrefix," Node *"⟩ ∧
      (⟨(ofSteps pointedSteps).builder.snapshot.lookupType,some .silent⟩ : Resolver).resolve
        " Node *" .fresh = (some ⟨⟨0,1,"Node"⟩,.direct,"Node *"⟩,.fresh) := by
  have hnames : ∀ entry ∈ (ofSteps pointedSteps).builder.snapshot.entries.toList,
      Unquoted entry.name.toList := by
    decide +kernel
  have hfound : ((⟨(ofSteps pointedSteps).builder.snapshot.lookupType,none⟩ : Resolver).resolve
      "\"7 Node * \"" .fresh).1 = some ⟨⟨0,1,"Node"⟩,.lengthPrefix," Node *"⟩ := by
    decide +kernel
  have htrimmed : trimmed " Node *" = "Node *" := by decide +kernel
  have hagain := resolve_reported_spelling pointedSteps hnames none _ _ _ hfound (some .silent) .fresh
  rw [htrimmed] at hagain
  exact ⟨hfound,hagain⟩

end Construction
end ValueInspector
