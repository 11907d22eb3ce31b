import ValueInspector.Helper.Run
import ValueInspector.Proofs.Resolver.Order
import ValueInspector.Proofs.Text.Decoding
import ValueInspector.Proofs.Text.SingleLine
import ValueInspector.Proofs.Text.Trimming

/-! # Runs of a demangling helper

A run that ended in time is judged by its exit and by what it wrote: the first line of a text, if more
than blanks stands there. So what a helper answers is never empty, on one line and trimmed already, and
the resolver looks it up as it is.
-/
namespace ValueInspector

namespace HelperRun

/-- What stands in front of the first line feed, or all of a text that has none. -/
def IsFirstLine (line text : List Char) : Prop :=
  '\n' ∉ line ∧ (text = line ∨ ∃ rest, text = line ++ '\n' :: rest)

/-- The output is a text whose first line has more than blanks, and the answer is that line without the
blanks at its ends. -/
def Prints (output : List UInt8) (answer : String) : Prop :=
  ∃ text line, output = Text.Utf8.encode text ∧ IsFirstLine line text.toList ∧
    (∃ c ∈ line, Text.isBlank c = false) ∧ answer = .ofList (Text.trim line)

/-- The process exited before the deadline, and its output was closed by then. -/
def InTime (run : HelperRun) (timeoutMs : UInt64) : Prop :=
  run.exitTime < timeoutMs.toNat ∧ run.closeTime ≤ timeoutMs.toNat

section Output
variable {line text : List Char} {status : ExitStatus} {output : List UInt8} {answer : String}

theorem isFirstLine_firstLine (text : List Char) : IsFirstLine (firstLine text) text := by
  refine ⟨fun hfeed => absurd (List.mem_takeWhile_imp hfeed) (by decide),?_⟩
  have hsplit : firstLine text ++ text.dropWhile (· ≠ '\n') = text :=
    List.takeWhile_append_dropWhile
  have hnot := List.head?_dropWhile_not (· ≠ '\n') text
  cases hrest : text.dropWhile (· ≠ '\n') with
  | nil =>
    rw [hrest, List.append_nil] at hsplit
    exact .inl hsplit.symm
  | cons c rest =>
    rw [hrest] at hsplit hnot
    obtain rfl : c = '\n' := by simpa using hnot
    exact .inr ⟨rest,hsplit.symm⟩

theorem IsFirstLine.eq_firstLine (h : IsFirstLine line text) : line = firstLine text := by
  obtain ⟨hline,htext⟩ := h
  have hkept : ∀ c ∈ line, decide (c ≠ '\n') = true := fun c hc =>
    decide_eq_true fun hfeed => hline (hfeed ▸ hc)
  rcases htext with rfl | ⟨rest,rfl⟩
  · exact (List.takeWhile_eq_self_iff.mpr hkept).symm
  · rw [firstLine, List.takeWhile_append_of_pos hkept, List.takeWhile_cons_of_neg (by decide),
      List.append_nil]

/-- All a helper can print, told by the strict reading of its output. -/
theorem prints_iff : Prints output answer ↔
    ∃ text, Text.Utf8.decode? output = some text ∧ Text.trim (firstLine text.toList) ≠ [] ∧
      answer = .ofList (Text.trim (firstLine text.toList)) := by
  constructor
  · rintro ⟨text,line,houtput,hline,⟨c,hc,hblank⟩,hanswer⟩
    obtain rfl := hline.eq_firstLine
    refine ⟨text,Text.Utf8.decode?_eq_some_iff.mpr houtput,fun hempty => ?_,hanswer⟩
    rw [Text.trim_eq_nil_iff.mp hempty c hc] at hblank
    cases hblank
  · rintro ⟨text,hread,hline,hanswer⟩
    have hexists : ∃ c ∈ firstLine text.toList, Text.isBlank c = false := by
      by_contra hall
      push Not at hall
      exact hline (Text.trim_eq_nil_iff.mpr fun c hc => eq_true_of_ne_false (hall c hc))
    exact ⟨text,_,Text.Utf8.decode?_eq_some_iff.mp hread,isFirstLine_firstLine _,hexists,hanswer⟩

theorem Prints.tidy (h : Prints output answer) :
    answer ≠ "" ∧ SingleLine answer ∧ Text.trimmed answer = answer := by
  obtain ⟨text,_,hline,rfl⟩ := prints_iff.mp h
  refine ⟨fun hempty => hline (String.ofList_eq_empty_iff.mp hempty),?_,Text.trimmed_ofList_trim _⟩
  rw [singleLine_ofList]
  exact fun hfeed => (isFirstLine_firstLine text.toList).1 (Text.stripWhile_sublist.subset hfeed)

theorem judge_of_failure (h : status.success = false) :
    judge status output = .error (.demanglerExit status) := by
  rw [judge, h]
  rfl

/-- A run that exited well yields what it printed, or else the failure to print. -/
theorem judge_of_success (output : List UInt8) (h : status.success = true) :
    (∃ answer, Prints output answer ∧ judge status output = .ok answer) ∨
      ((∀ answer, ¬Prints output answer) ∧ judge status output = .error .demanglerOutput) := by
  rw [judge, h]
  simp only [prints_iff]
  cases hread : Text.Utf8.decode? output with
  | none => exact .inr ⟨fun answer hprints => by simp at hprints,rfl⟩
  | some text =>
    by_cases hline : Text.trim (firstLine text.toList) = []
    · exact .inr ⟨fun answer hprints => by simp [hline] at hprints,by simp [hline]⟩
    · exact .inl ⟨_,⟨text,rfl,hline,rfl⟩,by simp [hline]⟩

theorem Prints.unique {other : String} (h : Prints output answer) (h' : Prints output other) :
    answer = other := by
  obtain ⟨text,hread,_,rfl⟩ := prints_iff.mp h
  obtain ⟨text',hread',_,rfl⟩ := prints_iff.mp h'
  rw [Option.some.inj (hread.symm.trans hread')]

theorem judge_eq_ok_iff :
    judge status output = .ok answer ↔ status.success = true ∧ Prints output answer := by
  cases hstatus : status.success with
  | false => simp [judge_of_failure hstatus]
  | true =>
    rcases judge_of_success output hstatus with ⟨a,ha,hjudge⟩ | ⟨hnone,hjudge⟩
    · simp only [hjudge, Except.ok.injEq, true_and]
      exact ⟨fun heq => heq ▸ ha,ha.unique⟩
    · simp [hjudge, hnone answer]

theorem judge_eq_exit_iff {other : ExitStatus} :
    judge status output = .error (.demanglerExit other) ↔
      status.success = false ∧ other = status := by
  cases hstatus : status.success with
  | false => simp [judge_of_failure hstatus, eq_comm]
  | true =>
    rcases judge_of_success output hstatus with ⟨_,_,hjudge⟩ | ⟨_,hjudge⟩ <;>
      simp [hjudge]

theorem judge_eq_output_iff :
    judge status output = .error .demanglerOutput ↔
      status.success = true ∧ ∀ answer, ¬Prints output answer := by
  cases hstatus : status.success with
  | false => simp [judge_of_failure hstatus]
  | true =>
    rcases judge_of_success output hstatus with ⟨a,ha,hjudge⟩ | ⟨hnone,hjudge⟩
    · simp only [hjudge, reduceCtorEq, true_and, false_iff, not_forall, not_not]
      exact ⟨a,ha⟩
    · simp [hjudge, hnone]

end Output

theorem InTime.outcome_eq {run : HelperRun} {timeoutMs : UInt64} (h : run.InTime timeoutMs) :
    run.outcome timeoutMs = judge run.status run.output := by
  obtain ⟨hexit,hclose⟩ := h
  rw [outcome, if_neg]
  simp [hexit, hclose]

end HelperRun

namespace Resolver
variable {lookup : String → Option TypeDesc} {captured : String} {res : Resolved}

theorem needsDemangler_iff : needsDemangler lookup captured = true ↔
    captured ≠ "" ∧ firstFound lookup (plainAttempts captured) = none := by
  rw [needsDemangler, Bool.and_assoc, ← resolvePlain_isNone, resolvePlain_eq_firstFound]
  simp

/-- A text that is neither empty nor changed by trimming is looked up as it is. -/
theorem firstFound_demangledAttempts {output : Option String}
    (htidy : ∀ text ∈ output, text ≠ "" ∧ Text.trimmed text = text) :
    firstFound lookup (demangledAttempts output) = some res ↔
      res.step = .demangled ∧ output = some res.spelling ∧ lookup res.spelling = some res.ty := by
  cases output with
  | none => simp [firstFound, demangledAttempts]
  | some text =>
    obtain ⟨hne,htrim⟩ := htidy text rfl
    rw [demangledAttempts, htrim, if_neg hne, firstFound, List.findSome?_singleton,
      Option.map_eq_some_iff]
    constructor
    · rintro ⟨ty,hty,rfl⟩
      exact ⟨rfl,rfl,hty⟩
    · obtain ⟨ty,step,spelling⟩ := res
      rintro ⟨rfl,hspelling,hty⟩
      cases hspelling
      exact ⟨ty,hty,rfl⟩

/-- A demangler whose answers are neither empty nor changed by trimming gives the resolution of a name
exactly if the name needs it and its answer is in the table. -/
theorem resolve_eq_some_demangled_iff {f : String → Option String}
    (htidy : ∀ name, ∀ text ∈ f name, text ≠ "" ∧ Text.trimmed text = text)
    {m : ResolverMemory} (hm : m.Faithful (.ofFunction f)) (name : String) :
    ((⟨lookup,some (.ofFunction f)⟩ : Resolver).resolve name m).1 = some res ∧
        res.step = .demangled ↔
      needsDemangler lookup (Name.stripQuotes name) = true ∧ res.step = .demangled ∧
        f (Name.stripQuotes name) = some res.spelling ∧ lookup res.spelling = some res.ty := by
  rw [resolve_eq_firstFound lookup f hm, needsDemangler_iff, firstFound_append,
    ← firstFound_demangledAttempts (htidy _)]
  by_cases hempty : Name.stripQuotes name = ""
  · simp [hempty]
  rw [if_neg hempty]
  cases hplain : firstFound lookup (plainAttempts (Name.stripQuotes name)) with
  -- found without the demangler, and the step says so
  | some found =>
    have hstep : found.step ≠ .demangled := step_of_mem_plainAttempts (firstFound_eq_some hplain).1
    rw [Option.some_or]
    constructor
    · rintro ⟨hfound,hres⟩
      cases hfound
      exact absurd hres hstep
    · rintro ⟨⟨_,hnone⟩,_⟩
      cases hnone
  | none =>
    rw [Option.none_or]
    refine ⟨fun h => ⟨⟨hempty,rfl⟩,h.1⟩,fun h => ⟨h.2,?_⟩⟩
    exact step_of_mem_demangledAttempts (firstFound_eq_some h.2).1

end Resolver

namespace Helper
open HelperRun
variable {h : Helper} {launch : Launcher} {name : String} {run : HelperRun}

theorem demangle_eq_some_iff {answer : String} :
    h.demangle launch name = some answer ↔ h.run launch name = .ok answer := by
  rw [demangle]
  cases h.run launch name <;> simp [Except.toOption]

/-- Whatever a helper answers, for whatever name, it printed in a run of its own. -/
theorem exists_prints_of_run {answer : String} (hrun : h.run launch name = .ok answer) :
    ∃ output, Prints output answer := by
  rw [Helper.run] at hrun
  cases hlaunch : launch h.timeoutMs h.program (h.args ++ [name]) with
  | error reason =>
    rw [hlaunch] at hrun
    cases hrun
  | ok run =>
    simp only [hlaunch, outcome] at hrun
    split at hrun
    · cases hrun
    · exact ⟨_,(judge_eq_ok_iff.mp hrun).2⟩

/-- A run of a helper that ended in time fails with its exit unless it exited well; otherwise it yields
what it printed, or fails because that was no answer. An answer is not empty, on one line and trimmed. The
demangler answers with it and has no other answers, and through it the resolver finds what the table has
under the answer, whatever it was asked before. -/
theorem runs_classified (hstarted : launch h.timeoutMs h.program (h.args ++ [name]) = .ok run)
    (htime : run.InTime h.timeoutMs) :
    (∀ status, h.run launch name = .error (.demanglerExit status) ↔
      run.status.success = false ∧ status = run.status) ∧
    (∀ answer, h.run launch name = .ok answer ↔
      run.status.success = true ∧ Prints run.output answer) ∧
    (h.run launch name = .error .demanglerOutput ↔
      run.status.success = true ∧ ∀ answer, ¬Prints run.output answer) ∧
    (∀ answer, h.run launch name = .ok answer →
      answer ≠ "" ∧ SingleLine answer ∧ Text.trimmed answer = answer) ∧
    (∀ answer, h.demangle launch name = some answer ↔ h.run launch name = .ok answer) ∧
    ∀ lookup calls captured, Name.stripQuotes captured = name →
      let r : Resolver := ⟨lookup,some (h.demangler launch)⟩
      let before := (r.runCalls calls .fresh).2
      ∀ res, (r.resolve captured before).1 = some res ∧ res.step = .demangled ↔
        Resolver.needsDemangler lookup name = true ∧ res.step = .demangled ∧
          h.run launch name = .ok res.spelling ∧ lookup res.spelling = some res.ty := by
  have hrun : h.run launch name = judge run.status run.output := by
    rw [Helper.run, hstarted, ← htime.outcome_eq]
  refine ⟨fun status => ?_,fun answer => ?_,?_,fun answer hanswer => ?_,
    fun answer => demangle_eq_some_iff,fun lookup calls captured hname => ?_⟩
  · rw [hrun]
    exact judge_eq_exit_iff
  · rw [hrun]
    exact judge_eq_ok_iff
  · rw [hrun]
    exact judge_eq_output_iff
  · obtain ⟨_,hprints⟩ := exists_prints_of_run hanswer
    exact hprints.tidy
  · intro r before res
    -- the resolver may have asked for other names before, so all answers of the helper must be tidy
    have hfaithful := Resolver.runCalls_faithful lookup (h.demangle launch)
      (ResolverMemory.faithful_fresh _) calls
    have htidy : ∀ name, ∀ text ∈ h.demangle launch name,
        text ≠ "" ∧ Text.trimmed text = text := fun name text htext => by
      obtain ⟨_,hprints⟩ := exists_prints_of_run (demangle_eq_some_iff.mp htext)
      exact ⟨hprints.tidy.1,hprints.tidy.2.2⟩
    subst hname
    rw [← demangle_eq_some_iff]
    exact Resolver.resolve_eq_some_demangled_iff htidy hfaithful captured

/-- A helper that writes two lines, with blanks around the first. -/
def twoLined : Launcher := fun _ _ _ =>
  .ok ⟨.code 0,Text.Utf8.encode "\tWidget<größe> \r\nWidget\n",5,7⟩

theorem runs_classified_twoLined :
    let h : Helper := ⟨"c++filt",["-t"],2000⟩
    let lookup := fun spelling =>
      if spelling = "Widget<größe>" then some (TypeDesc.plain 4 "Widget") else none
    h.run twoLined "6WidgetI5größeE" = .ok "Widget<größe>" ∧
      ((⟨lookup,some (h.demangler twoLined)⟩ : Resolver).resolve " \"6WidgetI5größeE\"" .fresh).1 =
        some ⟨.plain 4 "Widget",.demangled,"Widget<größe>"⟩ := by
  intro h lookup
  have htext : Prints (Text.Utf8.encode "\tWidget<größe> \r\nWidget\n") "Widget<größe>" := by
    refine ⟨_,"\tWidget<größe> \r".toList,rfl,⟨by decide,.inr ⟨"Widget\n".toList,by decide⟩⟩,?_,
      by decide⟩
    exact ⟨'W',by decide,by decide⟩
  have hstarted : twoLined h.timeoutMs h.program (h.args ++ ["6WidgetI5größeE"]) =
      .ok ⟨.code 0,Text.Utf8.encode "\tWidget<größe> \r\nWidget\n",5,7⟩ := rfl
  obtain ⟨_,hok,_,_,_,hresolves⟩ := runs_classified hstarted ⟨by decide,by decide⟩
  have hrun := (hok _).mpr ⟨rfl,htext⟩
  have hresolved := (hresolves lookup [] " \"6WidgetI5größeE\"" (by decide)
    ⟨.plain 4 "Widget",.demangled,"Widget<größe>"⟩).mpr ⟨by decide,rfl,hrun,by decide⟩
  exact ⟨hrun,hresolved.1⟩

end Helper
end ValueInspector
