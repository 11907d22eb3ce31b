import ValueInspector.Proofs.Inspector.Shape
import ValueInspector.Proofs.Inspector.Texts
import ValueInspector.Proofs.Node.Lines
import ValueInspector.Proofs.Printer.SingleLine

/-! # Lines of a display tree

With the standard printers and with names on one line, all labels, types and errors of a tree are on one
line. A summary is on one line too, unless it quotes a text of the inspected program with a line feed.
The text of the tree has a line for each node and each mark, and it has more exactly if there is such a
summary.
-/
namespace ValueInspector

theorem singleLine_truncateText {limit : Nat} {text : String} (h : SingleLine text) :
    SingleLine (truncateText limit text) := by
  rw [truncateText]
  split
  · exact h
  · rw [singleLine_ofList, List.mem_append, not_or]
    exact ⟨fun hmem => h (List.mem_of_mem_take hmem),by decide⟩

/-- A visit is shown on one line, but for what its summary quotes. -/
structure Survey.KeepsLines (s : Snapshot) (layout : StandardLayout) (t : Survey) : Prop where
  label : SingleLine t.label
  typeName : ∀ v ∈ t.value, SingleLine v.typeName
  error : ∀ e ∈ t.error, SingleLine e.message
  summary : ∀ text ∈ t.summary, SingleLine text ∨ ∃ v ∈ t.value, s.QuotesLineFeed layout v

namespace Inspector

section Failure
variable {host : (r : Request) → r.Answer} {i : Inspector} {below : Option Look} {f : Frame}
  {label : String} {v : RawValue}

theorem error_outlinePointer {s : Survey} {n : Int64} (hn : host (.readInteger v) = .ok n) :
    (outlinePointer host below v s).error = s.error := by
  unfold outlinePointer
  rw [hn]
  dsimp only
  repeat' split
  all_goals rfl

/-- A visit fails with its summary, with the address of a pointer or with the list of its children. -/
theorem outlineValue_failure {e : InspectError}
    (h : (i.outlineValue host below f label v).error = some e) :
    (i.summarize v).run.eval host = .error e ∨ host (.readInteger v) = .error e ∨
      (i.children v).run.eval host = .error e := by
  cases hsaid : (i.summarize v).run.eval host with
  | error e' =>
    rw [outlineValue_error hsaid] at h
    cases h
    exact .inl rfl
  | ok said =>
    refine .inr ?_
    rw [outlineValue, hsaid] at h
    dsimp only at h
    split at h
    · cases hn : host (.readInteger v) with
      | error e' =>
        rw [outlinePointer_error hn] at h
        cases h
        exact .inl rfl
      | ok n =>
        rw [error_outlinePointer hn] at h
        cases h
    · cases hcs : (i.children v).run.eval host with
      | error e' =>
        rw [outlineMembers_error hcs] at h
        cases h
        exact .inr rfl
      | ok cs =>
        rw [error_outlineMembers hcs] at h
        cases h

end Failure

theorem membersOf_eq_members (v : RawValue) (names : List String) :
    membersOf v names = Printer.members v (names.map fun name => (name,name)) := by
  induction names with
  | nil => rfl
  | cons name rest ih =>
    rw [membersOf, ih]
    rfl

section Answered
variable {s : Snapshot} (hs : s.NamesOnOneLine) {options : InspectOptions}
  (hlayout : options.layout.NamesOnOneLine) (demangler : Option Demangler) {v : RawValue}
  (hv : SingleLine v.ty.base)
include hs hlayout hv

theorem yields_eval_summarize :
    Yields (fun said => ∀ text ∈ said, SingleLine text ∨ s.QuotesLineFeed options.layout v)
      ((summarize ⟨.standard,options⟩ v).run.eval (Host.answers ⟨s.oracle,demangler⟩)) := by
  rw [summarize]
  split
  next printer hprinter =>
    exact (Printer.keepsLines_of_lookup_standard hs hlayout demangler hprinter).summary v hv
  · have hformat : Yields (fun said => ∀ text ∈ said, SingleLine text ∨
        s.QuotesLineFeed options.layout v) ((do return some (← Decode.formatValue v) :
          Decode (Option String)).run.eval (Host.answers ⟨s.oracle,demangler⟩)) := by
      refine Yields.eval_bind (s.yields_formatValue hv) fun text htext => ?_
      rintro _ ⟨⟩
      exact Snapshot.Quotes.itself.singleLine_or htext
    split
    · refine Yields.eval_bind (s.yields_fieldNames hs hv) fun names _ => ?_
      split
      · exact fun _ h => (Option.not_mem_none _ h).elim
      · exact hformat
    · exact hformat

theorem yields_eval_children :
    Yields (fun cs => ∀ c ∈ cs, Child.OnOneLine c)
      ((children ⟨.standard,options⟩ v).run.eval (Host.answers ⟨s.oracle,demangler⟩)) := by
  rw [children]
  split
  next printer hprinter =>
    exact (Printer.keepsLines_of_lookup_standard hs hlayout demangler hprinter).children v hv
  · refine Yields.eval_bind (s.yields_fieldNames hs hv) fun names hnames => ?_
    rw [membersOf_eq_members]
    refine yields_eval_members hs hv fun p hp => ?_
    obtain ⟨name,hname,rfl⟩ := List.mem_map.mp hp
    exact ⟨hnames name hname,hnames name hname⟩

/-- What is handed down is on one line. -/
theorem onOneLine_of_handsDown {c : Child}
    (hc : HandsDown (Host.answers ⟨s.oracle,demangler⟩) ⟨.standard,options⟩ v c) : c.OnOneLine := by
  cases hc with
  | target htarget =>
    have hyields := s.yields_dereference hv
    rw [show s.dereference v = .ok _ from htarget] at hyields
    exact Child.onOneLine_of_value (by decide) hyields.2
  | member hcs hmem =>
    have hyields := yields_eval_children hs hlayout demangler hv
    rw [hcs] at hyields
    exact hyields c hmem

/-- A visit of a labelled value keeps to one line. -/
theorem keepsLines_outlineValue {label : String} (hlabel : SingleLine label) (below : Option Look)
    (f : Frame) :
    (outlineValue (Host.answers ⟨s.oracle,demangler⟩) ⟨.standard,options⟩ below f label
      v).KeepsLines s options.layout := by
  have hsummarize := yields_eval_summarize hs hlayout demangler hv
  obtain ⟨summary,error,truncated,followed,children,heq⟩ := outlineValue_eq
    (Host.answers ⟨s.oracle,demangler⟩) v ⟨.standard,options⟩ below f label
  constructor
  case label => rwa [heq]
  case typeName =>
    rw [heq]
    rintro w ⟨⟩
    exact TypeDesc.singleLine_spelling.mpr hv
  case error =>
    intro e he
    rcases outlineValue_failure he with h | h | h
    · rw [h] at hsummarize
      exact hsummarize
    · have hyields := s.yields_readInteger hv
      rw [show s.readInteger v = .error e from h] at hyields
      exact hyields
    · have hyields := yields_eval_children hs hlayout demangler hv
      rw [h] at hyields
      exact hyields
  case summary =>
    intro text htext
    cases hsaid : (summarize ⟨.standard,options⟩ v).run.eval (Host.answers ⟨s.oracle,demangler⟩) with
    | error e =>
      rw [outlineValue_error hsaid] at htext
      cases htext
    | ok said =>
      rw [hsaid] at hsummarize
      rw [summary_outlineValue hsaid] at htext
      obtain ⟨full,hfull,rfl⟩ := Option.map_eq_some_iff.mp htext
      refine (hsummarize full hfull).imp singleLine_truncateText fun hquotes => ⟨v,?_,hquotes⟩
      rw [heq]
      rfl

omit hv in
/-- With names on one line, a tree shows all but quoted texts on one line. Its text ends with a line
feed and has at least one for each node and each mark, and there are no more exactly if all summaries
are on one line. -/
theorem inspect_keeps_lines {label : String} (hlabel : SingleLine label)
    (hv : SingleLine v.ty.base) (demangler : Demangler) :
    let i : Inspector := ⟨.standard,options⟩
    let tree := i.display s.oracle demangler label v
    ((i.inspect label v).runFresh (i.host s.oracle demangler)).All
      (Survey.KeepsLines s options.layout) ∧
    tree.text.toList.getLast? = some '\n' ∧
    tree.preorder.length + tree.marks ≤ tree.text.toList.count '\n' ∧
    (tree.text.toList.count '\n' = tree.preorder.length + tree.marks ↔
      tree.All fun n => ∀ text ∈ n.summary, SingleLine text) := by
  intro i tree
  have hroot : ((i.inspect label v).runFresh (i.host s.oracle demangler)).All
      (Survey.KeepsLines s options.layout) := by
    obtain ⟨f,hf⟩ := Query.exists_function_runFresh s.oracle
      (if i.options.demangler.enabled then some demangler else none) (i.inspect label v)
    rw [host, hf, eval_inspect]
    refine all_outline_of_handsDown (Q := Child.OnOneLine) (fun label v c hq hc => ?_)
      (fun label f hq => ?_) (fun below _ f label v hq => ?_) _ _ ?_
    · exact onOneLine_of_handsDown hs hlayout _ (hq.value v rfl) hc
    · refine ⟨hq.label,fun _ h => (Option.not_mem_none _ h).elim,
        fun _ h => (Option.not_mem_none _ h).elim,?_⟩
      rintro _ ⟨⟩
      exact .inl singleLine_noInterpretation
    · exact keepsLines_outlineValue hs hlayout _ (hq.value v rfl) hq.label below f
    · exact Child.onOneLine_of_value hlabel hv
  refine ⟨hroot,?_,Node.count_lineFeed_text (Survey.all_toNode_iff.mpr ?_)⟩
  · rw [Node.text, String.toList_ofList]
    exact Node.getLast?_render 0 tree
  · refine hroot.mono fun t ht => ⟨?_,?_,?_⟩
    · rw [Survey.label_toNode]
      exact ht.label
    · rw [Survey.typeName_toNode]
      intro text htext
      obtain ⟨w,hw,rfl⟩ := Option.map_eq_some_iff.mp htext
      exact ht.typeName w hw
    · rw [Survey.error_toNode]
      intro text htext
      obtain ⟨e,he,rfl⟩ := Option.map_eq_some_iff.mp htext
      exact ht.error e he

end Answered

/-- A text with a line feed in the middle. -/
def brokenTextSteps : List BuilderStep :=
  [.type (.define "std::string" .text),
    .memory (.map 4096 #[0,32,0,0,0,0,0,0,3,0,0,0,0,0,0,0]),
    .memory (.map 8192 #[97,10,98])]

theorem namesOnOneLine_brokenText :
    (Construction.ofSteps brokenTextSteps).builder.snapshot.NamesOnOneLine := by
  have hentries : ∀ (id : Nat) (entry : TypeDef),
      (Construction.ofSteps brokenTextSteps).builder.snapshot.entries[id]? = some entry →
        entry = ⟨"std::string",.text⟩ := by
    intro id entry h
    have hmem := Array.mem_of_getElem? h
    rw [show (Construction.ofSteps brokenTextSteps).builder.snapshot.entries =
      #[⟨"std::string",.text⟩] by decide +kernel] at hmem
    simpa using hmem
  refine ⟨fun id entry h => ?_,fun id name size fields h => ?_⟩
  · rw [hentries id entry h]
    decide
  · cases hentries id _ h

theorem StandardLayout.namesOnOneLine_standard : StandardLayout.standard.NamesOnOneLine :=
  ⟨by decide,by decide,by decide,by decide,by decide⟩

/-- Its summary shows the line feed, so it is a text that has one. -/
theorem inspect_keeps_lines_brokenText :
    let s := (Construction.ofSteps brokenTextSteps).builder.snapshot
    s.NamesOnOneLine ∧ StandardLayout.standard.NamesOnOneLine ∧ SingleLine "text" ∧
      SingleLine "std::string" ∧ s.QuotesLineFeed .standard ⟨4096,.plain 0 "std::string"⟩ := by
  have hnames := namesOnOneLine_brokenText
  have hlayout := StandardLayout.namesOnOneLine_standard
  refine ⟨hnames,hlayout,by decide,by decide,?_⟩
  have hroot := (@inspect_keeps_lines _ hnames .standard hlayout ⟨4096,.plain 0 "std::string"⟩ "text"
    (by decide) (by decide) .silent).1
  have houtline : (inspect ⟨.standard,.standard⟩ "text" ⟨4096,.plain 0 "std::string"⟩).runFresh
      (host ⟨.standard,.standard⟩ (Construction.ofSteps brokenTextSteps).builder.snapshot.oracle
        .silent) = outline _ _ _ _ "text" ⟨4096,.plain 0 "std::string"⟩ :=
    (runFresh_eq_answers ⟨.standard,.standard⟩ _ (fun _ => none) _).trans (eval_inspect ..)
  rw [houtline] at hroot
  cases hroot with
  | mk here _ =>
    obtain ⟨w,hw,hquotes⟩ := (here.summary "a\nb" (by decide +kernel)).resolve_left (by decide)
    rw [value_outline] at hw
    cases hw
    exact hquotes

/-- The tree of that text has one node and no mark, and two lines. -/
theorem text_forges_line :
    let s := (Construction.ofSteps brokenTextSteps).builder.snapshot
    let tree := display ⟨.standard,.standard⟩ s.oracle .silent "text" ⟨4096,.plain 0 "std::string"⟩
    s.NamesOnOneLine ∧ StandardLayout.standard.NamesOnOneLine ∧
      s.lookupType "std::string" = some (.plain 0 "std::string") ∧
      tree.text = "text (std::string) = a\nb\n" ∧ tree.text.toList.count '\n' = 2 ∧
      tree.preorder.length = 1 ∧ tree.marks = 0 := by
  dsimp only
  rw [show Demangler.silent = .ofFunction fun _ => none from rfl, display_eq_outline]
  exact ⟨namesOnOneLine_brokenText,StandardLayout.namesOnOneLine_standard,by decide +kernel,
    by decide +kernel,by decide +kernel,by decide +kernel,by decide +kernel⟩

end Inspector
end ValueInspector
