import ValueInspector.Proofs.Inspector.Display
import ValueInspector.Proofs.Query.Resolutions

/-! # What an inspection asks the demangler

Every proxy below the inspected value is decoded twice, for its summary and for its children, and
each decoding resolves its captured name. The resolver is shared by all visits of one inspection, so
the demangler hears of a name once, and only where the type table has no answer.
-/
namespace ValueInspector.Inspector
variable (i : Inspector) (oracle : Oracle) (demangler : Demangler)

theorem consults_host {name : String} (h : (i.host oracle demangler).Consults name) :
    i.options.demangler.enabled = true ∧ name ≠ "" ∧ oracle.lookupType name = none ∧
      ∀ text, Name.stripLengthPrefix name = some text → oracle.lookupType text = none := by
  obtain ⟨hsome,hneeds⟩ := h
  have henabled : i.options.demangler.enabled = true := by
    by_contra hdisabled
    simp [host, hdisabled] at hsome
  simp only [Resolver.needsDemangler, Bool.and_eq_true, decide_eq_true_eq,
    Option.isNone_iff_eq_none] at hneeds
  obtain ⟨⟨hempty,hdirect⟩,hshort⟩ := hneeds
  refine ⟨henabled,hempty,hdirect,fun text htext => ?_⟩
  rw [htext, Option.bind_some] at hshort
  exact hshort

/-- A demangler that is switched off is never passed a name, whichever oracles answer. -/
theorem asked_eq_nil_of_disabled {ι α : Type} {oracles : ι → Oracle} {q rest : Query α}
    {m : ResolverMemory} (hdisabled : i.options.demangler.enabled = false)
    (h : q.Reaches (fun x => i.host (oracles x) demangler) rest m) : m.asked = [] := by
  refine List.eq_nil_iff_forall_not_mem.mpr fun name hname => ?_
  obtain ⟨x,hconsults⟩ := h.exists_consults hname
  have henabled := (i.consults_host (oracles x) demangler hconsults).1
  rw [hdisabled] at henabled
  cases henabled

/-- During one inspection no name is passed to the demangler twice, and only names that the type
table has no answer for, neither as they stand nor without a length prefix. A demangler that is
switched off is passed none. All this also if the oracle is another one at each request, so that its
answers change: it has none for a name at the request that passes it. -/
theorem inspect_asks_each_name_once (label : String) (v : RawValue) :
    (∀ rest m, (i.inspect label v).Reaches (fun oracle => i.host oracle demangler) rest m →
      m.asked.Nodup ∧
      (∀ (oracle : Oracle) (r : Request),
        let asked := ((i.host oracle demangler).answer m r).2.asked
        asked = m.asked ∨
          ∃ name, name ∉ m.asked ∧ asked = m.asked ++ [name] ∧
            name ≠ "" ∧ oracle.lookupType name = none ∧
            ∀ text, Name.stripLengthPrefix name = some text → oracle.lookupType text = none) ∧
      (i.options.demangler.enabled = false → m.asked = [])) ∧
    let asked := ((i.inspect label v).run (i.host oracle demangler) .fresh).2.asked
    asked.Nodup ∧
    (∀ name ∈ asked, name ≠ "" ∧ oracle.lookupType name = none ∧
      ∀ text, Name.stripLengthPrefix name = some text → oracle.lookupType text = none) ∧
    (i.options.demangler.enabled = false → asked = []) := by
  constructor
  · intro rest m hreached
    refine ⟨hreached.nodup_asked,fun oracle r => ?_,fun hdisabled => ?_⟩
    · obtain ⟨log,hlogs,_⟩ := hreached.exists_logs
      rcases Host.answer_asked (h := i.host oracle demangler) hlogs r with
        hsame | ⟨name,hname,hnew,heq⟩
      · exact .inl hsame
      · exact .inr ⟨name,hnew,heq,(i.consults_host oracle demangler hname).2⟩
    · exact i.asked_eq_nil_of_disabled demangler hdisabled hreached
  · -- one oracle for all requests is a special case
    let on (_ : Unit) : Host := i.host oracle demangler
    have hstart : (i.inspect label v).Reaches on (i.inspect label v) .fresh := .start
    have hreached := hstart.run ()
    refine ⟨hreached.nodup_asked,fun name hname => ?_,fun hdisabled => ?_⟩
    · obtain ⟨_,hconsults⟩ := hreached.exists_consults hname
      exact (i.consults_host oracle demangler hconsults).2
    · exact i.asked_eq_nil_of_disabled demangler hdisabled hreached

/-- The display tree is that of some function for a demangler. -/
theorem exists_function_display (label : String) (v : RawValue) :
    ∃ f, i.display oracle demangler label v = i.display oracle (.ofFunction f) label v := by
  obtain ⟨f,hf⟩ := Query.exists_function_runFresh oracle
    (if i.options.demangler.enabled then some demangler else none) (i.inspect label v)
  refine ⟨f,?_⟩
  have hhost : i.host oracle (.ofFunction f) =
      ⟨oracle,(if i.options.demangler.enabled then some demangler else none).map
        fun _ => .ofFunction f⟩ := by
    unfold host
    split <;> rfl
  rw [display, host, hf, display, runFresh_eq_answers, answers, hhost]

end ValueInspector.Inspector
