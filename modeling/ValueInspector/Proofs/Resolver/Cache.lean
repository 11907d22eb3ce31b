import ValueInspector.Proofs.Query.Outcomes

/-! # The demangling cache is transparent

Where the demangler is a function of the name, what a resolver remembers agrees with it at all times.
So a query has the same result whatever was resolved before it, and running it comes to evaluating
it with one answer for each request.
-/
namespace ValueInspector

/-- The demangler, if there is one, answers a name in one way. -/
def Host.Functional (h : Host) : Prop := ∀ d ∈ h.demangler, ∃ f, d = .ofFunction f

/-- What is remembered is what the demangler says, whatever it was asked before. -/
def ResolverMemory.Faithful (m : ResolverMemory) (d : Demangler) : Prop :=
  ∀ p ∈ m.answers, ∀ asked, d.answer asked p.1 = p.2

theorem ResolverMemory.faithful_fresh (d : Demangler) : fresh.Faithful d := by
  intro p hp
  cases hp

namespace Resolver
variable {f : String → Option String} {m : ResolverMemory}

theorem consult_ofFunction (hm : m.Faithful (.ofFunction f)) (name : String) :
    (consult (.ofFunction f) name m).1 = f name ∧
      (consult (.ofFunction f) name m).2.Faithful (.ofFunction f) := by
  unfold consult
  cases h : m.answers.lookup name with
  | some answer =>
    obtain ⟨l₁,l₂,hl,_⟩ := List.lookup_eq_some_iff.mp h
    have hmem : (name,answer) ∈ m.answers := by rw [hl]; simp
    exact ⟨(hm _ hmem []).symm,hm⟩
  | none =>
    refine ⟨rfl,?_⟩
    intro p hp asked
    rcases List.mem_cons.mp hp with rfl | hp
    · rfl
    · exact hm p hp asked

/-- What is remembered has no influence on a resolution, and stays faithful. -/
theorem resolve_eq_fresh {r : Resolver} (hr : r.demangler = some (.ofFunction f))
    (hm : m.Faithful (.ofFunction f)) (name : String) :
    (r.resolve name m).1 = (r.resolve name .fresh).1 ∧
      (r.resolve name m).2.Faithful (.ofFunction f) := by
  have hc := consult_ofFunction hm (Name.stripQuotes name)
  have h0 := consult_ofFunction (ResolverMemory.faithful_fresh (.ofFunction f))
    (Name.stripQuotes name)
  unfold resolve
  dsimp only
  split
  · exact ⟨rfl,hm⟩
  · cases resolvePlain r.lookup (Name.stripQuotes name) with
    | some found => exact ⟨rfl,hm⟩
    | none =>
      simp only [hr]
      exact ⟨by rw [hc.1, h0.1],hc.2⟩

end Resolver

namespace Host

/-- A memory that the resolver of a host can have. -/
def Remembers (h : Host) (m : ResolverMemory) : Prop := ∀ d ∈ h.demangler, m.Faithful d

variable {h : Host} {m : ResolverMemory}

theorem answer_eq_answers (hf : h.Functional) (hm : h.Remembers m) (r : Request) :
    (h.answer m r).1 = h.answers r ∧ h.Remembers (h.answer m r).2 := by
  cases r with
  | resolve name =>
    cases hd : h.demangler with
    | none =>
      have hnone : h.resolver.demangler = none := hd
      simp only [answers, answer, Resolver.resolve, hnone]
      split
      · exact ⟨rfl,hm⟩
      · split <;> exact ⟨rfl,hm⟩
    | some d =>
      obtain ⟨f,rfl⟩ := hf d hd
      have hr := Resolver.resolve_eq_fresh (r := h.resolver) hd (hm _ hd) name
      refine ⟨hr.1,fun d' hd' => ?_⟩
      obtain rfl : Demangler.ofFunction f = d' := by simpa [hd] using hd'
      exact hr.2
  | _ => exact ⟨rfl,hm⟩

end Host

namespace Query
variable {α : Type} {h : Host} {m : ResolverMemory}

theorem run_eq_eval (hf : h.Functional) (hm : h.Remembers m) (q : Query α) :
    (q.run h m).1 = q.eval h.answers ∧ h.Remembers (q.run h m).2 := by
  induction q generalizing m with
  | done a => exact ⟨rfl,hm⟩
  | ask r k ih =>
    have ha := Host.answer_eq_answers hf hm r
    simp only [run, eval]
    rw [← ha.1]
    exact ih _ ha.2

/-- With a functional demangler a run is an evaluation. -/
theorem runFresh_eq_eval (hf : h.Functional) (q : Query α) : q.runFresh h = q.eval h.answers :=
  (run_eq_eval hf (fun d _ => ResolverMemory.faithful_fresh d) q).1

end Query
end ValueInspector
