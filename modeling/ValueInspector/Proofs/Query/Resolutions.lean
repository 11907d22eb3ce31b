import ValueInspector.Proofs.Resolver.Order

/-! # Resolutions in the course of a query

A query may resolve names at many places, and all of them share what the resolver remembers. So
along any query the demangler is given each name once, and only names that need it, also where each
request is answered by another oracle. What is remembered at the end tells all its answers, so that
even with a demangler that contradicts itself the query comes to an evaluation with one answer for
each request. Where names are resolved once at most, what is remembered at the start tells them as
well.
-/
namespace ValueInspector

/-- With a demangler that says what is remembered, a resolver needs no memory. -/
theorem Resolver.resolve_remembered (lookup : String → Option TypeDesc) (m : ResolverMemory)
    (name : String) :
    ((⟨lookup,some (.ofFunction fun name => (m.answers.lookup name).join)⟩ : Resolver).resolve name
      .fresh).1 = remembered lookup m (Name.stripQuotes name) := by
  rw [resolve, remembered]
  dsimp only
  split
  · rfl
  · cases resolvePlain lookup (Name.stripQuotes name) <;> rfl

namespace Host
variable {h : Host} {m m' : ResolverMemory}

/-- A name that the resolver of a host may pass to the demangler. -/
def Consults (h : Host) (name : String) : Prop :=
  h.demangler.isSome ∧ Resolver.needsDemangler h.oracle.lookupType name = true

/-- The same oracle, with a demangler that says what is remembered, if there is one. -/
def recalling (h : Host) (m : ResolverMemory) : Host :=
  ⟨h.oracle,h.demangler.map fun _ => .ofFunction fun name => (m.answers.lookup name).join⟩

theorem answer_resolve (oracle : Oracle) (demangler : Option Demangler) (name : String) :
    (⟨oracle,demangler⟩ : Host).answer m (.resolve name) =
      (⟨oracle.lookupType,demangler⟩ : Resolver).resolve name m := rfl

/-- A request passes the demangler nothing, or one name that needs it. -/
theorem answer_logs {log : List String} (hm : m.Logs log) (r : Request) :
    (h.answer m r).2.Logs log ∨
      ∃ name, h.Consults name ∧ (h.answer m r).2.Logs (log ++ [name]) := by
  rcases h with ⟨oracle,demangler⟩
  cases r with
  | resolve name =>
    cases demangler with
    | none =>
      rw [answer_resolve, Resolver.resolve_none_eq]
      exact .inl hm
    | some d =>
      have hlogs := Resolver.resolve_logs oracle.lookupType d hm name
      split at hlogs
      next hneeds => exact .inr ⟨_,⟨rfl,hneeds⟩,hlogs⟩
      · rw [List.append_nil] at hlogs
        exact .inl hlogs
  | _ => exact .inl hm

/-- A name that a request passes is new to the demangler. -/
theorem answer_asked {log : List String} (hm : m.Logs log) (r : Request) :
    (h.answer m r).2.asked = m.asked ∨
      ∃ name, h.Consults name ∧ name ∉ m.asked ∧ (h.answer m r).2.asked = m.asked ++ [name] := by
  rcases answer_logs (h := h) hm r with hlogs | ⟨name,hname,hlogs⟩
  · exact .inl (hlogs.asked_eq.trans hm.asked_eq.symm)
  · rw [hlogs.asked_eq, hm.asked_eq]
    by_cases hmem : name ∈ log
    · exact .inl (eraseDups_concat_of_mem hmem)
    · exact .inr ⟨name,hname,mt List.mem_eraseDups.mp hmem,eraseDups_concat_of_not_mem hmem⟩

theorem answer_extends (m : ResolverMemory) (r : Request) : m.Extends (h.answer m r).2 := by
  rcases h with ⟨oracle,demangler⟩
  cases r with
  | resolve name =>
    cases demangler with
    | none =>
      rw [answer_resolve, Resolver.resolve_none_eq]
      exact .refl m
    | some d => exact Resolver.resolve_extends oracle.lookupType d name m
  | _ => exact .refl m

/-- An answer can be told from any later memory. -/
theorem answer_eq_recalling {r : Request} (hm : (h.answer m r).2.Extends m') :
    (h.answer m r).1 = (h.recalling m').answers r := by
  rcases h with ⟨oracle,demangler⟩
  cases r with
  | resolve name =>
    cases demangler with
    | none => rw [answers, recalling, Option.map_none, answer_resolve, answer_resolve,
        Resolver.resolve_none_eq, Resolver.resolve_none_eq]
    | some d =>
      rw [answer_resolve] at hm
      rw [answers, recalling, Option.map_some, answer_resolve, answer_resolve,
        Resolver.resolve_remembered, Resolver.remembered_of_extends oracle.lookupType d hm]
  | _ => rfl

end Host

namespace Query
variable {α : Type} {h : Host} {m m' : ResolverMemory}

/-- What is left of a query under way, and what the resolver remembers. Each request so far was answered
on one of the hosts, not always on the same. The look-ups of one resolution are of different texts, so with
all oracles among the hosts the answers may change from any look-up to the next. -/
inductive Reaches {ι : Type} (on : ι → Host) (q : Query α) : Query α → ResolverMemory → Prop
  | start : Reaches on q q .fresh
  | answered {r : Request} {k : r.Answer → Query α} {m : ResolverMemory} (x : ι)
      (h : Reaches on q (ask r k) m) :
      Reaches on q (k ((on x).answer m r).1) ((on x).answer m r).2

section Reached
variable {ι : Type} {on : ι → Host} {q rest : Query α}

/-- On the way the log gets more names, each of which needed the demangler of a host. -/
theorem Reaches.exists_logs (h : q.Reaches on rest m) :
    ∃ log, m.Logs log ∧ ∀ name ∈ log, ∃ x, (on x).Consults name := by
  induction h with
  | start => exact ⟨[],ResolverMemory.logs_fresh,nofun⟩
  | @answered r _ _ x _ ih =>
    obtain ⟨log,hlogs,hlog⟩ := ih
    rcases Host.answer_logs (h := on x) hlogs r with hsame | ⟨name,hname,hmore⟩
    · exact ⟨log,hsame,hlog⟩
    · refine ⟨log ++ [name],hmore,fun other hother => ?_⟩
      rcases List.mem_append.mp hother with hold | hnew
      · exact hlog other hold
      · rw [List.mem_singleton.mp hnew]
        exact ⟨x,hname⟩

theorem Reaches.nodup_asked (h : q.Reaches on rest m) : m.asked.Nodup := by
  obtain ⟨log,hlogs,_⟩ := h.exists_logs
  rw [hlogs.asked_eq]
  exact nodup_eraseDups log

theorem Reaches.exists_consults (h : q.Reaches on rest m) {name : String} (hname : name ∈ m.asked) :
    ∃ x, (on x).Consults name := by
  obtain ⟨log,hlogs,hlog⟩ := h.exists_logs
  rw [hlogs.asked_eq] at hname
  exact hlog name (List.mem_eraseDups.mp hname)

/-- The end of a run on a host is reached. -/
theorem Reaches.run (h : q.Reaches on rest m) (x : ι) :
    q.Reaches on (done (rest.run (on x) m).1) (rest.run (on x) m).2 := by
  induction rest generalizing m with
  | done a => exact h
  | ask r k ih => exact ih _ (h.answered x)

end Reached

theorem run_extends (q : Query α) (m : ResolverMemory) : m.Extends (q.run h m).2 := by
  induction q generalizing m with
  | done a => exact .refl m
  | ask r k ih => exact (Host.answer_extends m r).trans (ih _ _)

/-- All answers of a run can be told from any later memory. -/
theorem run_eq_eval_recalling {q : Query α} (hm : (q.run h m).2.Extends m') :
    (q.run h m).1 = q.eval (h.recalling m').answers := by
  induction q generalizing m with
  | done a => rfl
  | ask r k ih =>
    have hr := Host.answer_eq_recalling ((run_extends (k (h.answer m r).1) _).trans hm)
    rw [eval, ← hr]
    exact ih _ hm

/-- A query comes to the same with some function for a demangler. -/
theorem exists_function_runFresh (oracle : Oracle) (demangler : Option Demangler) (q : Query α) :
    ∃ f, q.runFresh ⟨oracle,demangler⟩ =
      q.eval (Host.answers ⟨oracle,demangler.map fun _ => .ofFunction f⟩) :=
  ⟨_,run_eq_eval_recalling (.refl _)⟩

section Once
variable {β : Type}

theorem eval_congr {P : Request → Prop} {host host' : (r : Request) → r.Answer} {q : Query α}
    (hq : q.AsksOnly P) (h : ∀ r, P r → host r = host' r) : q.eval host = q.eval host' := by
  induction q with
  | done a => rfl
  | ask r k ih =>
    rw [eval, eval, h r hq.1]
    exact ih _ (hq.2 _)

/-- Whatever the answers, names are resolved once at most. -/
def ResolvesOnce : Query α → Prop
  | done _ => True
  | ask r k => (r.IsRead ∧ ∀ answer, (k answer).ResolvesOnce) ∨
    ∀ answer, (k answer).AsksOnly Request.IsRead

theorem resolvesOnce_of_isRead {q : Query α} (hq : q.AsksOnly Request.IsRead) :
    q.ResolvesOnce := by
  cases q with
  | done a => trivial
  | ask r k => exact .inr hq.2

/-- More may be read in front of a query that resolves once. -/
theorem resolvesOnce_bind_left {q : Query α} {f : α → Query β} (hq : q.AsksOnly Request.IsRead)
    (hf : ∀ a, (f a).ResolvesOnce) : (q >>= f).ResolvesOnce := by
  induction q with
  | done a => exact hf a
  | ask r k ih => exact .inl ⟨hq.1,fun answer => ih answer (hq.2 answer)⟩

/-- More may be read behind it. -/
theorem resolvesOnce_bind_right {q : Query α} {f : α → Query β} (hq : q.ResolvesOnce)
    (hf : ∀ a, (f a).AsksOnly Request.IsRead) : (q >>= f).ResolvesOnce := by
  induction q with
  | done a => exact resolvesOnce_of_isRead (hf a)
  | ask r k ih =>
    rcases hq with ⟨hread,hrest⟩ | hrest
    · exact .inl ⟨hread,fun answer => ih answer (hrest answer)⟩
    · exact .inr fun answer => asksOnly_bind (hrest answer) hf

/-- The result of such a query can be told from what the resolver remembers at the start. -/
theorem run_of_resolvesOnce {q : Query α} (hq : q.ResolvesOnce) (h : Host) (m : ResolverMemory) :
    (q.run h m).1 = q.eval fun r => (h.answer m r).1 := by
  induction q with
  | done a => rfl
  | ask r k ih =>
    rw [run, eval]
    dsimp only
    rcases hq with ⟨hread,hrest⟩ | hrest
    · have hm : (h.answer m r).2 = m := by rw [h.answer_of_isRead m hread]
      rw [hm]
      exact ih _ (hrest _)
    · rw [run_of_isRead (hrest _)]
      exact eval_congr (hrest _) fun r hr => by rw [h.answer_of_isRead m hr]

end Once

end Query

theorem Decode.resolvesOnce_bind {α β : Type} {q : Decode α} {f : α → Decode β}
    (hq : q.run.AsksOnly Request.IsRead) (hf : ∀ a, (f a).run.ResolvesOnce) :
    (q >>= f).run.ResolvesOnce := by
  rw [ExceptT.run_bind]
  exact Query.resolvesOnce_bind_left hq fun
    | .ok a => hf a
    | .error _ => trivial

end ValueInspector
