import ValueInspector.Query

/-! # Outcomes of queries

Queries are a lawful monad. A query is judged in two ways: by its result when each request has one
answer, and by all the results it can have when requests are answered in any way, also the same
request once so and once otherwise. A query that resolves no names has one result on a host, and
leaves what its resolver remembers alone.
-/
namespace ValueInspector.Query
variable {α β : Type}

protected theorem id_map (q : Query α) : id <$> q = q := by
  induction q with
  | done a => rfl
  | ask r k ih => exact congrArg (ask r) (funext ih)

protected theorem bind_assoc {γ : Type} (q : Query α) (f : α → Query β) (g : β → Query γ) :
    q >>= f >>= g = q >>= fun a => f a >>= g := by
  induction q with
  | done a => rfl
  | ask r k ih => exact congrArg (ask r) (funext ih)

instance : LawfulMonad Query := LawfulMonad.mk' _ Query.id_map (fun _ _ => rfl) Query.bind_assoc

section Answered
variable (host : (r : Request) → r.Answer)

@[simp] theorem eval_pure (a : α) : (pure a : Query α).eval host = a := rfl

@[simp] theorem eval_request (r : Request) : (request r).eval host = host r := rfl

@[simp] theorem eval_bind (q : Query α) (f : α → Query β) :
    (q >>= f).eval host = (f (q.eval host)).eval host := by
  induction q with
  | done a => rfl
  | ask r k ih => exact ih (host r)

@[simp] theorem eval_map (f : α → β) (q : Query α) : (f <$> q).eval host = f (q.eval host) := by
  rw [map_eq_pure_bind, eval_bind, eval_pure]

end Answered

/-- Every result that some answers to its requests lead to has the property. -/
def Always (P : α → Prop) : Query α → Prop
  | done a => P a
  | ask _ k => ∀ answer, (k answer).Always P

theorem always_bind {P : β → Prop} {q : Query α} {f : α → Query β} :
    (q >>= f).Always P ↔ q.Always fun a => (f a).Always P := by
  induction q with
  | done a => exact Iff.rfl
  | ask r k ih => exact forall_congr' ih

theorem Always.mono {P Q : α → Prop} {q : Query α} (h : q.Always P) (hPQ : ∀ a, P a → Q a) :
    q.Always Q := by
  induction q with
  | done a => exact hPQ a h
  | ask r k ih => exact fun answer => ih answer (h answer)

theorem Always.and {P Q : α → Prop} {q : Query α} (hP : q.Always P) (hQ : q.Always Q) :
    q.Always fun a => P a ∧ Q a := by
  induction q with
  | done a => exact ⟨hP,hQ⟩
  | ask r k ih => exact fun answer => ih answer (hP answer) (hQ answer)

theorem always_true (q : Query α) : q.Always fun _ => True := by
  induction q with
  | done a => trivial
  | ask r k ih => exact ih

theorem always_map {P : β → Prop} {f : α → β} {q : Query α} :
    (f <$> q).Always P ↔ q.Always fun a => P (f a) := by
  rw [map_eq_pure_bind, always_bind]
  exact Iff.rfl

/-- In particular the result on a host has it, whatever its resolver remembers. -/
theorem Always.run {P : α → Prop} {q : Query α} (h : q.Always P) (on : Host) (m : ResolverMemory) :
    P (q.run on m).1 := by
  induction q generalizing m with
  | done a => exact h
  | ask r k ih => exact ih _ (h _) _

/-- Whatever the answers, all requests are of one kind. -/
def AsksOnly (P : Request → Prop) : Query α → Prop
  | done _ => True
  | ask r k => P r ∧ ∀ answer, (k answer).AsksOnly P

theorem asksOnly_bind {P : Request → Prop} {q : Query α} {f : α → Query β} (hq : q.AsksOnly P)
    (hf : ∀ a, (f a).AsksOnly P) : (q >>= f).AsksOnly P := by
  induction q with
  | done a => exact hf a
  | ask r k ih => exact ⟨hq.1,fun answer => ih answer (hq.2 answer)⟩

theorem asksOnly_map {P : Request → Prop} {q : Query α} (hq : q.AsksOnly P) (f : α → β) :
    (f <$> q).AsksOnly P := by
  rw [map_eq_pure_bind]
  exact asksOnly_bind hq fun _ => trivial

theorem asksOnly_request {P : Request → Prop} {r : Request} (h : P r) : (request r).AsksOnly P :=
  ⟨h,fun _ => trivial⟩

end ValueInspector.Query

namespace ValueInspector

/-- Requests that the oracle answers alone. -/
def Request.IsRead : Request → Prop
  | .resolve _ => False
  | _ => True

/-- The answer to a request with a resolver that remembers nothing. -/
def Host.answers (h : Host) (r : Request) : r.Answer := (h.answer .fresh r).1

theorem Host.answer_of_isRead (h : Host) (m : ResolverMemory) {r : Request} (hr : r.IsRead) :
    h.answer m r = (h.answers r,m) := by
  cases r with
  | resolve name => exact hr.elim
  | _ => rfl

section Answers
variable (h : Host) (v : RawValue)

@[simp] theorem Host.answers_readField (field : String) :
    h.answers (.readField v field) = h.oracle.readField v field := rfl

@[simp] theorem Host.answers_readInteger :
    h.answers (.readInteger v) = h.oracle.readInteger v := rfl

end Answers

theorem Query.run_of_isRead {α : Type} {q : Query α} (hq : q.AsksOnly Request.IsRead) (h : Host)
    (m : ResolverMemory) : q.run h m = (q.eval h.answers,m) := by
  induction q with
  | done a => rfl
  | ask r k ih =>
    rw [run, h.answer_of_isRead m hq.1]
    exact ih _ (hq.2 _)

end ValueInspector

namespace ValueInspector.Decode
variable {α β : Type}

section Answered
variable (host : (r : Request) → r.Answer) (v : RawValue)

@[simp] theorem eval_readInteger : (readInteger v).run.eval host = host (.readInteger v) := rfl

@[simp] theorem eval_dereference : (dereference v).run.eval host = host (.dereference v) := rfl

@[simp] theorem eval_readField (field : String) :
    (readField v field).run.eval host = host (.readField v field) := rfl

@[simp] theorem eval_formatValue : (formatValue v).run.eval host = host (.formatValue v) := rfl

@[simp] theorem eval_fieldNames : (fieldNames v).run.eval host = host (.fieldNames v) := rfl

@[simp] theorem eval_reinterpret (ty : TypeDesc) :
    (reinterpret v ty).run.eval host = host (.reinterpret v ty) := rfl

@[simp] theorem eval_lookupType (name : String) :
    (lookupType name).run.eval host = .ok (host (.lookupType name)) := rfl

@[simp] theorem eval_throw (e : InspectError) :
    (throw e : Decode α).run.eval host = .error e := rfl

@[simp] theorem eval_pure (a : α) : (pure a : Decode α).run.eval host = .ok a := rfl

/-- A failure ends a decoding. -/
@[simp] theorem eval_bind (q : Decode α) (f : α → Decode β) :
    (q >>= f).run.eval host =
      match q.run.eval host with
      | .ok a => (f a).run.eval host
      | .error e => .error e := by
  rw [ExceptT.run_bind, Query.eval_bind]
  cases q.run.eval host <;> rfl

theorem eval_bind_eq_ok_iff {q : Decode α} {f : α → Decode β} {b : β} :
    (q >>= f).run.eval host = .ok b ↔
      ∃ a, q.run.eval host = .ok a ∧ (f a).run.eval host = .ok b := by
  rw [eval_bind]
  cases q.run.eval host <;> simp

theorem eval_bind_eq_error_iff {q : Decode α} {f : α → Decode β} {e : InspectError} :
    (q >>= f).run.eval host = .error e ↔
      q.run.eval host = .error e ∨ ∃ a, q.run.eval host = .ok a ∧ (f a).run.eval host = .error e := by
  rw [eval_bind]
  cases q.run.eval host <;> simp

/-- A query that cannot fail does not end one. -/
@[simp] theorem eval_liftM (q : Query α) :
    (liftM q : Decode α).run.eval host = .ok (q.eval host) := by
  change (Except.ok <$> q).eval host = _
  rw [Query.eval_map]

theorem eval_toOption (q : Decode α) : q.toOption.eval host = (q.run.eval host).toOption := by
  rw [toOption, Query.eval_bind]
  cases q.run.eval host <;> rfl

theorem eval_toOption_eq_some_iff {q : Decode α} {a : α} :
    q.toOption.eval host = some a ↔ q.run.eval host = .ok a := by
  rw [eval_toOption]
  cases q.run.eval host <;> simp [Except.toOption]

end Answered

theorem asksOnly_toOption {P : Request → Prop} {q : Decode α} (hq : q.run.AsksOnly P) :
    q.toOption.AsksOnly P :=
  Query.asksOnly_bind hq fun
    | .ok _ => trivial
    | .error _ => trivial

theorem asksOnly_bind {P : Request → Prop} {q : Decode α} {f : α → Decode β}
    (hq : q.run.AsksOnly P) (hf : ∀ a, (f a).run.AsksOnly P) : (q >>= f).run.AsksOnly P := by
  rw [ExceptT.run_bind]
  exact Query.asksOnly_bind hq fun
    | .ok a => hf a
    | .error _ => trivial

end ValueInspector.Decode
