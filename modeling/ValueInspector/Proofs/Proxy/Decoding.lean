import ValueInspector.Proofs.Resolver.Order
import ValueInspector.Proofs.Snapshot.Construction
import ValueInspector.Proxy

/-! # Proxies decode step by step

Decoding a proxy reads its two members, the text of the name, the type that the text resolves to, and the
object as a pointer to that type. Only the two members are needed. Where a later step fails, the view
shows what the earlier ones came to, and the object stays as it is stored.
-/
namespace ValueInspector

/-- A snapshot as an oracle whose casts all succeed or all fail. -/
def Snapshot.oracleCasting (s : Snapshot) (casts : Bool) : Oracle :=
  if casts then s.oracle else s.oracle.withoutCasts

theorem Snapshot.eq_retyped_of_reinterpret {s : Snapshot} {casts : Bool} {v w : RawValue}
    {ty : TypeDesc} (h : (s.oracleCasting casts).reinterpret v ty = .ok w) : w = v.retyped ty := by
  cases casts with
  | false => cases h
  | true => exact (Except.ok.inj h).symm

/-- What is remembered has no influence on the type a name resolves to. -/
theorem Resolver.resolveType_eq_fresh {r : Resolver} {f : String → Option String}
    {m : ResolverMemory} (hr : r.demangler = some (.ofFunction f)) (hm : m.Faithful (.ofFunction f))
    (name : String) : (r.resolveType name m).1 = (r.resolve name .fresh).1.map (·.ty) := by
  rw [← (resolve_eq_fresh hr hm name).1, resolveType]

namespace Proxy

/-- What a view shows of a proxy's two members, told by what the steps after them come to. -/
structure Views (o : Oracle) (resolves : String → Option TypeDesc) (owning : Bool)
    (captured stored : RawValue) (p : Proxy) : Prop where
  label : p.label = if owning then "proxy" else "weak proxy"
  name : p.name = captured
  nameText : ∀ text, p.nameText = some text ↔ o.formatValue captured = .ok text
  resolved : ∀ ty, p.resolved = some ty ↔ ∃ text, o.formatValue captured = .ok text ∧
    resolves text = some ty ∧ ∃ typed, o.reinterpret stored ty.pointer = .ok typed
  typed : ∀ ty, p.resolved = some ty → p.object = ⟨stored.address,ty.pointer⟩
  kept : p.resolved = none → p.object = stored

section Answered
variable (host : (r : Request) → r.Answer) (object : RawValue)

theorem eval_retype (text : String) :
    (retype object (some text)).eval host =
      ((host (.resolve text)).bind fun found =>
        (host (.reinterpret object found.ty.pointer)).toOption.map fun typed =>
          (typed,some found.ty)).getD (object,none) := by
  rw [retype, Query.eval_bind, Query.eval_request]
  cases host (.resolve text) with
  | none => rfl
  | some found =>
    rw [Option.bind_some, Query.eval_bind, Decode.eval_toOption, Decode.eval_reinterpret]
    cases host (.reinterpret object found.ty.pointer) <;> rfl

/-- A reference is retyped if its name is readable and resolves and the cast succeeds. -/
theorem retype_eq_some_iff {nameText : Option String} {typed : RawValue} {ty : TypeDesc} :
    (retype object nameText).eval host = (typed,some ty) ↔
      ∃ text, nameText = some text ∧ (host (.resolve text)).map (·.ty) = some ty ∧
        host (.reinterpret object ty.pointer) = .ok typed := by
  cases nameText with
  | none => simp [retype]
  | some text =>
    rw [eval_retype]
    simp only [Option.some.injEq, exists_eq_left']
    cases host (.resolve text) with
    | none => simp
    | some found =>
      rw [Option.bind_some, Option.map_some, Option.some.injEq]
      constructor
      · intro h
        cases hcast : host (.reinterpret object found.ty.pointer) with
        | error e =>
          rw [hcast] at h
          cases h
        | ok typed' =>
          rw [hcast] at h
          cases h
          exact ⟨rfl,hcast⟩
      · rintro ⟨rfl,hcast⟩
        rw [hcast]
        rfl

theorem retype_eq_none {nameText : Option String}
    (h : ((retype object nameText).eval host).2 = none) :
    ((retype object nameText).eval host).1 = object := by
  cases nameText with
  | none => rfl
  | some text =>
    rw [eval_retype] at h ⊢
    cases hfound : host (.resolve text) with
    | none => rfl
    | some found =>
      rw [hfound, Option.bind_some] at h
      rw [Option.bind_some]
      cases hcast : host (.reinterpret object found.ty.pointer) with
      | error e => rfl
      | ok typed =>
        rw [hcast] at h
        cases h

/-- The view of two members that were read. -/
def view (owning : Bool) (captured stored : RawValue) : Proxy :=
  let nameText := (host (.formatValue captured)).toOption
  let found := (retype stored nameText).eval host
  ⟨labelOf owning,captured,nameText,found.1,found.2⟩

theorem eval_decode (handle : RawValue) (owning : Bool) :
    (decode handle owning).run.eval host =
      (host (.readField handle "m_name")).bind fun captured =>
        (host (.readField handle "m_object")).map (view host owning captured) := by
  rw [decode, Decode.eval_bind, Decode.eval_readField]
  cases host (.readField handle "m_name") with
  | error e => rfl
  | ok captured =>
    dsimp only
    rw [Decode.eval_bind, Decode.eval_readField]
    cases host (.readField handle "m_object") with
    | error e => rfl
    | ok stored =>
      dsimp only
      rw [Decode.eval_bind, Decode.eval_liftM, Decode.eval_toOption]
      dsimp only
      rw [Decode.eval_bind, Decode.eval_liftM]
      rfl

end Answered

section Run
variable {h : Host} {m : ResolverMemory}

/-- Where the demangler is a function, what is remembered has no influence on a decoding. -/
theorem run_decode (hf : h.Functional) (hm : h.Remembers m) (handle : RawValue) (owning : Bool) :
    ((decode handle owning).run.run h m).1 =
      (h.oracle.readField handle "m_name").bind fun captured =>
        (h.oracle.readField handle "m_object").map (view h.answers owning captured) := by
  rw [(Query.run_eq_eval hf hm _).1]
  exact eval_decode h.answers handle owning

/-- Where casts keep the address, a view keeps the object where it is. -/
theorem views_view (hcasts : ∀ v ty w, h.oracle.reinterpret v ty = .ok w → w = v.retyped ty)
    (owning : Bool) (captured stored : RawValue) :
    Views h.oracle (fun text => (h.resolver.resolve text .fresh).1.map (·.ty)) owning captured stored
      (view h.answers owning captured stored) := by
  have htext : ∀ text, (view h.answers owning captured stored).nameText = some text ↔
      h.oracle.formatValue captured = .ok text := by
    intro text
    change (h.oracle.formatValue captured).toOption = some text ↔ _
    cases h.oracle.formatValue captured <;> simp [Except.toOption]
  refine ⟨rfl,rfl,htext,fun ty => ⟨fun hty => ?_,?_⟩,fun ty hty => ?_,
    retype_eq_none h.answers stored⟩
  · obtain ⟨text,hread,hresolved,hcast⟩ := (retype_eq_some_iff h.answers stored).mp (Prod.ext rfl hty)
    exact ⟨text,(htext text).mp hread,hresolved,_,hcast⟩
  · rintro ⟨text,hread,hresolved,typed,hcast⟩
    exact congrArg Prod.snd ((retype_eq_some_iff h.answers stored).mpr
      ⟨text,(htext text).mpr hread,hresolved,hcast⟩)
  · obtain ⟨text,_,_,hcast⟩ := (retype_eq_some_iff h.answers stored).mp (Prod.ext rfl hty)
    exact hcasts _ _ _ hcast

end Run

/-- Decoding fails exactly with the error of the first member that cannot be read. Otherwise the view
shows the name as it is stored, its text where that is readable, and the type it resolves to where the
object can be cast to it; the object then has that type at the same address, and stays as it is in
every other case. A weak proxy differs in its label alone. All this holds with any table of types and
whatever was resolved before. -/
theorem decode_degrades (s : Snapshot) (casts : Bool) (lookup : String → Option TypeDesc)
    (f : String → Option String) (calls calls' : List ResolverCall) (handle : RawValue) :
    let h : Host := ⟨{ s.oracleCasting casts with lookupType := lookup },some (.ofFunction f)⟩
    let before := (h.resolver.runCalls calls .fresh).2
    let decoded owning := ((decode handle owning).run.run h before).1
    (∀ owning e, decoded owning = .error e ↔ s.readField handle "m_name" = .error e ∨
      (∃ captured, s.readField handle "m_name" = .ok captured) ∧
        s.readField handle "m_object" = .error e) ∧
    (∀ owning captured stored, s.readField handle "m_name" = .ok captured →
      s.readField handle "m_object" = .ok stored → ∃ p, decoded owning = .ok p ∧
        Views h.oracle (fun text => (h.resolver.resolveType text before).1) owning captured stored
          p) ∧
    ((decode handle false).run.run h (h.resolver.runCalls calls' .fresh).2).1 =
      (decoded true).map fun p => { p with label := "weak proxy" } := by
  intro h before decoded
  have hfunctional : h.Functional := fun d hd => ⟨f,(Option.some.inj hd).symm⟩
  have hfaithful : ∀ calls, (h.resolver.runCalls calls .fresh).2.Faithful (.ofFunction f) :=
    Resolver.runCalls_faithful lookup f (ResolverMemory.faithful_fresh _)
  have hremembers : ∀ calls, h.Remembers (h.resolver.runCalls calls .fresh).2 := by
    intro calls d hd
    rw [← Option.some.inj hd]
    exact hfaithful calls
  have hdecode : ∀ calls owning, ((decode handle owning).run.run h
      (h.resolver.runCalls calls .fresh).2).1 =
        (s.readField handle "m_name").bind fun captured =>
          (s.readField handle "m_object").map (view h.answers owning captured) := by
    intro calls owning
    rw [run_decode hfunctional (hremembers calls)]
    cases casts <;> rfl
  have hresolve : (fun text => (h.resolver.resolve text .fresh).1.map (·.ty)) =
      fun text => (h.resolver.resolveType text before).1 :=
    funext fun text => (Resolver.resolveType_eq_fresh rfl (hfaithful calls) text).symm
  have hviews := views_view (h := h) (fun _ _ _ => Snapshot.eq_retyped_of_reinterpret)
  rw [hresolve] at hviews
  refine ⟨fun owning e => ?_,fun owning captured stored hcaptured hstored =>
    ⟨_,?_,hviews owning captured stored⟩,?_⟩
  · change ((decode handle owning).run.run h _).1 = _ ↔ _
    rw [hdecode]
    cases s.readField handle "m_name" with
    | error e' => simp [Except.bind]
    | ok captured => cases s.readField handle "m_object" <;> simp [Except.bind, Except.map]
  · change ((decode handle owning).run.run h _).1 = _
    rw [hdecode, hcaptured, hstored]
    rfl
  · change _ = Except.map _ ((decode handle true).run.run h _).1
    rw [hdecode, hdecode]
    cases s.readField handle "m_name" with
    | error e => rfl
    | ok captured =>
      cases s.readField handle "m_object" with
      | error e => rfl
      | ok stored => rfl

/-- A proxy of an object with the captured name `int`. -/
def intProxySteps : List BuilderStep :=
  [.type (.primitive "int" .i32),.type (.primitive "void" .void),.type (.define "Name" .text),
    .type (.record "Proxy" 24 [⟨"m_name",0,.plain 2 "Name"⟩,⟨"m_object",16,⟨1,1,"void"⟩⟩]),
    .memory (.map 4096 #[0,32,0,0,0,0,0,0,3,0,0,0,0,0,0,0,0,48,0,0,0,0,0,0]),
    .memory (.map 8192 #[105,110,116])]

/-- Its object is an `int*` where casts succeed and stays a `void*` where they fail. -/
theorem decode_degrades_int :
    let s := (Construction.ofSteps intProxySteps).builder.snapshot
    let decoded casts := ((decode ⟨4096,.plain 3 "Proxy"⟩ false).run.run
      ⟨{ s.oracleCasting casts with lookupType := s.lookupType },some .silent⟩ .fresh).1
    (∃ p, decoded true = .ok p ∧ p.label = "weak proxy" ∧ p.nameText = some "int" ∧
      p.resolved = some (.plain 0 "int") ∧ p.object = ⟨4112,⟨0,1,"int"⟩⟩) ∧
    ∃ p, decoded false = .ok p ∧ p.nameText = some "int" ∧ p.resolved = none ∧
      p.object = ⟨4112,⟨1,1,"void"⟩⟩ := by
  have hviews casts := (decode_degrades (Construction.ofSteps intProxySteps).builder.snapshot casts
    (Construction.ofSteps intProxySteps).builder.snapshot.lookupType (fun _ => none) [] []
    ⟨4096,.plain 3 "Proxy"⟩).2.1 false ⟨4096,.plain 2 "Name"⟩ ⟨4112,⟨1,1,"void"⟩⟩
      (by decide +kernel) (by decide +kernel)
  obtain ⟨p,hp,hcast⟩ := hviews true
  obtain ⟨q,hq,hkept⟩ := hviews false
  have hresolved : p.resolved = some (.plain 0 "int") :=
    (hcast.resolved _).mpr ⟨"int",by decide +kernel,by decide +kernel,_,rfl⟩
  have hnone : q.resolved = none := Option.eq_none_iff_forall_ne_some.mpr fun ty hty => by
    obtain ⟨_,_,_,_,hfails⟩ := (hkept.resolved ty).mp hty
    cases hfails
  exact ⟨⟨p,hp,hcast.label,(hcast.nameText _).mpr (by decide +kernel),hresolved,hcast.typed _ hresolved⟩,
    q,hq,(hkept.nameText _).mpr (by decide +kernel),hnone,hkept.kept hnone⟩

end Proxy
end ValueInspector
