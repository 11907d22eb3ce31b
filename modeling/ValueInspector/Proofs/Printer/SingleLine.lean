import ValueInspector.Proofs.Implementation.Unwrapping
import ValueInspector.Proofs.Printer.Unions
import ValueInspector.Proofs.Proxy.Decoding
import ValueInspector.Proofs.Query.Resolutions
import ValueInspector.Proofs.Registry.Registration
import ValueInspector.Proofs.Snapshot.SingleLine

/-! # What printers can show on more than one line

A printer of the standard object model fails with messages on one line and lists children with labels and
types on one line, if all names are. Its summary is on one line too, unless it quotes a text with a line
feed: the content of a union, the name of a proxy, or the name in the implementation of an object.
-/
namespace ValueInspector

structure StandardLayout.NamesOnOneLine (layout : StandardLayout) : Prop where
  variantField : SingleLine layout.variantField
  variantIndex : SingleLine layout.variantIndex
  pimplField : SingleLine layout.pimplField
  pimplPointer : ∀ name ∈ layout.pimplPointer, SingleLine name
  optionalEngaged : ∀ name ∈ layout.optionalEngaged, SingleLine name

/-- A child with its label and its type on one line. -/
structure Child.OnOneLine (c : Child) : Prop where
  label : SingleLine c.label
  value : ∀ v ∈ c.value, SingleLine v.ty.base

theorem Child.onOneLine_of_value {label : String} {w : RawValue} (hlabel : SingleLine label)
    (hw : SingleLine w.ty.base) : (⟨label,some w⟩ : Child).OnOneLine where
  label := hlabel
  value _ h := Option.some.inj h ▸ hw

namespace Snapshot

/-- The values whose texts may be part of what is shown of a value. -/
inductive Quotes (s : Snapshot) (layout : StandardLayout) (v : RawValue) : RawValue → Prop
  | itself : Quotes s layout v v
  | content {storage : RawValue} (h : s.HasMember v layout.variantField storage) (ty : TypeDesc) :
      Quotes s layout v (storage.retyped ty)
  | name {u : RawValue} (h : s.HasMember v "m_name" u) : Quotes s layout v u
  | implementationName {implementation : String} {inner u : RawValue}
      (h : s.Unwraps layout v implementation inner) (hu : s.HasMember inner "m_name" u) :
      Quotes s layout v u

def QuotesLineFeed (s : Snapshot) (layout : StandardLayout) (v : RawValue) : Prop :=
  ∃ u, s.Quotes layout v u ∧ s.HoldsLineFeed u

/-- The text of a value that is quoted. -/
theorem Quotes.singleLine_or {s : Snapshot} {layout : StandardLayout} {v u : RawValue}
    {text : String} (hu : s.Quotes layout v u) (htext : SingleLine text ↔ ¬s.HoldsLineFeed u) :
    SingleLine text ∨ s.QuotesLineFeed layout v :=
  or_iff_not_imp_right.mpr fun hquotes => htext.mpr fun hline => hquotes ⟨u,hu,hline⟩

end Snapshot

/-- A view with its label and the types of its two members on one line, and a text that may quote. -/
structure Proxy.OnOneLine (s : Snapshot) (layout : StandardLayout) (v : RawValue) (p : Proxy) :
    Prop where
  label : SingleLine p.label
  name : SingleLine p.name.ty.base
  object : SingleLine p.object.ty.base
  nameText : ∀ text ∈ p.nameText, SingleLine text ∨ s.QuotesLineFeed layout v

namespace Printer

/-- With names on one line, a printer shows all but quoted texts on one line. -/
structure KeepsLines (s : Snapshot) (demangler : Option Demangler) (layout : StandardLayout)
    (p : Printer) : Prop where
  summary (v : RawValue) (hv : SingleLine v.ty.base) :
    Yields (fun said => ∀ text ∈ said, SingleLine text ∨ s.QuotesLineFeed layout v)
      ((p.summary layout v).run.eval (Host.answers ⟨s.oracle,demangler⟩))
  children (v : RawValue) (hv : SingleLine v.ty.base) :
    Yields (fun cs => ∀ c ∈ cs, Child.OnOneLine c)
      ((p.children layout v).run.eval (Host.answers ⟨s.oracle,demangler⟩))

end Printer

theorem singleLine_noInterpretation : SingleLine Union.noInterpretation := by decide

section Decode
variable {α β : Type} {host : (r : Request) → r.Answer} {P : α → Prop} {q : Decode α}

theorem Yields.eval_bind {Q : β → Prop} {f : α → Decode β} (h : Yields P (q.run.eval host))
    (hf : ∀ a, P a → Yields Q ((f a).run.eval host)) : Yields Q ((q >>= f).run.eval host) := by
  rw [Decode.eval_bind]
  cases hq : q.run.eval host with
  | error e =>
    rw [hq] at h
    exact h
  | ok a =>
    rw [hq] at h
    exact hf a h

end Decode

section Answered
variable {s : Snapshot} (hs : s.NamesOnOneLine) {layout : StandardLayout}
  (hlayout : layout.NamesOnOneLine) {demangler : Option Demangler} {v : RawValue}
  (hv : SingleLine v.ty.base)
include hs hv

theorem yields_eval_readField {field : String} (hfield : SingleLine field) :
    Yields (fun m => s.HasMember v field m ∧ SingleLine m.ty.base)
      ((Decode.readField v field).run.eval (Host.answers ⟨s.oracle,demangler⟩)) :=
  s.yields_readField hs hv hfield

theorem yields_eval_readPath {path : List String} (hpath : ∀ name ∈ path, SingleLine name) :
    Yields (fun w => s.HasPath v path w ∧ SingleLine w.ty.base)
      ((Decode.readPath v path).run.eval (Host.answers ⟨s.oracle,demangler⟩)) := by
  induction path generalizing v with
  | nil => exact ⟨.nil v,hv⟩
  | cons field path ih =>
    obtain ⟨hfield,hrest⟩ := List.forall_mem_cons.mp hpath
    refine (yields_eval_readField hs hv hfield).eval_bind fun m hm => ?_
    exact (ih hm.2 hrest).mono fun w hw => ⟨.cons hm.1 hw.1,hw.2⟩

theorem yields_eval_members {labels : List (String × String)}
    (hlabels : ∀ p ∈ labels, SingleLine p.1 ∧ SingleLine p.2) :
    Yields (fun cs => ∀ c ∈ cs, Child.OnOneLine c)
      ((Printer.members v labels).run.eval (Host.answers ⟨s.oracle,demangler⟩)) := by
  induction labels with
  | nil => exact List.forall_mem_nil _
  | cons p rest ih =>
    obtain ⟨hp,hrest⟩ := List.forall_mem_cons.mp hlabels
    refine (yields_eval_readField hs hv hp.2).eval_bind fun member hmember => ?_
    refine (ih hrest).eval_bind fun cs hcs => ?_
    exact List.forall_mem_cons.mpr ⟨Child.onOneLine_of_value hp.1 hmember.2,hcs⟩

omit hv in
/-- A resolved type is in the table, so it is on one line too. -/
theorem singleLine_base_eval_retype {object : RawValue} (hobject : SingleLine object.ty.base)
    (nameText : Option String) :
    SingleLine ((Proxy.retype object nameText).eval (Host.answers ⟨s.oracle,demangler⟩)).1.ty.base := by
  generalize hfound : (Proxy.retype object nameText).eval (Host.answers ⟨s.oracle,demangler⟩) = found
  rcases found with ⟨typed,_ | ty⟩
  · have hnone : ((Proxy.retype object nameText).eval (Host.answers ⟨s.oracle,demangler⟩)).2 =
        none := by rw [hfound]
    have hkept := Proxy.retype_eq_none _ object hnone
    rw [hfound] at hkept
    exact hkept ▸ hobject
  · obtain ⟨text,-,hresolve,hcast⟩ := (Proxy.retype_eq_some_iff _ object).mp hfound
    obtain ⟨res,hres,rfl⟩ := Option.map_eq_some_iff.mp hresolve
    rw [Host.answers, Host.answer_resolve] at hres
    have hty : SingleLine res.ty.base :=
      Snapshot.singleLine_base_of_lookupType hs (Resolver.lookup_of_resolve hres)
    rw [← Except.ok.inj hcast]
    exact hty

/-- The view of a proxy is on one line, but for what it quotes. -/
theorem yields_eval_decode (layout : StandardLayout) (owning : Bool) :
    Yields (Proxy.OnOneLine s layout v)
      ((Proxy.decode v owning).run.eval (Host.answers ⟨s.oracle,demangler⟩)) := by
  refine (yields_eval_readField hs hv (by decide)).eval_bind fun name hname => ?_
  refine (yields_eval_readField hs hv (by decide)).eval_bind fun object hobject => ?_
  refine Yields.eval_bind (P := fun nameText => ∀ text ∈ nameText,
    SingleLine text ∨ s.QuotesLineFeed layout v) ?_ fun nameText hnameText => ?_
  · rw [Decode.eval_liftM]
    intro text htext
    have hformat := s.yields_formatValue hname.2
    rw [show s.formatValue name = .ok text from (Decode.eval_toOption_eq_some_iff _).mp htext]
      at hformat
    exact (Snapshot.Quotes.name hname.1).singleLine_or hformat
  · refine Yields.eval_bind (P := fun found => SingleLine found.1.ty.base) ?_ fun found hfound => ?_
    · rw [Decode.eval_liftM]
      exact singleLine_base_eval_retype hs hobject.2 nameText
    · have hlabel : SingleLine (Proxy.labelOf owning) := by cases owning <;> decide
      exact ⟨hlabel,hname.2,hfound,hnameText⟩

include hlayout

theorem yields_eval_unwrapImplementation {implementation : String}
    (himplementation : SingleLine implementation) :
    Yields (fun inner => s.Unwraps layout v implementation inner ∧ SingleLine inner.ty.base)
      ((unwrapImplementation layout v implementation).run.eval
        (Host.answers ⟨s.oracle,demangler⟩)) := by
  refine Yields.eval_bind (P := fun found => s.lookupType implementation = found) rfl
    fun found hfound => ?_
  cases found with
  | none => exact .error (List.forall_mem_singleton.mpr himplementation)
  | some ty =>
    refine (yields_eval_readField hs hv hlayout.pimplField).eval_bind fun owner howner => ?_
    refine (yields_eval_readPath hs howner.2 hlayout.pimplPointer).eval_bind fun raw hraw => ?_
    refine Yields.eval_bind (P := fun pointer => pointer = raw.retyped ty.pointer) rfl
      fun pointer hpointer => ?_
    subst hpointer
    have hty : SingleLine ty.base := Snapshot.singleLine_base_of_lookupType hs hfound
    exact (Snapshot.yields_dereference (v := raw.retyped ty.pointer) hty).mono fun inner h =>
      ⟨⟨ty,owner,raw,hfound,howner.1,hraw.1,h.1⟩,h.2⟩

omit hlayout hv in
/-- The text of the name in an implementation is on one line, unless it quotes a line feed. -/
theorem yields_eval_formatName {inner : RawValue} {implementation : String}
    (hinner : s.Unwraps layout v implementation inner ∧ SingleLine inner.ty.base) :
    Yields (fun text => SingleLine text ∨ s.QuotesLineFeed layout v)
      ((Printer.formatField inner "m_name").run.eval (Host.answers ⟨s.oracle,demangler⟩)) := by
  refine (yields_eval_readField hs hinner.2 (by decide)).eval_bind fun u hu => ?_
  exact (Snapshot.yields_formatValue hu.2).mono fun text htext =>
    (Snapshot.Quotes.implementationName hinner.1 hu.1).singleLine_or htext

end Answered

namespace Printer
variable {s : Snapshot} (hs : s.NamesOnOneLine) {layout : StandardLayout}
  (hlayout : layout.NamesOnOneLine) (demangler : Option Demangler)
include hs hlayout

theorem keepsLines_property : property.KeepsLines s demangler layout where
  summary v hv := by
    refine (yields_eval_unwrapImplementation hs hlayout hv (by decide)).eval_bind
      fun inner hinner => ?_
    refine (yields_eval_formatName hs hinner).eval_bind fun name hname => ?_
    refine (yields_eval_readField hs hinner.2 (by decide)).eval_bind fun setter hsetter => ?_
    refine (yields_eval_readPath hs hsetter.2 hlayout.optionalEngaged).eval_bind
      fun flag hflag => ?_
    refine (Snapshot.yields_readInteger (s := s) hflag.2).eval_bind fun engaged _ => ?_
    rintro text ⟨⟩
    refine hname.imp_left fun hname => ?_
    simp only [singleLine_append]
    exact ⟨⟨hname,by decide⟩,by split <;> decide⟩
  children _ _ := List.forall_mem_nil _

theorem keepsLines_method : method.KeepsLines s demangler layout where
  summary v hv := by
    refine (yields_eval_unwrapImplementation hs hlayout hv (by decide)).eval_bind
      fun inner hinner => ?_
    refine (yields_eval_formatName hs hinner).eval_bind fun name hname => ?_
    rintro text ⟨⟩
    exact hname
  children _ _ := List.forall_mem_nil _

theorem keepsLines_prototype : prototype.KeepsLines s demangler layout where
  summary _ _ := nofun
  children v hv :=
    (yields_eval_unwrapImplementation hs hlayout hv (by decide)).eval_bind fun inner hinner =>
      yields_eval_members hs hinner.2 (by decide)

omit hlayout in
theorem keepsLines_proxy (owning : Bool) : (proxy owning).KeepsLines s demangler layout where
  summary v hv := by
    refine (yields_eval_decode hs hv layout owning).eval_bind fun p hp => ?_
    rintro text ⟨⟩
    cases hname : p.nameText with
    | none => exact .inl hp.label
    | some name =>
      refine (hp.nameText name hname).imp_left fun hname => ?_
      simp only [singleLine_append]
      exact ⟨⟨hp.label,by decide⟩,hname⟩
  children v hv := by
    refine (yields_eval_decode hs hv layout owning).eval_bind fun p hp => ?_
    exact List.forall_mem_cons.mpr ⟨Child.onOneLine_of_value (by decide) hp.name,
      List.forall_mem_singleton.mpr (Child.onOneLine_of_value (by decide) hp.object)⟩

omit hlayout in
/-- The type of an active member is in the table. -/
theorem singleLine_base_of_eval_decodeUnion {α : Type} [Alternatives α] {v : RawValue}
    {active : Union.Active α}
    (h : (Union.decodeUnion α layout v).eval (Host.answers ⟨s.oracle,demangler⟩) = some active) :
    SingleLine active.value.ty.base := by
  obtain ⟨storage,ty,-,hlookup,hvalue⟩ := Union.exists_storage_of_eval_decodeUnion _ _ _ _ h
  rw [hvalue]
  exact Snapshot.singleLine_base_of_lookupType hs hlookup

omit hlayout in
/-- What a union shows of its content is on one line, unless it quotes a line feed. -/
theorem keepsLines_leafUnion (α : Type) [Alternatives α]
    (hnames : ∀ a : α, SingleLine (Alternatives.typeName a)) :
    (leafUnion α).KeepsLines s demangler layout where
  summary v hv := by
    rw [summary_leafUnion, Query.eval_map, Union.eval_formatUnion]
    rintro text ⟨⟩
    cases hactive : (Union.decodeUnion α layout v).eval (Host.answers ⟨s.oracle,demangler⟩) with
    | none => exact .inl singleLine_noInterpretation
    | some active =>
      have hformat := s.yields_formatValue (singleLine_base_of_eval_decodeUnion hs demangler hactive)
      rw [Option.bind_some]
      cases hcontent : s.formatValue active.value with
      | error e => exact .inl singleLine_noInterpretation
      | ok content =>
        rw [hcontent] at hformat
        obtain ⟨storage,ty,hstorage,-,hvalue⟩ :=
          Union.exists_storage_of_eval_decodeUnion _ _ _ _ hactive
        have hquotes : s.Quotes layout v active.value := hvalue ▸ .content hstorage ty
        refine (hquotes.singleLine_or hformat).imp_left fun hcontent => ?_
        change SingleLine (Union.shown active content)
        simp only [Union.shown, singleLine_append]
        exact ⟨⟨⟨by decide,hnames _⟩,by decide⟩,hcontent⟩
  children _ _ := List.forall_mem_nil _

omit hlayout in
theorem keepsLines_value : value.KeepsLines s demangler layout where
  summary v hv := by
    rw [summary_value, Query.eval_map]
    rintro text ⟨⟩
    refine .inl ?_
    cases (Union.decodeUnion ValueAlternative layout v).eval
        (Host.answers ⟨s.oracle,demangler⟩) with
    | none => exact singleLine_noInterpretation
    | some active =>
      have hname : SingleLine (Alternatives.typeName active.alternative) := by
        cases active.alternative <;> decide
      change SingleLine ("\x7b" ++ Alternatives.typeName active.alternative ++ "\x7d")
      simp only [singleLine_append]
      exact ⟨⟨by decide,hname⟩,by decide⟩
  children v hv := by
    rw [children_value, Query.eval_map]
    refine List.forall_mem_singleton.mpr ⟨(by decide : SingleLine containedLabel),fun w hw => ?_⟩
    obtain ⟨active,hactive,rfl⟩ := Option.map_eq_some_iff.mp hw
    exact singleLine_base_of_eval_decodeUnion hs demangler hactive

/-- All printers of the standard registry do so. -/
theorem keepsLines_of_lookup_standard {ty : TypeDesc} {p : Printer}
    (h : Registry.standard.lookup ty = some p) : p.KeepsLines s demangler layout := by
  have hmem := Registry.mem_of_lookup_standard h
  simp only [List.mem_cons, List.not_mem_nil, or_false] at hmem
  rcases hmem with rfl | rfl | rfl | rfl | rfl | rfl | rfl | rfl
  · exact keepsLines_prototype hs hlayout demangler
  · exact keepsLines_property hs hlayout demangler
  · exact keepsLines_method hs hlayout demangler
  · exact keepsLines_value hs demangler
  · exact keepsLines_leafUnion hs demangler TextAlternative fun a => by cases a <;> decide
  · exact keepsLines_leafUnion hs demangler NumberAlternative fun a => by cases a <;> decide
  · exact keepsLines_proxy hs demangler true
  · exact keepsLines_proxy hs demangler false

end Printer
end ValueInspector
