import ValueInspector.Proofs.Implementation.Outcomes
import ValueInspector.Proofs.Proxy.Decoding
import ValueInspector.Proofs.Query.Resolutions
import ValueInspector.Proofs.Resolver.Fixpoint
import ValueInspector.Proofs.Snapshot.Grammar
import ValueInspector.Proofs.Snapshot.Texts

/-! # What a resolved object leads to

Pointer levels are counted in a byte. Following a pointer takes back the level that `pointer` put on,
unless there was no room for it: a type at the last level is its own pointer, and what stands below it is
another type. So a proxy's object leads to a value of the type its name resolved to as long as the name has
fewer stars than there are levels.
-/
namespace ValueInspector

namespace TypeDesc
variable {ty : TypeDesc}

theorem pointer_of_last (h : ty.pointers = 255) : ty.pointer = ty := by
  obtain ⟨id,pointers,base⟩ := ty
  rw [pointer, if_pos h, ← h]

/-- The type below a pointer to a type: that type, unless it stands at the last level. -/
theorem pointee?_pointer_eq (ty : TypeDesc) :
    ty.pointer.pointee? = some (if ty.pointers = 255 then ⟨ty.id,254,ty.base⟩ else ty) := by
  split
  next hlast =>
    rw [pointer_of_last hlast, pointee?, hlast]
    rfl
  next hlast =>
    have hne : ty.pointers.toNat ≠ 255 := fun h => hlast (UInt8.toNat_inj.mp h)
    have hbyte := ty.pointers.toNat_lt
    exact pointee?_pointer (by omega)

theorem pointee?_pointer_iff : ty.pointer.pointee? = some ty ↔ ty.pointers ≠ 255 := by
  rw [pointee?_pointer_eq, Option.some.injEq]
  split
  next hlast =>
    refine ⟨fun hbelow => ?_,fun hne => absurd hlast hne⟩
    have hlevels : 254 = ty.pointers := congrArg TypeDesc.pointers hbelow
    exact absurd (hlevels.trans hlast) (by decide)
  next hlast => exact ⟨fun _ => hlast,fun _ => rfl⟩

end TypeDesc

/-- A type that is found has a level for each star, up to the last one. -/
theorem Snapshot.toNat_pointers_of_lookupType {s : Snapshot} {spelling : String} {ty : TypeDesc}
    (h : s.lookupType spelling = some ty) :
    ty.pointers.toNat = min (splitStars spelling.toList).2 255 := by
  obtain ⟨id,entry,-,_,rfl⟩ := lookupType_eq_some_iff.mp h
  rw [TypeDesc.pointerTimes_plain]
  exact UInt8.toNat_ofNat_of_lt' (Nat.lt_succ_of_le (Nat.min_le_right _ _))

/-- A reference that is read and not null leads to what stands below a pointer to a type that is found, if
that is not void. -/
theorem Snapshot.dereference_of_lookupType {s : Snapshot} {spelling : String} {ty : TypeDesc}
    (h : s.lookupType spelling = some ty) {v : RawValue} (hv : v.ty = ty.pointer) {w : UInt64}
    (hw : s.readPointer v = .ok w) (hnull : w ≠ 0) (hvoid : ¬s.IsVoid ty) :
    s.dereference v =
      .ok ⟨w,if ty.pointers = 255 then ⟨ty.id,254,ty.base⟩ else ty⟩ := by
  have hpointee := (congrArg _ hv).trans ty.pointee?_pointer_eq
  refine dereference_eq_ok_iff.mpr ⟨⟨_,hpointee,?_⟩,hpointee,hw,hnull⟩
  split
  · exact .inl rfl
  · cases hplain : ty.isPointer with
    | true => exact .inl rfl
    | false =>
      obtain ⟨⟨name,layout⟩,hentry⟩ := getElem?_entries_of_lookupType h
      exact .inr ⟨_,hentry,fun hlayout => hvoid ⟨hplain,name,hlayout ▸ hentry⟩⟩

namespace Proxy

theorem resolvesOnce_retype (object : RawValue) (nameText : Option String) :
    (retype object nameText).ResolvesOnce := by
  cases nameText with
  | none => trivial
  | some text =>
    refine Query.resolvesOnce_bind_right (.inr fun _ => trivial) fun found => ?_
    cases found with
    | none => trivial
    | some found =>
      have hcast : (Decode.reinterpret object found.ty.pointer).toOption.AsksOnly Request.IsRead :=
        Decode.asksOnly_toOption (Query.asksOnly_request trivial)
      refine Query.asksOnly_bind hcast fun typed => ?_
      cases typed <;> trivial

theorem resolvesOnce_decode (handle : RawValue) (owning : Bool) :
    (decode handle owning).run.ResolvesOnce := by
  rw [decode]
  -- three reads stand in front of the resolution, and nothing is resolved behind it
  have hread : ∀ r, r.IsRead → (Query.request r).AsksOnly Request.IsRead :=
    fun r hr => Query.asksOnly_request hr
  refine Decode.resolvesOnce_bind (hread _ trivial) fun captured => ?_
  refine Decode.resolvesOnce_bind (hread _ trivial) fun stored => ?_
  have htext : (Decode.formatValue captured).toOption.AsksOnly Request.IsRead :=
    Decode.asksOnly_toOption (hread _ trivial)
  refine Decode.resolvesOnce_bind (Query.asksOnly_map htext _) fun nameText => ?_
  have hretype : (liftM (retype stored nameText) : Decode _).run.ResolvesOnce :=
    Query.resolvesOnce_bind_right (resolvesOnce_retype stored nameText) fun _ => trivial
  rw [ExceptT.run_bind]
  refine Query.resolvesOnce_bind_right hretype fun found => ?_
  cases found <;> trivial

theorem view_of_answers (host : (r : Request) → r.Answer) {captured stored typed : RawValue}
    {text : String} {res : Resolved} {owning : Bool}
    (htext : host (.formatValue captured) = .ok text) (hres : host (.resolve text) = some res)
    (hcast : host (.reinterpret stored res.ty.pointer) = .ok typed) :
    view host owning captured stored =
      ⟨labelOf owning,captured,some text,typed,some res.ty⟩ := by
  have htyped : (retype stored (some text)).eval host = (typed,some res.ty) :=
    (retype_eq_some_iff host stored).mpr ⟨text,rfl,by rw [hres]; rfl,hcast⟩
  have hread : (host (.formatValue captured)).toOption = some text := by rw [htext]; rfl
  rw [view, hread, htyped]

section Run
variable {h : Host} {m : ResolverMemory} {handle : RawValue} {owning : Bool} {p : Proxy}
  {ty : TypeDesc}

/-- A view with a resolved type shows the object as a pointer to the type that the text of the name
resolved to. -/
theorem exists_of_decode_resolved (hp : ((decode handle owning).run.run h m).1 = .ok p)
    (hty : p.resolved = some ty) :
    ∃ stored text, p.nameText = some text ∧ ((h.resolver.resolve text m).1).map (·.ty) = some ty ∧
      h.oracle.reinterpret stored ty.pointer = .ok p.object := by
  rw [Query.run_of_resolvesOnce (resolvesOnce_decode handle owning), eval_decode] at hp
  change (h.oracle.readField handle "m_name").bind _ = _ at hp
  cases hcaptured : h.oracle.readField handle "m_name" with
  | error e =>
    rw [hcaptured] at hp
    cases hp
  | ok captured =>
    rw [hcaptured] at hp
    change (h.oracle.readField handle "m_object").map _ = _ at hp
    cases hstored : h.oracle.readField handle "m_object" with
    | error e =>
      rw [hstored] at hp
      cases hp
    | ok stored =>
      rw [hstored] at hp
      cases hp
      obtain ⟨text,htext,hresolved,hcast⟩ :=
        (retype_eq_some_iff _ stored).mp (Prod.ext rfl hty)
      exact ⟨stored,text,htext,hresolved,hcast⟩

theorem decode_of_reads {captured stored typed : RawValue} {text : String} {res : Resolved}
    (hcaptured : h.oracle.readField handle "m_name" = .ok captured)
    (hstored : h.oracle.readField handle "m_object" = .ok stored)
    (htext : h.oracle.formatValue captured = .ok text)
    (hres : (h.resolver.resolve text m).1 = some res)
    (hcast : h.oracle.reinterpret stored res.ty.pointer = .ok typed) :
    ((decode handle owning).run.run h m).1 =
      .ok ⟨labelOf owning,captured,some text,typed,some res.ty⟩ := by
  rw [Query.run_of_resolvesOnce (resolvesOnce_decode handle owning), eval_decode]
  change (h.oracle.readField handle "m_name").bind _ = _
  rw [hcaptured]
  change (h.oracle.readField handle "m_object").map _ = _
  rw [hstored]
  exact congrArg Except.ok (view_of_answers _ htext hres hcast)

end Run

/-- The object of a proxy whose name resolved is a pointer to the resolved type, unless that stands at the
last level: then the object has the type itself, and what it points at is one level below. With the
snapshot's own table, this is so from 255 stars on behind the base of the text that was found. A reference
that is read and not null then leads to a value of the resolved type, or of the one below. -/
theorem resolved_object_dereferences (steps : List BuilderStep) (casts : Bool)
    (lookup : String → Option TypeDesc) (demangler : Option Demangler) (m : ResolverMemory)
    (handle : RawValue) (owning : Bool) :
    let s := (Construction.ofSteps steps).builder.snapshot
    let h : Host := ⟨{ s.oracleCasting casts with lookupType := lookup },demangler⟩
    ∀ p ty, ((decode handle owning).run.run h m).1 = .ok p → p.resolved = some ty →
      (p.object.ty.pointee? = some ty ↔ ty.pointers ≠ 255) ∧
      (ty.pointers = 255 → p.object.ty = ty ∧ p.object.ty.pointee? = some ⟨ty.id,254,ty.base⟩) ∧
      (lookup = s.lookupType →
        (∃ text res base k, p.nameText = some text ∧ (h.resolver.resolve text m).1 = some res ∧
          res.ty = ty ∧ Bare base ∧ Spells res.spelling.toList base k ∧
          ty.pointers.toNat = min k 255 ∧ (p.object.ty.pointee? = some ty ↔ k < 255)) ∧
        ∀ w, s.readPointer p.object = .ok w → w ≠ 0 → ¬s.IsVoid ty →
          s.dereference p.object =
            .ok ⟨w,if ty.pointers = 255 then ⟨ty.id,254,ty.base⟩ else ty⟩) := by
  intro s h p ty hp hty
  obtain ⟨stored,text,htext,hresolved,hcast⟩ := exists_of_decode_resolved hp hty
  obtain ⟨res,hres,rfl⟩ := Option.map_eq_some_iff.mp hresolved
  have hobject : p.object.ty = res.ty.pointer := by
    rw [Snapshot.eq_retyped_of_reinterpret hcast]
    rfl
  have hpointee : p.object.ty.pointee? = some res.ty ↔ res.ty.pointers ≠ 255 := by
    rw [hobject, TypeDesc.pointee?_pointer_iff]
  refine ⟨hpointee,fun hlast => ?_,fun hown => ?_⟩
  · rw [hobject, TypeDesc.pointee?_pointer_eq, if_pos hlast]
    exact ⟨TypeDesc.pointer_of_last hlast,rfl⟩
  -- the table that was asked is the one that is dereferenced in, so the type is an entry there
  · have hlookup : s.lookupType res.spelling = some res.ty := by
      rw [← hown]
      exact Resolver.lookup_of_resolve hres
    have hlevels := Snapshot.toNat_pointers_of_lookupType hlookup
    have hbelow : res.ty.pointers ≠ 255 ↔ (splitStars res.spelling.toList).2 < 255 := by
      rw [Ne, ← UInt8.toNat_inj, hlevels]
      change ¬min _ 255 = 255 ↔ _
      omega
    exact ⟨⟨text,res,_,_,htext,hres,rfl,bare_splitStars _,spells_splitStars _,hlevels,
      hpointee.trans hbelow⟩,fun w => Snapshot.dereference_of_lookupType hlookup hobject⟩

/-- The name `int` with some stars. -/
def starredName (stars : Nat) : String := .ofList ('i' :: 'n' :: 't' :: List.replicate stars '*')

/-- A proxy at 4096 of an object at 12288, with such a name. -/
def starredProxySteps (stars : Nat) : List BuilderStep :=
  [.type (.primitive "int" .i32),.type (.primitive "void" .void),.type (.define "Name" .text),
    .type (.record "Proxy" 24 [⟨"m_name",0,.plain 2 "Name"⟩,⟨"m_object",16,⟨1,1,"void"⟩⟩]),
    .memory (.map 4096 (textHeader 8192 (.ofNat (3 + stars)) ++ toLittleEndian 8 12288).toArray),
    .memory (.map 8192 (105 :: 110 :: 116 :: List.replicate stars 42).toArray)]

theorem resolved_object_dereferences_starred :
    let s := (Construction.ofSteps (starredProxySteps 2)).builder.snapshot
    ∃ p, ((decode ⟨4096,.plain 3 "Proxy"⟩ true).run.run ⟨s.oracle,none⟩ .fresh).1 = .ok p ∧
      p.resolved = some ⟨0,2,"int"⟩ ∧ p.object.ty.pointee? = some ⟨0,2,"int"⟩ ∧
      s.dereference p.object = .ok ⟨12288,⟨0,2,"int"⟩⟩ := by
  intro s
  have hdecode : ((decode ⟨4096,.plain 3 "Proxy"⟩ true).run.run ⟨s.oracle,none⟩ .fresh).1 =
      .ok ⟨"proxy",⟨4096,.plain 2 "Name"⟩,some "int**",⟨4112,⟨0,3,"int"⟩⟩,some ⟨0,2,"int"⟩⟩ := by
    decide +kernel
  obtain ⟨hpointee,_,hown⟩ := resolved_object_dereferences (starredProxySteps 2) true s.lookupType none
    .fresh ⟨4096,.plain 3 "Proxy"⟩ true _ ⟨0,2,"int"⟩ hdecode rfl
  have hvoid : ¬s.IsVoid ⟨0,2,"int"⟩ := fun hvoid => absurd hvoid.1 (by decide)
  exact ⟨_,hdecode,rfl,hpointee.mpr (by decide),
    (hown rfl).2 12288 (by decide +kernel) (by decide) hvoid⟩

theorem formatValue_lastLevel :
    (Construction.ofSteps (starredProxySteps 255)).builder.snapshot.formatValue
      ⟨4096,.plain 2 "Name"⟩ = .ok (starredName 255) := by
  have hbytes : Text.Utf8.encode (starredName 255) = 105 :: 110 :: 116 :: List.replicate 255 42 := by
    rw [Text.Utf8.encode_eq, starredName, String.toList_ofList]
    decide +kernel
  refine Snapshot.StoresText.formatValue_eq (Construction.stacked_ofSteps _)
    ⟨⟨rfl,"Name",by decide +kernel⟩,8192,258,by decide +kernel,?_⟩
  rw [hbytes]
  exact ⟨by decide +kernel,by decide +kernel,fun _ => by decide +kernel⟩

theorem resolve_lastLevel :
    (⟨(Construction.ofSteps (starredProxySteps 255)).builder.snapshot.lookupType,none⟩ :
      Resolver).resolve (starredName 255) .fresh =
        (some ⟨⟨0,255,"int"⟩,.direct,starredName 255⟩,.fresh) := by
  have hstrip : Name.stripQuotes (starredName 255) = starredName 255 := by
    rw [Name.stripQuotes, starredName, String.toList_ofList]
    exact congrArg String.ofList (by decide +kernel)
  have hlookup : (Construction.ofSteps (starredProxySteps 255)).builder.snapshot.lookupType
      (starredName 255) = some ⟨0,255,"int"⟩ := by
    rw [Snapshot.lookupType, starredName, String.toList_ofList]
    decide +kernel
  have hne : starredName 255 ≠ "" := by
    rw [starredName, Ne, String.ofList_eq_empty_iff]
    exact List.cons_ne_nil _ _
  rw [← hstrip] at hne hlookup
  rw [Resolver.resolve_of_lookup hne hlookup, hstrip]

/-- Behind a name with 255 stars, the object has the resolved type instead of a pointer to it. What it leads
to is shown one level too low. -/
theorem last_level_object_displaced :
    let s := (Construction.ofSteps (starredProxySteps 255)).builder.snapshot
    let ty : TypeDesc := ⟨0,255,"int"⟩
    ∃ p, ((decode ⟨4096,.plain 3 "Proxy"⟩ true).run.run ⟨s.oracle,none⟩ .fresh).1 = .ok p ∧
      p.resolved = some ty ∧ s.readPointer p.object = .ok 12288 ∧ ¬s.IsVoid ty ∧
      p.object.ty.pointee? ≠ some ty ∧ s.dereference p.object = .ok ⟨12288,⟨0,254,"int"⟩⟩ := by
  intro s ty
  have hname : s.readField ⟨4096,.plain 3 "Proxy"⟩ "m_name" = .ok ⟨4096,.plain 2 "Name"⟩ := by
    decide +kernel
  have hobject : s.readField ⟨4096,.plain 3 "Proxy"⟩ "m_object" = .ok ⟨4112,⟨1,1,"void"⟩⟩ := by
    decide +kernel
  exact ⟨_,decode_of_reads hname hobject formatValue_lastLevel
      (congrArg Prod.fst resolve_lastLevel) rfl,rfl,by decide +kernel,
    fun hvoid => absurd hvoid.1 (by decide),by decide,by decide +kernel⟩

end Proxy
end ValueInspector
