import ValueInspector.Proofs.Query.Outcomes
import ValueInspector.Proofs.Snapshot.Reading
import ValueInspector.Union.Decode

/-! # Unions decode exactly

A member of a union is active if the wrapper holds a storage with a readable index, the index is the
place of an alternative, and the type of that alternative is in the table. Decoding finds the active
member, and formatting shows it: both take the same way, and wherever it breaks off, there is no
interpretation. On that way no name is resolved.
-/
namespace ValueInspector

/-- Each alternative is found by its discriminant, which is its place among all of them, and no type
name has a pointer suffix. -/
class LawfulAlternatives (α : Type) [Alternatives α] : Prop where
  mem_all (a : α) : a ∈ Alternatives.all
  discriminant_toInt : ∀ p ∈ (Alternatives.all (α := α)).zipIdx,
    (Alternatives.discriminant p.1).toInt = p.2
  ofDiscriminant?_discriminant (a : α) :
    Alternatives.ofDiscriminant? (Alternatives.discriminant a) = some a
  discriminant_of_eq_some {d : Int64} {a : α} (h : Alternatives.ofDiscriminant? d = some a) :
    Alternatives.discriminant a = d
  splitStars_typeName (a : α) :
    splitStars (Alternatives.typeName a).toList = ((Alternatives.typeName a).toList,0)

instance : LawfulAlternatives TextAlternative where
  mem_all a := by cases a <;> decide
  discriminant_toInt := by decide
  ofDiscriminant?_discriminant a := by cases a <;> rfl
  discriminant_of_eq_some h := by
    simp only [Alternatives.ofDiscriminant?] at h
    split at h <;> cases h <;> rfl
  splitStars_typeName a := by cases a <;> decide +kernel

instance : LawfulAlternatives NumberAlternative where
  mem_all a := by cases a <;> decide
  discriminant_toInt := by decide
  ofDiscriminant?_discriminant a := by cases a <;> rfl
  discriminant_of_eq_some h := by
    simp only [Alternatives.ofDiscriminant?] at h
    split at h <;> cases h <;> rfl
  splitStars_typeName a := by cases a <;> decide +kernel

instance : LawfulAlternatives ValueAlternative where
  mem_all a := by cases a <;> decide
  discriminant_toInt := by decide
  ofDiscriminant?_discriminant a := by cases a <;> rfl
  discriminant_of_eq_some h := by
    simp only [Alternatives.ofDiscriminant?] at h
    split at h <;> cases h <;> rfl
  splitStars_typeName a := by cases a <;> decide +kernel

section Discriminants
variable {α : Type} [Alternatives α] [LawfulAlternatives α]

/-- A discriminant selects the alternative at that place. -/
theorem Alternatives.ofDiscriminant?_eq_some_iff {d : Int64} {a : α} :
    ofDiscriminant? d = some a ↔ ∃ i : Nat, d.toInt = i ∧ all[i]? = some a := by
  constructor
  · intro h
    obtain ⟨i,hi⟩ := List.mem_iff_getElem?.mp (LawfulAlternatives.mem_all a)
    rw [← LawfulAlternatives.discriminant_of_eq_some h]
    exact ⟨i,LawfulAlternatives.discriminant_toInt (a,i) (List.mem_zipIdx_iff_getElem?.mpr hi),hi⟩
  · rintro ⟨i,hi,ha⟩
    have hplace := LawfulAlternatives.discriminant_toInt (a,i) (List.mem_zipIdx_iff_getElem?.mpr ha)
    rw [← Int64.toInt_inj.mp (hplace.trans hi.symm)]
    exact LawfulAlternatives.ofDiscriminant?_discriminant a

/-- The table of discriminants is the list of all alternatives, by position. -/
theorem Alternatives.ofDiscriminant?_eq (d : Int64) :
    ofDiscriminant? (α := α) d = if d.toInt < 0 then none else all[d.toInt.toNat]? := by
  refine Option.ext fun a => ofDiscriminant?_eq_some_iff.trans ?_
  by_cases hneg : d.toInt < 0
  · rw [if_pos hneg]
    refine iff_of_false ?_ (Option.not_mem_none a)
    rintro ⟨i,hi,-⟩
    omega
  · rw [if_neg hneg]
    constructor
    · rintro ⟨i,hi,ha⟩
      rwa [hi, Int.toNat_natCast]
    · exact fun ha => ⟨_,(Int.toNat_of_nonneg (Int.not_lt.mp hneg)).symm,ha⟩

end Discriminants

/-- A name without a pointer suffix is found if it is in the index, as the entry at its id. -/
theorem Snapshot.lookupType_plain {s : Snapshot} {name : String}
    (hname : splitStars name.toList = (name.toList,0)) {ty : TypeDesc} :
    s.lookupType name = some ty ↔ ∃ id entry, s.byName.lookup name = some id ∧
      s.entries[id.toNat]? = some entry ∧ ty = .plain id entry.name := by
  rw [lookupType_eq_some_iff, hname]
  dsimp only
  rw [String.ofList_toList]
  rfl

namespace Union
variable (s : Snapshot) (layout : StandardLayout) (wrapper : RawValue)

/-- The wrapper has a storage, and the storage an index that reads as an integer. -/
def HoldsVariant (storage : RawValue) (discriminant : Int64) : Prop :=
  ∃ index, s.HasMember wrapper layout.variantField storage ∧
    s.HasMember storage layout.variantIndex index ∧ s.readInteger index = .ok discriminant

/-- The wrapper holds a variant, its index is the place of the alternative, and the value is the
storage as the type that the table has for the name of the alternative. -/
def Selects {α : Type} [Alternatives α] (active : Active α) : Prop :=
  ∃ storage discriminant, HoldsVariant s layout wrapper storage discriminant ∧
    ∃ i : Nat, discriminant.toInt = i ∧ Alternatives.all[i]? = some active.alternative ∧
      ∃ (id : UInt32) (entry : TypeDef),
        s.byName.lookup (Alternatives.typeName active.alternative) = some id ∧
        s.entries[id.toNat]? = some entry ∧
        active.value = ⟨storage.address,.plain id entry.name⟩

/-- A wrapper holds one variant at most. -/
theorem HoldsVariant.unique {s : Snapshot} {layout : StandardLayout} {wrapper a b : RawValue}
    {c d : Int64} (hac : HoldsVariant s layout wrapper a c)
    (hbd : HoldsVariant s layout wrapper b d) : a = b ∧ c = d := by
  obtain ⟨i,ha,hi,hc⟩ := hac
  obtain ⟨j,hb,hj,hd⟩ := hbd
  rw [← Snapshot.readField_eq_ok_iff] at ha hi hb hj
  obtain rfl := Except.ok.inj (ha.symm.trans hb)
  obtain rfl := Except.ok.inj (hi.symm.trans hj)
  exact ⟨rfl,Except.ok.inj (hc.symm.trans hd)⟩

section Requests

theorem asksOnly_readVariant : (readVariant layout wrapper).run.AsksOnly Request.IsRead :=
  Decode.asksOnly_bind (Query.asksOnly_request trivial) fun _ =>
    Decode.asksOnly_bind (Query.asksOnly_request trivial) fun _ =>
      Decode.asksOnly_bind (Query.asksOnly_request trivial) fun _ => trivial

variable (α : Type) [Alternatives α] (storage : RawValue) (discriminant : Int64)

theorem asksOnly_decodeActive :
    (decodeActive α storage discriminant).AsksOnly Request.IsRead := by
  rw [decodeActive]
  cases Alternatives.ofDiscriminant? (α := α) discriminant with
  | none => trivial
  | some alternative =>
    refine Query.asksOnly_bind (Query.asksOnly_request trivial) fun
      | none => trivial
      | some ty => ?_
    exact Query.asksOnly_bind
      (Decode.asksOnly_toOption (Query.asksOnly_request trivial)) fun _ => trivial

theorem asksOnly_formatActive :
    (formatActive α storage discriminant).AsksOnly Request.IsRead :=
  Query.asksOnly_bind (asksOnly_decodeActive α storage discriminant) fun
    | none => trivial
    | some _ => Query.asksOnly_bind
        (Decode.asksOnly_toOption (Query.asksOnly_request trivial)) fun _ => trivial

theorem asksOnly_decodeUnion : (decodeUnion α layout wrapper).AsksOnly Request.IsRead :=
  Query.asksOnly_bind (Decode.asksOnly_toOption (asksOnly_readVariant layout wrapper)) fun
    | none => trivial
    | some (storage,discriminant) => asksOnly_decodeActive α storage discriminant

theorem asksOnly_formatUnion : (formatUnion α layout wrapper).AsksOnly Request.IsRead :=
  Query.asksOnly_bind (Decode.asksOnly_toOption (asksOnly_readVariant layout wrapper)) fun
    | none => trivial
    | some (storage,discriminant) =>
      Query.asksOnly_bind (asksOnly_formatActive α storage discriminant) fun _ => trivial

end Requests

section Answered
variable (demangler : Option Demangler) {α : Type} [Alternatives α]

theorem eval_readVariant_eq_some_iff {storage : RawValue} {discriminant : Int64} :
    (readVariant layout wrapper).toOption.eval (Host.answers ⟨s.oracle,demangler⟩) =
        some (storage,discriminant) ↔
      HoldsVariant s layout wrapper storage discriminant := by
  rw [Decode.eval_toOption_eq_some_iff, readVariant]
  simp only [Decode.eval_bind_eq_ok_iff, Decode.eval_readField, Decode.eval_readInteger,
    Decode.eval_pure, Host.answers_readField, Host.answers_readInteger, Snapshot.oracle,
    Snapshot.readField_eq_ok_iff]
  constructor
  · rintro ⟨found,hfound,index,hindex,n,hn,hsame⟩
    obtain ⟨rfl,rfl⟩ := Prod.mk.inj (Except.ok.inj hsame)
    exact ⟨index,hfound,hindex,hn⟩
  · rintro ⟨index,hstorage,hindex,hn⟩
    exact ⟨storage,hstorage,index,hindex,discriminant,hn,rfl⟩

/-- Reading the storage as an alternative cannot fail once its type is found. -/
theorem eval_decodeActive (storage : RawValue) (discriminant : Int64) :
    (decodeActive α storage discriminant).eval (Host.answers ⟨s.oracle,demangler⟩) =
      (Alternatives.ofDiscriminant? discriminant).bind fun alternative =>
        (s.lookupType (Alternatives.typeName alternative)).map fun ty =>
          ⟨alternative,storage.retyped ty⟩ := by
  rw [decodeActive]
  cases Alternatives.ofDiscriminant? (α := α) discriminant with
  | none => rfl
  | some alternative =>
    have hlookup : (Query.request (.lookupType (Alternatives.typeName alternative))).eval
        (Host.answers ⟨s.oracle,demangler⟩) = s.lookupType (Alternatives.typeName alternative) := rfl
    rw [Option.bind_some]
    simp only [Query.eval_bind, hlookup]
    cases s.lookupType (Alternatives.typeName alternative) <;> rfl

theorem eval_decodeUnion :
    (decodeUnion α layout wrapper).eval (Host.answers ⟨s.oracle,demangler⟩) =
      ((readVariant layout wrapper).toOption.eval (Host.answers ⟨s.oracle,demangler⟩)).bind
        fun p => (decodeActive α p.1 p.2).eval (Host.answers ⟨s.oracle,demangler⟩) := by
  rw [decodeUnion, Query.eval_bind]
  cases (readVariant layout wrapper).toOption.eval (Host.answers ⟨s.oracle,demangler⟩) <;> rfl

/-- The active member is the storage of the wrapper, as the type that the table has for its
alternative. -/
theorem exists_storage_of_eval_decodeUnion {active : Active α}
    (h : (decodeUnion α layout wrapper).eval (Host.answers ⟨s.oracle,demangler⟩) = some active) :
    ∃ storage ty, s.HasMember wrapper layout.variantField storage ∧
      s.lookupType (Alternatives.typeName active.alternative) = some ty ∧
        active.value = storage.retyped ty := by
  rw [eval_decodeUnion, Option.bind_eq_some_iff] at h
  obtain ⟨⟨storage,discriminant⟩,hread,hactive⟩ := h
  obtain ⟨_,hstorage,_⟩ := (eval_readVariant_eq_some_iff ..).mp hread
  rw [eval_decodeActive, Option.bind_eq_some_iff] at hactive
  obtain ⟨alternative,_,hty⟩ := hactive
  obtain ⟨ty,hlookup,rfl⟩ := Option.map_eq_some_iff.mp hty
  exact ⟨storage,ty,hstorage,hlookup,rfl⟩

/-- The text of an active member. -/
def shown (active : Active α) (content : String) : String :=
  "\x7b" ++ Alternatives.typeName active.alternative ++ "\x7d " ++ content

/-- A union is formatted as the member it decodes to. -/
theorem eval_formatUnion :
    (formatUnion α layout wrapper).eval (Host.answers ⟨s.oracle,demangler⟩) =
      (((decodeUnion α layout wrapper).eval (Host.answers ⟨s.oracle,demangler⟩)).bind
        fun active => (s.formatValue active.value).toOption.map (shown active)).getD
          noInterpretation := by
  rw [eval_decodeUnion, formatUnion, Query.eval_bind]
  cases (readVariant layout wrapper).toOption.eval (Host.answers ⟨s.oracle,demangler⟩) with
  | none => rfl
  | some p =>
    rcases p with ⟨storage,discriminant⟩
    simp only [Query.eval_bind, Query.eval_pure, formatActive, Option.bind_some]
    cases (decodeActive α storage discriminant).eval (Host.answers ⟨s.oracle,demangler⟩) with
    | none => rfl
    | some active =>
      simp only [Query.eval_bind, Query.eval_pure, Option.bind_some, Decode.eval_toOption]
      rfl

end Answered
section Lawful
variable {s layout wrapper} {α : Type} [Alternatives α] {active : Active α}

theorem Selects.of_holdsVariant [LawfulAlternatives α] {storage : RawValue} {discriminant : Int64}
    (h : Selects s layout wrapper active)
    (hholds : HoldsVariant s layout wrapper storage discriminant) :
    Alternatives.discriminant active.alternative = discriminant ∧
      active.value.address = storage.address := by
  obtain ⟨_,_,hholds',i,hi,hall,_,_,_,_,hvalue⟩ := h
  obtain ⟨rfl,rfl⟩ := hholds.unique hholds'
  refine ⟨Int64.toInt_inj.mp ?_,by rw [hvalue]⟩
  rw [hi]
  exact LawfulAlternatives.discriminant_toInt (active.alternative,i)
    (List.mem_zipIdx_iff_getElem?.mpr hall)

/-- The type of the active member has the name of its alternative, unless two names share an id. -/
theorem Selects.typeName_value {steps : List BuilderStep}
    (hids : (Construction.ofSteps steps).builder.snapshot.IdsSuffice)
    (h : Selects (Construction.ofSteps steps).builder.snapshot layout wrapper active) :
    active.value.typeName = Alternatives.typeName active.alternative := by
  obtain ⟨_,_,_,_,_,_,id,entry,hid,hentry,hvalue⟩ := h
  obtain ⟨named,hnamed,hname⟩ := ((Construction.records_ofSteps hids).lookup_iff _ id).mp hid
  obtain rfl := Option.some.inj (hentry.symm.trans hnamed)
  rw [hvalue, RawValue.typeName, TypeDesc.spelling, ← hname]
  exact String.append_empty

theorem eval_decodeUnion_eq_some_iff [LawfulAlternatives α] (demangler : Option Demangler) :
    (decodeUnion α layout wrapper).eval (Host.answers ⟨s.oracle,demangler⟩) = some active ↔
      Selects s layout wrapper active := by
  rw [eval_decodeUnion, Option.bind_eq_some_iff]
  constructor
  · rintro ⟨⟨storage,discriminant⟩,hread,hactive⟩
    rw [eval_decodeActive, Option.bind_eq_some_iff] at hactive
    obtain ⟨alternative,halternative,hty⟩ := hactive
    obtain ⟨ty,hlookup,rfl⟩ := Option.map_eq_some_iff.mp hty
    obtain ⟨i,hi,hall⟩ := Alternatives.ofDiscriminant?_eq_some_iff.mp halternative
    obtain ⟨id,entry,hid,hentry,rfl⟩ := (Snapshot.lookupType_plain
      (LawfulAlternatives.splitStars_typeName alternative)).mp hlookup
    exact ⟨storage,discriminant,(eval_readVariant_eq_some_iff ..).mp hread,i,hi,hall,id,entry,hid,
      hentry,rfl⟩
  · rintro ⟨storage,discriminant,hholds,i,hi,hall,id,entry,hid,hentry,hvalue⟩
    refine ⟨(storage,discriminant),(eval_readVariant_eq_some_iff ..).mpr hholds,?_⟩
    have hlookup := (Snapshot.lookupType_plain
      (LawfulAlternatives.splitStars_typeName active.alternative)).mpr ⟨id,entry,hid,hentry,rfl⟩
    rw [eval_decodeActive, Alternatives.ofDiscriminant?_eq_some_iff.mpr ⟨i,hi,hall⟩,
      Option.bind_some, hlookup]
    exact congrArg (fun value => some (Active.mk active.alternative value)) hvalue.symm

end Lawful

/-- In a snapshot that a builder made, a union decodes to a member exactly if that member is active; it
is the alternative at the discriminant, at the place of the storage, as the type of that alternative: of
its name, if there are no more names than ids. The union is formatted as this name and its content, if
there is an active member and it has a text, and has no interpretation otherwise. What the resolver
remembers stays as it is. -/
theorem union_decodes_exactly (steps : List BuilderStep) (demangler : Option Demangler) {α : Type}
    [Alternatives α] [LawfulAlternatives α] (m : ResolverMemory) :
    let s := (Construction.ofSteps steps).builder.snapshot
    let decoded := (decodeUnion α layout wrapper).run ⟨s.oracle,demangler⟩ m
    let formatted := (formatUnion α layout wrapper).run ⟨s.oracle,demangler⟩ m
    decoded.2 = m ∧ formatted.2 = m ∧
    (∀ active, decoded.1 = some active ↔ Selects s layout wrapper active) ∧
    (∀ active storage discriminant, decoded.1 = some active →
      HoldsVariant s layout wrapper storage discriminant →
        Alternatives.discriminant active.alternative = discriminant ∧
          active.value.address = storage.address ∧
          (s.IdsSuffice → active.value.typeName = Alternatives.typeName active.alternative)) ∧
    (∀ active content, Selects s layout wrapper active → s.formatValue active.value = .ok content →
      formatted.1 =
        "\x7b" ++ Alternatives.typeName (α := α) active.alternative ++ "\x7d " ++ content) ∧
    ((¬∃ (active : Active α) (content : String), Selects s layout wrapper active ∧
      s.formatValue active.value = .ok content) → formatted.1 = "<no interpretation>") := by
  dsimp only
  rw [Query.run_of_isRead (asksOnly_decodeUnion layout wrapper α),
    Query.run_of_isRead (asksOnly_formatUnion layout wrapper α), eval_formatUnion]
  dsimp only
  have hdecode : ∀ active : Active α,
      (decodeUnion α layout wrapper).eval
          (Host.answers ⟨(Construction.ofSteps steps).builder.snapshot.oracle,demangler⟩) = some active ↔
        Selects (Construction.ofSteps steps).builder.snapshot layout wrapper active :=
    fun active => eval_decodeUnion_eq_some_iff demangler
  refine ⟨rfl,rfl,hdecode,?_,?_,?_⟩
  · intro active storage discriminant hactive hholds
    have hselects := (hdecode active).mp hactive
    obtain ⟨hdiscriminant,haddress⟩ := hselects.of_holdsVariant hholds
    exact ⟨hdiscriminant,haddress,fun hids => hselects.typeName_value hids⟩
  · intro active content hselects hcontent
    rw [(hdecode active).mpr hselects, Option.bind_some, hcontent]
    rfl
  · intro hnone
    cases hactive : (decodeUnion α layout wrapper).eval
        (Host.answers ⟨(Construction.ofSteps steps).builder.snapshot.oracle,demangler⟩) with
    | none => rfl
    | some active =>
      cases hcontent : (Construction.ofSteps steps).builder.snapshot.formatValue active.value with
      | error e =>
        rw [Option.bind_some, hcontent]
        rfl
      | ok content => exact (hnone ⟨active,content,(hdecode active).mp hactive,hcontent⟩).elim

/-- A number with a mapped place, of the first alternative, and the types of no others. -/
def numberSteps : List BuilderStep :=
  [.type (.primitive "int32_t" .i32),.type (.primitive "uint8_t" .u8),
    .type (.record "Storage" 9 [⟨"_M_index",8,.plain 1 "uint8_t"⟩]),
    .type (.record "complate::Number" 9 [⟨"m_data",0,.plain 2 "Storage"⟩]),
    .memory (.mapZeroed 4096 9),.memory (.write 4096 [7])]

/-- The number is decoded and shown where it is mapped. Elsewhere, and as a general value, whose types
are missing, it has no interpretation. -/
theorem union_decodes_exactly_number :
    let s := (Construction.ofSteps numberSteps).builder.snapshot
    (decodeUnion NumberAlternative .standard ⟨4096,.plain 3 "complate::Number"⟩).run
        ⟨s.oracle,none⟩ .fresh = (some ⟨.int32,⟨4096,.plain 0 "int32_t"⟩⟩,.fresh) ∧
      (formatUnion NumberAlternative .standard ⟨4096,.plain 3 "complate::Number"⟩).run
        ⟨s.oracle,none⟩ .fresh = ("\x7bint32_t\x7d 7",.fresh) ∧
      (formatUnion ValueAlternative .standard ⟨4096,.plain 3 "complate::Number"⟩).run
        ⟨s.oracle,none⟩ .fresh = ("<no interpretation>",.fresh) ∧
      (formatUnion TextAlternative .standard ⟨8192,.plain 3 "complate::Number"⟩).run
        ⟨s.oracle,none⟩ .fresh = ("<no interpretation>",.fresh) := by
  obtain ⟨hdecode,hformat,hactive,_,hshown,_⟩ := union_decodes_exactly (α := NumberAlternative)
    .standard ⟨4096,.plain 3 "complate::Number"⟩ numberSteps none .fresh
  obtain ⟨_,hvalue,hvalueActive,_,_,hvalueNone⟩ := union_decodes_exactly (α := ValueAlternative)
    .standard ⟨4096,.plain 3 "complate::Number"⟩ numberSteps none .fresh
  obtain ⟨_,htext,htextActive,_,_,htextNone⟩ := union_decodes_exactly (α := TextAlternative)
    .standard ⟨8192,.plain 3 "complate::Number"⟩ numberSteps none .fresh
  have hselects : Selects (Construction.ofSteps numberSteps).builder.snapshot .standard
      ⟨4096,.plain 3 "complate::Number"⟩
      (⟨.int32,⟨4096,.plain 0 "int32_t"⟩⟩ : Active NumberAlternative) :=
    ⟨⟨4096,.plain 2 "Storage"⟩,0,
      ⟨⟨4104,.plain 1 "uint8_t"⟩,Snapshot.readField_eq_ok_iff.mp (by decide +kernel),
        Snapshot.readField_eq_ok_iff.mp (by decide +kernel),by decide +kernel⟩,
      0,rfl,rfl,0,⟨"int32_t",.primitive .i32⟩,by decide +kernel,by decide +kernel,rfl⟩
  refine ⟨Prod.ext ((hactive _).mpr hselects) hdecode,
    Prod.ext (hshown _ "7" hselects (by decide +kernel)) hformat,
    Prod.ext (hvalueNone ?_) hvalue,Prod.ext (htextNone ?_) htext⟩
  · rintro ⟨active,_,hnone,_⟩
    have hsome := (hvalueActive active).mpr hnone
    rw [show ((decodeUnion ValueAlternative _ _).run _ _).1 = none by decide +kernel] at hsome
    cases hsome
  · rintro ⟨active,_,hnone,_⟩
    have hsome := (htextActive active).mpr hnone
    rw [show ((decodeUnion TextAlternative _ _).run _ _).1 = none by decide +kernel] at hsome
    cases hsome

end Union
end ValueInspector
