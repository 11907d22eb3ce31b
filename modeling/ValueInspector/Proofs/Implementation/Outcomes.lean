import ValueInspector.Proofs.Implementation.Unwrapping
import ValueInspector.Proofs.Snapshot.Spelling
import ValueInspector.Proofs.Snapshot.Words

/-! # What unwrapping an object comes to

An implementation is found in steps: the look-up of its type, the members on the path to its pointer, the
pointer itself. Each of them can fail in its own way, and the first failure counts. The types alone
decide where the path leads and how far into the object its end lies; what is declared there does not
matter.
-/
namespace ValueInspector

theorem TypeDesc.pointee?_pointer {ty : TypeDesc} (h : ty.pointers.toNat < 255) :
    ty.pointer.pointee? = some ty := by
  obtain ⟨id,pointers,base⟩ := ty
  change pointers.toNat < 255 at h
  have hnext : (pointers + 1).toNat = pointers.toNat + 1 := by
    rw [UInt8.toNat_add, UInt8.toNat_one]
    exact Nat.mod_eq_of_lt (by omega)
  have hlast : pointers ≠ 255 := fun hlast => by
    rw [hlast] at h
    exact absurd h (by decide)
  have hzero : pointers + 1 ≠ 0 := fun hzero => by
    rw [hzero] at hnext
    cases hnext
  rw [pointer, if_neg hlast, pointee?, if_neg hzero, UInt8.add_sub_cancel]

namespace Snapshot
variable {s : Snapshot} {v : RawValue} {e : InspectError}

section Members
variable {ty : TypeDesc} {name : String}

/-- A record type has a member; the first one of the name counts. -/
def MemberAt (s : Snapshot) (ty : TypeDesc) (name : String) (field : FieldDef) : Prop :=
  ty.isPointer = false ∧ ∃ typeName size fields,
    s.entries[ty.id.toNat]? = some ⟨typeName,.record size fields⟩ ∧
    fields.find? (·.name = name) = some field

/-- Why a type has no member of some name. -/
inductive MemberFault (s : Snapshot) (ty : TypeDesc) (name : String) : InspectError → Prop
  | pointer (h : ty.isPointer = true) : MemberFault s ty name (.notAStruct ty.spelling)
  | unknown (h : ty.isPointer = false) (hentry : s.entries[ty.id.toNat]? = none) :
    MemberFault s ty name (.unknownTypeId ty.id ty.spelling)
  | leaf {entry : TypeDef} (h : ty.isPointer = false) (hentry : s.entries[ty.id.toNat]? = some entry)
    (hlayout : ∀ size fields, entry.layout ≠ .record size fields) :
    MemberFault s ty name (.notAStruct ty.spelling)
  | absent {typeName : String} {size : Nat} {fields : List FieldDef} (h : ty.isPointer = false)
    (hentry : s.entries[ty.id.toNat]? = some ⟨typeName,.record size fields⟩)
    (hfields : ∀ field ∈ fields, field.name ≠ name) :
    MemberFault s ty name (.missingField ty.spelling name)

theorem hasMember_iff {member : RawValue} : s.HasMember v name member ↔
    ∃ field, s.MemberAt v.ty name field ∧
      member = ⟨v.address + .ofNat field.offset,field.ty⟩ := by
  constructor
  · rintro ⟨hplain,typeName,size,fields,field,hentry,hfield,rfl⟩
    exact ⟨field,⟨hplain,typeName,size,fields,hentry,hfield⟩,rfl⟩
  · rintro ⟨field,⟨hplain,typeName,size,fields,hentry,hfield⟩,rfl⟩
    exact ⟨hplain,typeName,size,fields,field,hentry,hfield,rfl⟩

/-- The first step of a member access that fails. -/
theorem readField_eq_error_iff : s.readField v name = .error e ↔ s.MemberFault v.ty name e := by
  constructor
  · intro h
    rw [readField_eq] at h
    cases hpointer : v.ty.isPointer with
    | true =>
      rw [hpointer, if_pos rfl] at h
      cases h
      exact .pointer hpointer
    | false =>
      rw [hpointer, if_neg Bool.false_ne_true] at h
      cases hentry : s.entries[v.ty.id.toNat]? with
      | none =>
        rw [hentry] at h
        cases h
        exact .unknown hpointer hentry
      | some entry =>
        obtain ⟨typeName,layout⟩ := entry
        rw [hentry] at h
        cases layout with
        | record size fields =>
          dsimp only at h
          cases hfield : fields.find? (·.name = name) with
          | some field =>
            rw [hfield] at h
            cases h
          | none =>
            rw [hfield] at h
            cases h
            exact .absent hpointer hentry fun field hmem hname =>
              List.find?_eq_none.mp hfield field hmem (decide_eq_true hname)
        | _ =>
          cases h
          exact .leaf hpointer hentry nofun
  · intro h
    rw [readField_eq]
    cases h with
    | pointer h => rw [h, if_pos rfl, RawValue.typeName]
    | unknown h hentry => rw [h, if_neg Bool.false_ne_true, hentry]
    | leaf h hentry hlayout =>
      rename_i entry
      obtain ⟨typeName,layout⟩ := entry
      rw [h, if_neg Bool.false_ne_true, hentry, RawValue.typeName]
      cases layout with
      | record size fields => exact absurd rfl (hlayout size fields)
      | _ => rfl
    | absent h hentry hfields =>
      rename_i typeName size fields
      have hnone : fields.find? (·.name = name) = none :=
        List.find?_eq_none.mpr fun field hmem hname => hfields field hmem (of_decide_eq_true hname)
      rw [h, if_neg Bool.false_ne_true, hentry]
      dsimp only
      rw [hnone, RawValue.typeName]

end Members

section Paths
variable {ty declared : TypeDesc} {path : List String}

/-- A path of member names leads some bytes into a type, to a member with a declared type. -/
inductive PathAt (s : Snapshot) : TypeDesc → List String → Nat → TypeDesc → Prop
  | nil (ty : TypeDesc) : PathAt s ty [] 0 ty
  | cons {ty declared : TypeDesc} {name : String} {field : FieldDef} {path : List String}
    {offset : Nat} (h : s.MemberAt ty name field) (rest : PathAt s field.ty path offset declared) :
    PathAt s ty (name :: path) (field.offset + offset) declared

/-- A path of member names ends early, at a type without the next member. -/
inductive BreaksOff (s : Snapshot) : TypeDesc → List String → InspectError → Prop
  | here {ty : TypeDesc} {name : String} {path : List String} {e : InspectError}
    (h : s.MemberFault ty name e) : BreaksOff s ty (name :: path) e
  | later {ty : TypeDesc} {name : String} {field : FieldDef} {path : List String}
    {e : InspectError} (h : s.MemberAt ty name field) (rest : BreaksOff s field.ty path e) :
    BreaksOff s ty (name :: path) e

/-- The offsets along a path add up, and the address wraps around. -/
theorem hasPath_iff {w : RawValue} : s.HasPath v path w ↔
    ∃ offset, s.PathAt v.ty path offset w.ty ∧ w.address = v.address + .ofNat offset := by
  constructor
  · intro h
    induction h with
    | nil v => exact ⟨0,.nil _,(UInt64.add_zero _).symm⟩
    | cons hmember _ ih =>
      obtain ⟨field,hfield,rfl⟩ := hasMember_iff.mp hmember
      obtain ⟨offset,hpath,haddress⟩ := ih
      exact ⟨_,.cons hfield hpath,by rw [haddress, UInt64.ofNat_add, UInt64.add_assoc]⟩
  · rintro ⟨offset,hpath,haddress⟩
    obtain ⟨start,ty⟩ := v
    obtain ⟨address,declared⟩ := w
    dsimp only at hpath haddress
    induction hpath generalizing start with
    | nil ty =>
      obtain rfl : address = start := haddress.trans (UInt64.add_zero _)
      exact .nil _
    | cons hfield _ ih =>
      refine .cons (hasMember_iff.mpr ⟨_,hfield,rfl⟩) (ih _ ?_)
      rw [haddress, UInt64.ofNat_add, UInt64.add_assoc]

end Paths

/-- Values of the type are void, as far as it is known. -/
def IsVoid (s : Snapshot) (ty : TypeDesc) : Prop :=
  ty.isPointer = false ∧ ∃ name, s.entries[ty.id.toNat]? = some ⟨name,.primitive .void⟩

theorem getElem?_entries_of_lookupType {spelling : String} {ty : TypeDesc}
    (h : s.lookupType spelling = some ty) : ∃ entry, s.entries[ty.id.toNat]? = some entry := by
  obtain ⟨id,entry,-,hentry,rfl⟩ := lookupType_eq_some_iff.mp h
  refine ⟨entry,?_⟩
  rw [TypeDesc.pointerTimes_plain]
  exact hentry

/-- A name without stars is the name of a plain type. -/
theorem levels_of_lookupType (s : Snapshot) (name : String)
    (hstars : (splitStars name.toList).2 = 0) (ty : TypeDesc) (h : s.lookupType name = some ty) :
    ty.pointers.toNat < 255 := by
  obtain ⟨id,entry,-,-,rfl⟩ := lookupType_eq_some_iff.mp h
  rw [hstars]
  exact Nat.zero_lt_succ 254

/-- What following a pointer to a type comes to. -/
inductive PointsTo (s : Snapshot) (address : UInt64) (ty : TypeDesc) :
    Except InspectError RawValue → Prop
  | incomplete (hvoid : s.IsVoid ty) :
    PointsTo s address ty (.error (.incompleteType ty.pointer.spelling))
  | unmapped (hvoid : ¬s.IsVoid ty) (hnone : s.memory.Unmapped address 8) :
    PointsTo s address ty (.error (.unmapped address 8))
  | null {bytes : List UInt8} (hvoid : ¬s.IsVoid ty) (hbytes : bytes.length = 8)
    (hshown : s.memory.Shows address bytes) (hzero : ∀ b ∈ bytes, b = 0) :
    PointsTo s address ty (.error (.nullDereference ty.pointer.spelling))
  | target {bytes : List UInt8} (hvoid : ¬s.IsVoid ty) (hbytes : bytes.length = 8)
    (hshown : s.memory.Shows address bytes) (hnull : ∃ b ∈ bytes, b ≠ 0) :
    PointsTo s address ty (.ok ⟨.ofNat (littleEndian bytes),ty⟩)

theorem exists_pointsTo (s : Snapshot) (address : UInt64) (ty : TypeDesc) :
    ∃ outcome, s.PointsTo address ty outcome := by
  by_cases hvoid : s.IsVoid ty
  · exact ⟨_,.incomplete hvoid⟩
  rcases s.memory.shows_or_unmapped address 8 with ⟨bytes,hbytes,hshown⟩ | hnone
  · by_cases hnull : ∃ b ∈ bytes, b ≠ 0
    · exact ⟨_,.target hvoid hbytes hshown hnull⟩
    · exact ⟨_,.null hvoid hbytes hshown fun b hb => by_contra fun hne => hnull ⟨b,hb,hne⟩⟩
  · exact ⟨_,.unmapped hvoid hnone⟩

section Target
variable {ty : TypeDesc} {address : UInt64} (hty : ty.pointers.toNat < 255)
include hty

theorem dereference_of_isVoid (h : s.IsVoid ty) :
    s.dereference ⟨address,ty.pointer⟩ = .error (.incompleteType ty.pointer.spelling) := by
  obtain ⟨hplain,name,hentry⟩ := h
  rw [dereference_eq, TypeDesc.pointee?_pointer hty]
  dsimp only
  rw [hplain, hentry]
  rfl

variable {spelling : String} (hfound : s.lookupType spelling = some ty)
include hfound

theorem dereference_of_not_isVoid (h : ¬s.IsVoid ty) :
    s.dereference ⟨address,ty.pointer⟩ = s.targetAs ⟨address,ty.pointer⟩ ty := by
  obtain ⟨⟨name,layout⟩,hentry⟩ := getElem?_entries_of_lookupType hfound
  rw [dereference_eq, TypeDesc.pointee?_pointer hty]
  dsimp only
  cases hplain : ty.isPointer with
  | true => rw [if_pos rfl]
  | false =>
    have hlayout : layout ≠ .primitive .void := fun hvoid => h ⟨hplain,name,hvoid ▸ hentry⟩
    rw [if_neg Bool.false_ne_true, hentry]
    dsimp only
    rw [if_neg hlayout]

variable (hs : s.memory.Stacked)
include hs

theorem PointsTo.dereference_eq {outcome : Except InspectError RawValue}
    (h : s.PointsTo address ty outcome) : s.dereference ⟨address,ty.pointer⟩ = outcome := by
  cases h with
  | incomplete hvoid => exact dereference_of_isVoid hty hvoid
  | unmapped hvoid hnone =>
    rw [dereference_of_not_isVoid hty hfound hvoid, targetAs, readPointer_of_unmapped hs hnone]
  | null hvoid hbytes hshown hzero =>
    rw [dereference_of_not_isVoid hty hfound hvoid, targetAs,
      readPointer_of_shows hs hbytes hshown]
    exact if_pos ((ofNat_littleEndian_eq_zero_iff hbytes).mpr hzero)
  | target hvoid hbytes hshown hnull =>
    obtain ⟨b,hb,hne⟩ := hnull
    rw [dereference_of_not_isVoid hty hfound hvoid, targetAs,
      readPointer_of_shows hs hbytes hshown]
    exact if_neg fun hzero => hne ((ofNat_littleEndian_eq_zero_iff hbytes).mp hzero b hb)

/-- All that following a pointer to a type of the table comes to. -/
theorem dereference_eq_iff {outcome : Except InspectError RawValue} :
    s.dereference ⟨address,ty.pointer⟩ = outcome ↔ s.PointsTo address ty outcome := by
  refine ⟨?_,PointsTo.dereference_eq hty hfound hs⟩
  rintro rfl
  obtain ⟨outcome,h⟩ := s.exists_pointsTo address ty
  exact (h.dereference_eq hty hfound hs) ▸ h

end Target

/-- What unwrapping an object comes to: the first thing that is missing, or the target of the pointer as
the type that was looked up. -/
inductive UnwrapsTo (s : Snapshot) (layout : StandardLayout) (v : RawValue)
    (implementation : String) : Except InspectError RawValue → Prop
  | missingType (h : s.lookupType implementation = none) :
    UnwrapsTo s layout v implementation (.error (.missingImplementation implementation))
  | missingMember {ty : TypeDesc} {e : InspectError} (h : s.lookupType implementation = some ty)
    (hpath : s.BreaksOff v.ty (layout.pimplField :: layout.pimplPointer) e) :
    UnwrapsTo s layout v implementation (.error e)
  | pointer {ty declared : TypeDesc} {offset : Nat} {outcome : Except InspectError RawValue}
    (h : s.lookupType implementation = some ty)
    (hpath : s.PathAt v.ty (layout.pimplField :: layout.pimplPointer) offset declared)
    (houtcome : s.PointsTo (v.address + .ofNat offset) ty outcome) :
    UnwrapsTo s layout v implementation outcome

end Snapshot

section Answered
variable {s : Snapshot} {demangler : Option Demangler} {v : RawValue} {e : InspectError}

/-- Reading along a path fails where it breaks off. -/
theorem Decode.eval_readPath_eq_error_iff {path : List String} :
    (Decode.readPath v path).run.eval (Host.answers ⟨s.oracle,demangler⟩) = .error e ↔
      s.BreaksOff v.ty path e := by
  induction path generalizing v with
  | nil => exact ⟨nofun,nofun⟩
  | cons name path ih =>
    rw [readPath, eval_bind_eq_error_iff]
    constructor
    · rintro (h | ⟨member,hmember,hrest⟩)
      · exact .here (Snapshot.readField_eq_error_iff.mp h)
      · obtain ⟨field,hfield,rfl⟩ :=
          Snapshot.hasMember_iff.mp (Snapshot.readField_eq_ok_iff.mp hmember)
        exact .later hfield (ih.mp hrest)
    · rintro (h | ⟨hfield,hrest⟩)
      · exact .inl (Snapshot.readField_eq_error_iff.mpr h)
      · exact .inr ⟨_,Snapshot.readField_eq_ok_iff.mpr (Snapshot.hasMember_iff.mpr ⟨_,hfield,rfl⟩),
          ih.mpr hrest⟩

/-- Once the type is found, the target of the pointer at the end of the path is. -/
theorem eval_unwrapImplementation_of_lookupType {layout : StandardLayout} {implementation : String}
    {ty : TypeDesc} (h : s.lookupType implementation = some ty) :
    (unwrapImplementation layout v implementation).run.eval (Host.answers ⟨s.oracle,demangler⟩) =
      match (Decode.readPath v (layout.pimplField :: layout.pimplPointer)).run.eval
          (Host.answers ⟨s.oracle,demangler⟩) with
      | .ok raw => s.dereference (raw.retyped ty.pointer)
      | .error e => .error e := by
  have hfound : Host.answers ⟨s.oracle,demangler⟩ (.lookupType implementation) = some ty := h
  rw [unwrapImplementation, Decode.eval_bind, Decode.eval_lookupType, hfound, Decode.readPath]
  dsimp only
  rw [Decode.eval_bind, Decode.eval_bind]
  cases (Decode.readField v layout.pimplField).run.eval (Host.answers ⟨s.oracle,demangler⟩) with
  | error e => rfl
  | ok owner =>
    dsimp only
    rw [Decode.eval_bind]
    cases (Decode.readPath owner layout.pimplPointer).run.eval
      (Host.answers ⟨s.oracle,demangler⟩) <;> rfl

section Outcome
variable {layout : StandardLayout} {implementation : String}
  {outcome : Except InspectError RawValue} (hs : s.memory.Stacked)
  (hlevels : ∀ ty, s.lookupType implementation = some ty → ty.pointers.toNat < 255)
include hs hlevels

theorem eval_unwrapImplementation_eq_iff :
    (unwrapImplementation layout v implementation).run.eval (Host.answers ⟨s.oracle,demangler⟩) =
      outcome ↔ s.UnwrapsTo layout v implementation outcome := by
  cases hfound : s.lookupType implementation with
  | none =>
    have hanswer : Host.answers ⟨s.oracle,demangler⟩ (.lookupType implementation) = none := hfound
    rw [unwrapImplementation, Decode.eval_bind, Decode.eval_lookupType, hanswer]
    constructor
    · rintro rfl
      exact .missingType hfound
    · rintro (_ | ⟨h,_⟩ | ⟨h,_,_⟩)
      · rfl
      · cases hfound.symm.trans h
      · cases hfound.symm.trans h
  | some ty =>
    have hderef := fun address => @Snapshot.dereference_eq_iff s ty address (hlevels ty hfound)
      implementation hfound hs outcome
    rw [eval_unwrapImplementation_of_lookupType hfound]
    constructor
    · rintro h
      cases hpath : (Decode.readPath v (layout.pimplField :: layout.pimplPointer)).run.eval
          (Host.answers ⟨s.oracle,demangler⟩) with
      | error e =>
        rw [hpath] at h
        exact h ▸ .missingMember hfound (Decode.eval_readPath_eq_error_iff.mp hpath)
      | ok raw =>
        rw [hpath] at h
        obtain ⟨offset,hpath,haddress⟩ :=
          Snapshot.hasPath_iff.mp (Decode.eval_readPath_eq_ok_iff.mp hpath)
        exact .pointer hfound hpath (haddress ▸ (hderef raw.address).mp h)
    · rintro (h | ⟨h,hpath⟩ | ⟨h,hpath,houtcome⟩)
      · cases hfound.symm.trans h
      · rw [Decode.eval_readPath_eq_error_iff.mpr hpath]
      · obtain rfl := Option.some.inj (hfound.symm.trans h)
        rw [Decode.eval_readPath_eq_ok_iff.mpr 
          (Snapshot.hasPath_iff (w := ⟨_,_⟩).mpr ⟨_,hpath,rfl⟩)]
        exact (hderef _).mpr houtcome

end Outcome
end Answered

namespace Snapshot
variable {s : Snapshot} {v w : RawValue} {path : List String}

theorem HasPath.unique {w' : RawValue} (h : s.HasPath v path w) (h' : s.HasPath v path w') :
    w = w' := by
  have hread : (Decode.readPath v path).run.eval (Host.answers ⟨s.oracle,none⟩) = .ok w :=
    Decode.eval_readPath_eq_ok_iff.mpr h
  exact Except.ok.inj (hread.symm.trans (Decode.eval_readPath_eq_ok_iff.mpr h'))

theorem BreaksOff.not_hasPath {e : InspectError} (h : s.BreaksOff v.ty path e) (w : RawValue) :
    ¬s.HasPath v path w := by
  intro hpath
  have hread : (Decode.readPath v path).run.eval (Host.answers ⟨s.oracle,none⟩) = .error e :=
    Decode.eval_readPath_eq_error_iff.mpr h
  cases hread.symm.trans (Decode.eval_readPath_eq_ok_iff.mpr hpath)

section Outcome
variable {layout : StandardLayout} {implementation : String} {inner : RawValue}
  (hs : s.memory.Stacked)
  (hlevels : ∀ ty, s.lookupType implementation = some ty → ty.pointers.toNat < 255)
include hs hlevels

/-- An object has one implementation, or none. -/
theorem UnwrapsTo.eq_ok {outcome : Except InspectError RawValue}
    (h : s.UnwrapsTo layout v implementation outcome)
    (hinner : s.Unwraps layout v implementation inner) : outcome = .ok inner := by
  have heval : (unwrapImplementation layout v implementation).run.eval
      (Host.answers ⟨s.oracle,none⟩) = outcome :=
    (eval_unwrapImplementation_eq_iff hs hlevels).mpr h
  exact heval.symm.trans (eval_unwrapImplementation_eq_ok_iff.mpr hinner)

theorem UnwrapsTo.unwraps (h : s.UnwrapsTo layout v implementation (.ok inner)) :
    s.Unwraps layout v implementation inner := by
  have heval : (unwrapImplementation layout v implementation).run.eval
      (Host.answers ⟨s.oracle,none⟩) = .ok inner :=
    (eval_unwrapImplementation_eq_iff hs hlevels).mpr h
  exact eval_unwrapImplementation_eq_ok_iff.mp heval

end Outcome
end Snapshot

theorem Decode.asksOnly_readPath (v : RawValue) (path : List String) :
    (readPath v path).run.AsksOnly Request.IsRead := by
  induction path generalizing v with
  | nil => trivial
  | cons name path ih => exact asksOnly_bind (Query.asksOnly_request trivial) fun member => ih member

theorem asksOnly_unwrapImplementation (layout : StandardLayout) (v : RawValue)
    (implementation : String) :
    (unwrapImplementation layout v implementation).run.AsksOnly Request.IsRead := by
  refine Decode.asksOnly_bind (Query.asksOnly_request trivial) fun found => ?_
  cases found with
  | none => trivial
  | some ty =>
    exact Decode.asksOnly_bind (Query.asksOnly_request trivial) fun owner =>
      Decode.asksOnly_bind (Decode.asksOnly_readPath owner _) fun raw =>
        Decode.asksOnly_bind (Query.asksOnly_request trivial) fun pointer =>
          Query.asksOnly_request trivial

namespace Construction

/-- The type is looked up first, and if there is none, nothing else is asked for. What unwrapping comes to
is the first thing that is missing on the way, or the target of the pointer. The bytes of the pointer are
those that the memory shows: of regions that overlap at the last address the last one counts. -/
theorem unwrapImplementation_outcome (steps : List BuilderStep) (demangler : Option Demangler)
    (m : ResolverMemory) (layout : StandardLayout) (v : RawValue) (implementation : String)
    (hlevels : ∀ ty, (ofSteps steps).builder.snapshot.lookupType implementation = some ty →
      ty.pointers.toNat < 255) :
    (∃ k, (unwrapImplementation layout v implementation).run = .ask (.lookupType implementation) k ∧
      k none = .done (.error (.missingImplementation implementation))) ∧
    ∀ outcome, (unwrapImplementation layout v implementation).run.run
        ⟨(ofSteps steps).builder.snapshot.oracle,demangler⟩ m = (outcome,m) ↔
      (ofSteps steps).builder.snapshot.UnwrapsTo layout v implementation outcome := by
  refine ⟨⟨_,rfl,rfl⟩,fun outcome => ?_⟩
  rw [Query.run_of_isRead (asksOnly_unwrapImplementation layout v implementation), Prod.mk.injEq,
    and_iff_left rfl]
  exact eval_unwrapImplementation_eq_iff (stacked_ofSteps steps) hlevels

/-- An object whose pointer is declared as a number and lies sixteen bytes behind its start. -/
def nestedSteps : List BuilderStep :=
  [.type (.record "Impl" 8 []),.type (.primitive "address" .u64),
    .type (.record "Owner" 16 [⟨"pointer",8,.plain 1 "address"⟩]),
    .type (.record "Widget" 24 [⟨"owner",8,.plain 2 "Owner"⟩]),
    .memory (.map 8 #[0,32,0,0,0,0,0,0])]

/-- The object starts eight bytes before the end of the addresses, so its pointer lies at address 8. -/
theorem unwrapImplementation_outcome_nested :
    (unwrapImplementation ⟨"","","owner",["pointer"],[]⟩
        ⟨0xfffffffffffffff8,.plain 3 "Widget"⟩ "Impl").run.run
      ⟨(ofSteps nestedSteps).builder.snapshot.oracle,none⟩ .fresh =
        (.ok ⟨8192,.plain 0 "Impl"⟩,.fresh) := by
  have hfound : (ofSteps nestedSteps).builder.snapshot.lookupType "Impl" =
      some (.plain 0 "Impl") := by decide +kernel
  have hentries : (ofSteps nestedSteps).builder.snapshot.entries =
    #[⟨"Impl",.record 8 []⟩,⟨"address",.primitive .u64⟩,
      ⟨"Owner",.record 16 [⟨"pointer",8,.plain 1 "address"⟩]⟩,
      ⟨"Widget",.record 24 [⟨"owner",8,.plain 2 "Owner"⟩]⟩] := by decide +kernel
  have howner : (ofSteps nestedSteps).builder.snapshot.MemberAt (.plain 3 "Widget") "owner"
      ⟨"owner",8,.plain 2 "Owner"⟩ := ⟨rfl,_,_,_,congrArg (·[3]?) hentries,rfl⟩
  have hpointer : (ofSteps nestedSteps).builder.snapshot.MemberAt (.plain 2 "Owner") "pointer"
      ⟨"pointer",8,.plain 1 "address"⟩ := ⟨rfl,_,_,_,congrArg (·[2]?) hentries,rfl⟩
  have hvoid : ¬(ofSteps nestedSteps).builder.snapshot.IsVoid (.plain 0 "Impl") := by
    rintro ⟨_,name,hentry⟩
    rw [hentries] at hentry
    cases hentry
  have hbytes : ([0,32,0,0,0,0,0,0] : List UInt8).length = 8 := rfl
  refine ((unwrapImplementation_outcome nestedSteps none .fresh _ _ "Impl" ?_).2
    (.ok ⟨8192,.plain 0 "Impl"⟩)).mpr ?_
  · intro ty hty
    obtain rfl := Option.some.inj (hfound.symm.trans hty)
    decide
  · refine .pointer hfound (.cons howner (.cons hpointer (.nil _))) ?_
    exact Snapshot.PointsTo.target hvoid hbytes (by decide +kernel) ⟨32,by decide,by decide⟩

/-- A pointer that is captured from the last address on, where an empty region is mapped after it. -/
def hiddenPointerSteps : List BuilderStep :=
  [.type (.record "Impl" 8 []),.type (.record "Owner" 8 [⟨"_M_t",0,⟨0,1,"Impl"⟩⟩]),
    .type (.record "Widget" 8 [⟨"m_impl",0,.plain 1 "Owner"⟩]),
    .memory (.map 0xffffffffffffffff #[0,32,0,0,0,0,0,0]),.memory (.map 0xffffffffffffffff #[])]

/-- All calls are accepted, the type and the members are there, and one region has the eight bytes of the
pointer, not all zero. The pointer is not followed. -/
theorem unwrapImplementation_hidden :
    (ofSteps hiddenPointerSteps).results.map (·.2) =
        [.ok (some (.plain 0 "Impl")),.ok (some (.plain 1 "Owner")),.ok (some (.plain 2 "Widget")),
          .ok none,.ok none] ∧
      (ofSteps hiddenPointerSteps).builder.snapshot.lookupType "Impl" = some (.plain 0 "Impl") ∧
      (ofSteps hiddenPointerSteps).builder.snapshot.PathAt (.plain 2 "Widget") ["m_impl","_M_t"] 0
        ⟨0,1,"Impl"⟩ ∧
      ¬(ofSteps hiddenPointerSteps).builder.snapshot.IsVoid (.plain 0 "Impl") ∧
      (∃ r ∈ (ofSteps hiddenPointerSteps).builder.snapshot.memory.regions.toList,
        r.Holds 0xffffffffffffffff [0,32,0,0,0,0,0,0]) ∧
      ((unwrapImplementation .standard ⟨0xffffffffffffffff,.plain 2 "Widget"⟩ "Impl").run.run
        ⟨(ofSteps hiddenPointerSteps).builder.snapshot.oracle,none⟩ .fresh).1 =
          .error (.unmapped 0xffffffffffffffff 8) := by
  have hentries : (ofSteps hiddenPointerSteps).builder.snapshot.entries =
    #[⟨"Impl",.record 8 []⟩,⟨"Owner",.record 8 [⟨"_M_t",0,⟨0,1,"Impl"⟩⟩]⟩,
      ⟨"Widget",.record 8 [⟨"m_impl",0,.plain 1 "Owner"⟩]⟩] := by decide +kernel
  have howner : (ofSteps hiddenPointerSteps).builder.snapshot.MemberAt (.plain 2 "Widget") "m_impl"
      ⟨"m_impl",0,.plain 1 "Owner"⟩ := ⟨rfl,_,_,_,congrArg (·[2]?) hentries,rfl⟩
  have hpointer : (ofSteps hiddenPointerSteps).builder.snapshot.MemberAt (.plain 1 "Owner") "_M_t"
      ⟨"_M_t",0,⟨0,1,"Impl"⟩⟩ := ⟨rfl,_,_,_,congrArg (·[1]?) hentries,rfl⟩
  refine ⟨by decide +kernel,by decide +kernel,.cons howner (.cons hpointer (.nil _)),?_,
    by decide +kernel,by decide +kernel⟩
  rintro ⟨_,name,hentry⟩
  rw [hentries] at hentry
  cases hentry

end Construction
end ValueInspector
