import ValueInspector.Proofs.Memory.LastAddress
import ValueInspector.Proofs.Snapshot.TypeTable
import ValueInspector.Snapshot.Reading

/-! # Typed reads of what is stored

What the reading functions of a snapshot come to, told by its table and by the bytes that its memory
stores. A word is stored in little-endian order and read back as it was; a pointer gives the address
that is stored at its location, as an integer, as a text and as the place of its target.
-/
namespace ValueInspector

theorem length_toLittleEndian (width n : Nat) : (toLittleEndian width n).length = width := by
  induction width generalizing n with
  | zero => rfl
  | succ width ih => rw [toLittleEndian, List.length_cons, ih]

theorem littleEndian_toLittleEndian {width n : Nat} (h : n < Nat.pow 256 width) :
    littleEndian (toLittleEndian width n) = n := by
  induction width generalizing n with
  | zero => exact (Nat.lt_one_iff.mp h).symm
  | succ width ih =>
    have hsmall : n / 256 < Nat.pow 256 width := by
      refine Nat.div_lt_of_lt_mul ?_
      rw [Nat.mul_comm]
      exact h
    rw [toLittleEndian, littleEndian, ih hsmall, UInt8.toNat_ofNat']
    omega

theorem toLittleEndian_littleEndian (bytes : List UInt8) :
    toLittleEndian bytes.length (littleEndian bytes) = bytes := by
  induction bytes with
  | nil => rfl
  | cons b rest ih =>
    have hb := b.toNat_lt
    have hfirst : (b.toNat + 256 * littleEndian rest) % 256 = b.toNat := by omega
    have hrest : (b.toNat + 256 * littleEndian rest) / 256 = littleEndian rest := by omega
    rw [littleEndian, List.length_cons, toLittleEndian, hfirst, hrest, ih, UInt8.ofNat_toNat]

theorem Cursor.single_ofBytes {bytes : List UInt8} {width : Nat} (h : bytes.length = width)
    (address : UInt64) :
    (ofBytes bytes address).single width = .ok (littleEndian bytes) := by
  subst h
  have hword : (ofBytes bytes address).word bytes.length =
      .ok (littleEndian bytes,⟨[],address.toNat + bytes.length⟩) := by
    rw [word, ofBytes, if_neg (Nat.lt_irrefl _), List.take_length, List.drop_length]
  rw [single, hword]
  rfl

/-- The memory of a snapshot that a builder made is stacked. -/
theorem Construction.stacked_ofSteps (steps : List BuilderStep) :
    (ofSteps steps).builder.snapshot.memory.Stacked := by
  have hnext : ∀ (c : Construction) (s : BuilderStep), c.builder.snapshot.memory.Stacked →
      (c.next s).builder.snapshot.memory.Stacked := by
    intro c s h
    cases s with
    | type s =>
      rcases c.next_type_cases s with ⟨_,hb,_⟩ | ⟨_,_,_,hb,_⟩ | ⟨_,_,_,hb,_⟩
      · rw [hb]
        exact h
      · rw [hb]
        exact h
      · rw [hb]
        exact h
    | memory s =>
      rw [next, BuilderStep.apply, EStateM.run_bind]
      cases hs : s.apply.run c.builder with
      | error e b =>
        rw [MemoryStep.eq_of_apply_error hs]
        exact h
      | ok _ b =>
        rcases s.apply_ok hs with ⟨r,_,_,hinsert⟩ | ⟨address,data,_,_,hwrite⟩
        · exact (h.insert_ok hinsert).1
        · exact (h.write_ok hwrite).1
  exact List.foldlRecOn (motive := fun c => c.builder.snapshot.memory.Stacked) steps next
    (b := start) Memory.stacked_empty fun c h s _ => hnext c s h

namespace Snapshot
variable {s : Snapshot} {v : RawValue}

section Whole

theorem fetch_of_isPointer (hv : v.ty.isPointer = true) :
    s.fetch v = s.memory.read v.address pointerSize := by
  rw [fetch, sizeOf, if_pos hv]
  rfl

variable (hv : v.ty.isPointer = false) {name : String}
include hv

theorem fetch_of_layout {layout : Layout} (hentry : s.entries[v.ty.id.toNat]? = some ⟨name,layout⟩) :
    s.fetch v = s.memory.read v.address layout.size := by
  rw [fetch, sizeOf, hv, typeDef, hentry]
  rfl

/-- An integer is read off the bytes of its location. -/
theorem readInteger_of_primitive {p : Primitive}
    (hentry : s.entries[v.ty.id.toNat]? = some ⟨name,.primitive p⟩) :
    s.readInteger v = (do
      let bytes ← s.memory.read v.address p.size
      let n ← p.integer? (.ofBytes bytes v.address)
      n.elim (.error (.notAnInteger v.typeName)) .ok) := by
  have hfetch : s.fetch v = s.memory.read v.address p.size := fetch_of_layout hv hentry
  rw [readInteger, hv, typeDef, hentry, ← hfetch]
  refine congrArg (s.fetch v >>= ·) (funext fun bytes => ?_)
  refine congrArg (p.integer? (.ofBytes bytes v.address) >>= ·) (funext fun n => ?_)
  cases n with
  | none => rfl
  | some n => rfl

theorem formatValue_of_primitive {p : Primitive}
    (hentry : s.entries[v.ty.id.toNat]? = some ⟨name,.primitive p⟩) :
    s.formatValue v = (do
      let bytes ← s.memory.read v.address p.size
      p.format (.ofBytes bytes v.address)) := by
  have hfetch : s.fetch v = s.memory.read v.address p.size := fetch_of_layout hv hentry
  rw [formatValue, hv, typeDef, hentry, ← hfetch]
  rfl

end Whole

section Member

/-- A member of a record: at its offset and with its type. The first member of a name counts. -/
def HasMember (s : Snapshot) (v : RawValue) (name : String) (member : RawValue) : Prop :=
  v.ty.isPointer = false ∧ ∃ typeName size fields field,
    s.entries[v.ty.id.toNat]? = some ⟨typeName,.record size fields⟩ ∧
    fields.find? (·.name = name) = some field ∧
    member = ⟨v.address + .ofNat field.offset,field.ty⟩

/-- All that a member access does. -/
theorem readField_eq (s : Snapshot) (v : RawValue) (name : String) :
    s.readField v name =
      if v.ty.isPointer then .error (.notAStruct v.typeName)
      else
        match s.entries[v.ty.id.toNat]? with
        | none => .error (.unknownTypeId v.ty.id v.ty.spelling)
        | some ⟨_,.record _ fields⟩ =>
          match fields.find? (·.name = name) with
          | some field => .ok ⟨v.address + .ofNat field.offset,field.ty⟩
          | none => .error (.missingField v.typeName name)
        | some _ => .error (.notAStruct v.typeName) := by
  rw [readField, typeDef]
  cases v.ty.isPointer with
  | true => rfl
  | false =>
    cases s.entries[v.ty.id.toNat]? with
    | none => rfl
    | some entry =>
      rcases entry with ⟨_,layout⟩
      cases layout <;> rfl

theorem readField_eq_ok_iff {name : String} {member : RawValue} :
    s.readField v name = .ok member ↔ s.HasMember v name member := by
  rw [readField_eq, HasMember]
  cases v.ty.isPointer with
  | true => simp
  | false =>
    cases s.entries[v.ty.id.toNat]? with
    | none => simp
    | some entry =>
      rcases entry with ⟨typeName,layout⟩
      cases layout with
      | record size fields =>
        cases hfield : fields.find? (·.name = name) with
        | none => simp [hfield]
        | some field => simpa [hfield] using eq_comm
      | _ => simp

end Member

section Target

/-- A pointer of the type has a target: another pointer, or a value of a type in the table that is not
void. -/
def HasTarget (s : Snapshot) (ty : TypeDesc) : Prop :=
  ∃ pointee ∈ ty.pointee?, pointee.isPointer = true ∨
    ∃ entry, s.entries[pointee.id.toNat]? = some entry ∧ entry.layout ≠ .primitive .void

/-- The value of a type at the address that a pointer holds, unless that is null. -/
def targetAs (s : Snapshot) (v : RawValue) (pointee : TypeDesc) : Except InspectError RawValue :=
  match s.readPointer v with
  | .error e => .error e
  | .ok w => if w = 0 then .error (.nullDereference v.typeName) else .ok ⟨w,pointee⟩

/-- All that following a pointer does. -/
theorem dereference_eq (s : Snapshot) (v : RawValue) :
    s.dereference v =
      match v.ty.pointee? with
      | none => .error (.notAPointer v.typeName)
      | some pointee =>
        if pointee.isPointer then s.targetAs v pointee
        else
          match s.entries[pointee.id.toNat]? with
          | none => .error (.unknownTypeId pointee.id pointee.spelling)
          | some entry =>
            if entry.layout = .primitive .void then .error (.incompleteType v.typeName)
            else s.targetAs v pointee := by
  rw [dereference]
  cases v.ty.pointee? with
  | none => rfl
  | some pointee =>
    have htarget : (do
        let target ← s.readPointer v
        if target = 0 then throw (.nullDereference v.typeName)
        return ⟨target,pointee⟩) = s.targetAs v pointee := by
      rw [targetAs]
      cases s.readPointer v with
      | error e => rfl
      | ok w =>
        dsimp only [bind, Except.bind]
        split <;> rfl
    dsimp only
    rw [htarget]
    cases pointee.isPointer with
    | true => rfl
    | false =>
      rw [typeDef]
      cases s.entries[pointee.id.toNat]? with
      | none => rfl
      | some entry => rfl

theorem targetAs_eq_ok_iff {pointee : TypeDesc} {target : RawValue} :
    s.targetAs v pointee = .ok target ↔
      s.readPointer v = .ok target.address ∧ target.address ≠ 0 ∧ pointee = target.ty := by
  rcases target with ⟨address,ty⟩
  rw [targetAs]
  cases s.readPointer v with
  | error e => simp
  | ok w =>
    dsimp only
    by_cases hw : w = 0
    · rw [if_pos hw]
      refine ⟨nofun,fun ⟨hread,hnull,_⟩ => ?_⟩
      cases hread
      exact absurd hw hnull
    · rw [if_neg hw, Except.ok.injEq, Except.ok.injEq, RawValue.mk.injEq]
      constructor
      · rintro ⟨rfl,rfl⟩
        exact ⟨rfl,hw,rfl⟩
      · rintro ⟨rfl,_,rfl⟩
        exact ⟨rfl,rfl⟩

/-- Which pointers lead to a target, and to which. -/
theorem dereference_eq_ok_iff {target : RawValue} :
    s.dereference v = .ok target ↔ s.HasTarget v.ty ∧ v.ty.pointee? = some target.ty ∧
      s.readPointer v = .ok target.address ∧ target.address ≠ 0 := by
  rw [dereference_eq, HasTarget]
  cases v.ty.pointee? with
  | none => simp
  | some pointee =>
    cases hplain : pointee.isPointer with
    | true => simp [hplain, targetAs_eq_ok_iff, and_comm, and_assoc]
    | false =>
      cases hentry : s.entries[pointee.id.toNat]? with
      | none => simp [hplain, hentry]
      | some entry =>
        by_cases hvoid : entry.layout = .primitive .void
        · simp [hplain, hentry, hvoid]
        · simp [hplain, hentry, hvoid, targetAs_eq_ok_iff, and_comm, and_assoc]

/-- Only the type decides whether a pointer that is not null has a target. -/
theorem exists_dereference_iff {w : UInt64} (hw : s.readPointer v = .ok w) (hnull : w ≠ 0) :
    (∃ target, s.dereference v = .ok target) ↔ s.HasTarget v.ty := by
  constructor
  · rintro ⟨target,htarget⟩
    exact (dereference_eq_ok_iff.mp htarget).1
  · intro htarget
    obtain ⟨pointee,hpointee,_⟩ := id htarget
    exact ⟨⟨w,pointee⟩,dereference_eq_ok_iff.mpr ⟨htarget,hpointee,hw,hnull⟩⟩

end Target

section Stored
variable (hs : s.memory.Stacked)
include hs

/-- A word that is stored at the location of a value. -/
theorem read_word {width n : Nat} (hstored : s.memory.Stores v.address (toLittleEndian width n))
    (hwidth : 2 ≤ width) (hn : n < Nat.pow 256 width) :
    ∃ bytes, s.memory.read v.address width = .ok bytes ∧
      (Cursor.ofBytes bytes v.address).single width = .ok n := by
  have hlength := length_toLittleEndian width n
  have hread := hs.read_stored hstored (by omega)
  rw [hlength] at hread
  refine ⟨_,hread,?_⟩
  rw [Cursor.single_ofBytes hlength, littleEndian_toLittleEndian hn]

theorem readPointer_stored {w : UInt64}
    (hstored : s.memory.Stores v.address (toLittleEndian 8 w.toNat)) : s.readPointer v = .ok w := by
  obtain ⟨bytes,hread,hword⟩ := read_word hs hstored (by decide) w.toNat_lt_size
  rw [readPointer, pointerSize, hread]
  change UInt64.ofNat <$> (Cursor.ofBytes bytes v.address).single 8 = _
  rw [hword]
  exact congrArg Except.ok UInt64.ofNat_toNat

theorem formatValue_i32_stored {n : Int32} (hv : v.ty.isPointer = false) {name : String}
    (hentry : s.entries[v.ty.id.toNat]? = some ⟨name,.primitive .i32⟩)
    (hstored : s.memory.Stores v.address (toLittleEndian 4 n.toUInt32.toNat)) :
    s.formatValue v = .ok (toString n.toInt) := by
  obtain ⟨bytes,hread,hword⟩ := read_word hs hstored (by decide) n.toUInt32.toNat_lt_size
  have hsize : Primitive.i32.size = 4 := rfl
  rw [formatValue_of_primitive hv hentry, hsize, hread]
  change (fun w => toString (UInt32.ofNat w).toInt32.toInt) <$>
    (Cursor.ofBytes bytes v.address).single 4 = _
  rw [hword]
  change Except.ok (toString (UInt32.ofNat n.toUInt32.toNat).toInt32.toInt) = _
  rw [UInt32.ofNat_toNat, Int32.toInt32_toUInt32]

end Stored

/-- A pointer is read as the address it holds. -/
theorem readInteger_eq_ok_iff (hv : v.ty.isPointer = true) {n : Int64} :
    s.readInteger v = .ok n ↔ s.readPointer v = .ok n.toUInt64 := by
  rw [readInteger, if_pos hv]
  cases s.readPointer v with
  | error e => exact ⟨nofun,nofun⟩
  | ok w =>
    change Except.ok w.toInt64 = .ok n ↔ _
    rw [Except.ok.injEq, Except.ok.injEq]
    constructor
    · rintro rfl
      exact (UInt64.toUInt64_toInt64 w).symm
    · rintro rfl
      exact Int64.toInt64_toUInt64 n

section Pointer
variable {w : UInt64} (hv : v.ty.isPointer = true) (hw : s.readPointer v = .ok w)
include hv hw

theorem readInteger_of_readPointer : s.readInteger v = .ok w.toInt64 := by
  rw [readInteger_eq_ok_iff hv, UInt64.toUInt64_toInt64]
  exact hw

theorem formatValue_of_readPointer : s.formatValue v = .ok (Text.hexWord w) := by
  rw [formatValue, hv, hw]
  rfl

omit hv in
/-- A pointer that is not null leads to a target of any type but void. -/
theorem dereference_of_readPointer {pointee : TypeDesc} (hpointee : v.ty.pointee? = some pointee)
    {entry : TypeDef} (hentry : s.entries[pointee.id.toNat]? = some entry)
    (hvoid : entry.layout ≠ .primitive .void) (hnull : w ≠ 0) : s.dereference v = .ok ⟨w,pointee⟩ :=
  dereference_eq_ok_iff.mpr ⟨⟨pointee,hpointee,.inr ⟨entry,hentry,hvoid⟩⟩,hpointee,hw,hnull⟩

end Pointer

theorem fieldNames_of_record (hv : v.ty.isPointer = false) {name : String} {size : Nat}
    {fields : List FieldDef} (hentry : s.entries[v.ty.id.toNat]? = some ⟨name,.record size fields⟩) :
    s.fieldNames v = .ok (fields.map (·.name)) := by
  rw [fieldNames, hv, typeDef, hentry]
  rfl

theorem fieldNames_of_primitive (hv : v.ty.isPointer = false) {name : String} {p : Primitive}
    (hentry : s.entries[v.ty.id.toNat]? = some ⟨name,.primitive p⟩) : s.fieldNames v = .ok [] := by
  rw [fieldNames, hv, typeDef, hentry]
  rfl

end Snapshot
end ValueInspector
