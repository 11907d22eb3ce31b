import ValueInspector.Proofs.Snapshot.Reading
import ValueInspector.Proofs.Text.SingleLine
import ValueInspector.Proofs.Text.Utf8

/-! # Names on one line

In a snapshot whose names are on one line, all spellings and all messages of failures are. A text that is
read off its memory is not, exactly if the bytes of a text value have a line feed among them.
-/
namespace ValueInspector

/-- A result with a property, or a failure with a message on one line. -/
def Yields {α : Type} (P : α → Prop) : Except InspectError α → Prop
  | .ok a => P a
  | .error e => SingleLine e.message

section Yields
variable {α β : Type} {P Q : α → Prop} {x : Except InspectError α}

theorem Yields.mono (h : Yields P x) (hPQ : ∀ a, P a → Q a) : Yields Q x := by
  cases x with
  | error e => exact h
  | ok a => exact hPQ a h

theorem Yields.bind {R : β → Prop} {f : α → Except InspectError β} (h : Yields P x)
    (hf : ∀ a, P a → Yields R (f a)) : Yields R (x >>= f) := by
  cases x with
  | error e => exact h
  | ok a => exact hf a h

/-- Failures and results can be looked at apart. -/
theorem Yields.of_ok (h : Yields Q x) (hP : ∀ a, x = .ok a → P a) : Yields P x := by
  cases x with
  | error e => exact h
  | ok a => exact hP a rfl

theorem Yields.error {e : InspectError} (h : ∀ name ∈ e.quoted, SingleLine name) :
    Yields P (.error e : Except InspectError α) := e.singleLine_message_iff.mpr h

end Yields

theorem TypeDesc.singleLine_spelling {ty : TypeDesc} :
    SingleLine ty.spelling ↔ SingleLine ty.base := by
  have hstars : '\n' ∉ List.replicate ty.pointers.toNat '*' := fun h =>
    absurd (List.eq_of_mem_replicate h) (by decide)
  rw [spelling, singleLine_append, singleLine_ofList]
  exact and_iff_left hstars

/-- A failure that quotes a type and nothing else. -/
theorem Yields.error_of_base {α : Type} {P : α → Prop} {e : InspectError} {ty : TypeDesc}
    (he : e.quoted = [ty.spelling]) (hty : SingleLine ty.base) :
    Yields P (.error e : Except InspectError α) :=
  .error (he ▸ List.forall_mem_singleton.mpr (TypeDesc.singleLine_spelling.mpr hty))

theorem TypeDesc.base_pointerTimes (ty : TypeDesc) (n : Nat) :
    (ty.pointerTimes n).base = ty.base := by
  induction n with
  | zero => rfl
  | succ n ih => exact ih

theorem TypeDesc.isPointer_of_pointee? {ty pointee : TypeDesc} (h : ty.pointee? = some pointee) :
    ty.isPointer = true := by
  rw [pointee?] at h
  split at h
  · cases h
  · exact decide_eq_true ‹_›

theorem TypeDesc.base_of_pointee? {ty pointee : TypeDesc} (h : ty.pointee? = some pointee) :
    pointee.base = ty.base := by
  rw [pointee?] at h
  split at h
  · cases h
  · cases h
    rfl

theorem Cursor.yields_word (c : Cursor) (width : Nat) : Yields (fun _ => True) (c.word width) := by
  rw [word]
  split
  · exact .error (List.forall_mem_nil _)
  · trivial

theorem Cursor.yields_single (c : Cursor) (width : Nat) :
    Yields (fun _ => True) (c.single width) :=
  (c.yields_word width).bind fun _ _ => trivial

theorem Memory.yields_read (m : Memory) (address : UInt64) (length : Nat) :
    Yields (fun _ => True) (m.read address length) := by
  rw [read]
  split
  · trivial
  · exact .error (List.forall_mem_nil _)

theorem Primitive.yields_integer? (p : Primitive) (c : Cursor) :
    Yields (fun _ => True) (p.integer? c) := by
  cases p with
  | f64 | null | void => trivial
  | _ => exact (c.yields_single _).bind fun _ _ => trivial

/-- The text of a scalar is on one line. -/
theorem Primitive.yields_format (p : Primitive) (c : Cursor) : Yields SingleLine (p.format c) := by
  cases p with
  | bool =>
    refine (c.yields_single 1).bind fun w _ => ?_
    change SingleLine (if w ≠ 0 then "true" else "false")
    split <;> decide
  | u8 | u32 | u64 => exact (c.yields_single _).bind fun w _ => singleLine_toString_nat w
  | i32 | i64 => exact (c.yields_single _).bind fun w _ => singleLine_toString_int _
  | f64 => exact (c.yields_single 8).bind fun w _ => Decimal.singleLine_textOfBits _
  | null => exact (by decide : SingleLine "0x0")
  | void => exact (by decide : SingleLine "void")

namespace Snapshot

/-- The names of all types and fields are on one line. -/
structure NamesOnOneLine (s : Snapshot) : Prop where
  entry : ∀ (id : Nat) (entry : TypeDef), s.entries[id]? = some entry → SingleLine entry.name
  field : ∀ (id : Nat) (name : String) (size : Nat) (fields : List FieldDef),
    s.entries[id]? = some ⟨name,.record size fields⟩ →
    ∀ f ∈ fields, SingleLine f.name ∧ SingleLine f.ty.base

/-- The bytes that a text is read off. -/
def textData (s : Snapshot) (v : RawValue) : Except InspectError (List UInt8) := do
  let header ← s.memory.read v.address textHeaderSize
  let (data, rest) ← (Cursor.ofBytes header v.address).word 8
  let length := min (← rest.single 8) maxTextBytes
  if length = 0 then return []
  s.memory.read (UInt64.ofNat data) length

/-- A text value with a line feed among its bytes. -/
def HoldsLineFeed (s : Snapshot) (v : RawValue) : Prop :=
  v.ty.isPointer = false ∧ (∃ name, s.entries[v.ty.id.toNat]? = some ⟨name,.text⟩) ∧
    ∃ bytes, s.textData v = .ok bytes ∧ 10 ∈ bytes

theorem readText_eq (s : Snapshot) (v : RawValue) :
    s.readText v = Text.Utf8.decodeLossy <$> s.textData v := by
  rw [readText, textData]
  cases s.memory.read v.address textHeaderSize with
  | error e => rfl
  | ok header =>
    dsimp only [bind, Except.bind]
    cases (Cursor.ofBytes header v.address).word 8 with
    | error e => rfl
    | ok p =>
      dsimp only
      cases p.2.single 8 with
      | error e => rfl
      | ok length =>
        dsimp only
        split
        · rfl
        · cases s.memory.read (UInt64.ofNat p.1) (min length maxTextBytes) <;> rfl

section Answers
variable {s : Snapshot} {v : RawValue}

theorem yields_textData : Yields (fun _ => True) (s.textData v) := by
  rw [textData]
  refine (s.memory.yields_read _ _).bind fun header _ => ?_
  refine (Cursor.yields_word _ _).bind fun p _ => ?_
  refine (p.2.yields_single 8).bind fun length _ => ?_
  dsimp only
  split
  · trivial
  · exact s.memory.yields_read _ _

theorem yields_typeDef (hv : SingleLine v.ty.base) :
    Yields (fun entry => s.entries[v.ty.id.toNat]? = some entry) (s.typeDef v.ty) := by
  rw [typeDef]
  cases h : s.entries[v.ty.id.toNat]? with
  | none => exact .error_of_base rfl hv
  | some entry => rfl

theorem yields_readPointer : Yields (fun _ => True) (s.readPointer v) :=
  (s.memory.yields_read _ _).bind fun _ _ => (Cursor.yields_single _ _).bind fun _ _ => trivial

theorem yields_fetch (hv : SingleLine v.ty.base) : Yields (fun _ => True) (s.fetch v) := by
  have hsize : Yields (fun _ => True) (s.sizeOf v.ty) := by
    rw [sizeOf]
    split
    · trivial
    · exact (yields_typeDef hv).bind fun _ _ => trivial
  exact hsize.bind fun _ _ => s.memory.yields_read _ _

/-- A value is shown on one line, unless it is a text with a line feed. -/
theorem yields_formatValue (hv : SingleLine v.ty.base) :
    Yields (fun text => SingleLine text ↔ ¬s.HoldsLineFeed v) (s.formatValue v) := by
  rw [formatValue]
  split
  next hpointer =>
    refine yields_readPointer.bind fun w _ => iff_of_true (singleLine_hexWord w) fun h => ?_
    exact Bool.false_ne_true (h.1.symm.trans hpointer)
  next hpointer =>
    refine (yields_typeDef hv).bind fun entry hentry => ?_
    rcases entry with ⟨name,layout⟩
    have hother : layout ≠ .text → ¬s.HoldsLineFeed v := by
      rintro hlayout ⟨-,⟨name',hentry'⟩,-⟩
      rw [hentry] at hentry'
      cases hentry'
      exact hlayout rfl
    cases layout with
    | primitive p =>
      exact (yields_fetch hv).bind fun bytes _ =>
        (p.yields_format _).mono fun _ htext => iff_of_true htext (hother (by simp))
    | text =>
      change Yields _ (s.readText v)
      rw [readText_eq]
      refine (yields_textData.of_ok fun bytes h => h).bind fun bytes hbytes => ?_
      refine not_congr ((Text.Utf8.lineFeed_mem_decodeLossy_iff bytes).trans ?_)
      refine ⟨fun hmem => ⟨by simpa using hpointer,⟨name,hentry⟩,bytes,hbytes,hmem⟩,?_⟩
      rintro ⟨-,-,bytes',hbytes',hmem⟩
      exact Except.ok.inj (hbytes.symm.trans hbytes') ▸ hmem
    | record => exact (yields_fetch hv).bind fun _ _ => iff_of_true (by decide) (hother (by simp))
    | blob => exact (yields_fetch hv).bind fun _ _ => iff_of_true (by decide) (hother (by simp))

theorem yields_readInteger (hv : SingleLine v.ty.base) :
    Yields (fun _ => True) (s.readInteger v) := by
  have hrefused : Yields (fun _ => True)
      (throw (.notAnInteger v.typeName) : Except InspectError Int64) := .error_of_base rfl hv
  rw [readInteger]
  split
  · exact yields_readPointer.bind fun _ _ => trivial
  · refine (yields_typeDef hv).bind fun entry _ => ?_
    rcases entry with ⟨name,layout⟩
    cases layout with
    | primitive p =>
      refine (yields_fetch hv).bind fun bytes _ => (p.yields_integer? _).bind fun n _ => ?_
      cases n with
      | none => exact hrefused
      | some n => trivial
    | _ => exact hrefused

theorem yields_targetAs (hv : SingleLine v.ty.base) (pointee : TypeDesc) :
    Yields (fun _ => True) (s.targetAs v pointee) := by
  rw [targetAs]
  have hpointer := yields_readPointer (s := s) (v := v)
  cases h : s.readPointer v with
  | error e =>
    rw [h] at hpointer
    exact hpointer
  | ok w =>
    dsimp only
    split
    · exact .error_of_base rfl hv
    · trivial

theorem yields_dereference (hv : SingleLine v.ty.base) :
    Yields (fun target => s.dereference v = .ok target ∧ SingleLine target.ty.base)
      (s.dereference v) := by
  have hfails : Yields (fun _ => True) (s.dereference v) := by
    rw [dereference_eq]
    cases hpointee : v.ty.pointee? with
    | none => exact .error_of_base rfl hv
    | some pointee =>
      dsimp only
      split
      · exact yields_targetAs hv pointee
      · split
        · exact .error_of_base rfl ((TypeDesc.base_of_pointee? hpointee).symm ▸ hv)
        · split
          · exact .error_of_base rfl hv
          · exact yields_targetAs hv pointee
  refine hfails.of_ok fun target htarget => ⟨htarget,?_⟩
  have hpointee := (dereference_eq_ok_iff.mp htarget).2.1
  exact (TypeDesc.base_of_pointee? hpointee).symm ▸ hv

variable (hs : s.NamesOnOneLine)
include hs

theorem singleLine_base_of_lookupType {spelling : String} {ty : TypeDesc}
    (h : s.lookupType spelling = some ty) : SingleLine ty.base := by
  obtain ⟨id,entry,-,hentry,rfl⟩ := lookupType_eq_some_iff.mp h
  rw [TypeDesc.base_pointerTimes]
  exact hs.entry id.toNat entry hentry

theorem yields_readField (hv : SingleLine v.ty.base) {field : String} (hfield : SingleLine field) :
    Yields (fun m => s.HasMember v field m ∧ SingleLine m.ty.base) (s.readField v field) := by
  have hspelling : SingleLine v.typeName := TypeDesc.singleLine_spelling.mpr hv
  have hfails : Yields (fun _ => True) (s.readField v field) := by
    rw [readField_eq]
    split
    · exact .error_of_base rfl hv
    · split
      · exact .error_of_base rfl hv
      · split
        · trivial
        · exact .error (List.forall_mem_cons.mpr ⟨hfield,List.forall_mem_singleton.mpr hspelling⟩)
      · exact .error_of_base rfl hv
  refine hfails.of_ok fun m h => ?_
  have hmember := readField_eq_ok_iff.mp h
  obtain ⟨-,name,size,fields,f,hentry,hfind,rfl⟩ := id hmember
  exact ⟨hmember,(hs.field _ _ _ _ hentry f (List.mem_of_find?_eq_some hfind)).2⟩

theorem yields_fieldNames (hv : SingleLine v.ty.base) :
    Yields (fun names => ∀ name ∈ names, SingleLine name) (s.fieldNames v) := by
  rw [fieldNames]
  split
  · exact List.forall_mem_nil _
  · refine (yields_typeDef hv).bind fun entry hentry => ?_
    rcases entry with ⟨name,layout⟩
    cases layout with
    | record size fields =>
      intro name hname
      obtain ⟨f,hf,rfl⟩ := List.mem_map.mp hname
      exact (hs.field _ _ _ _ hentry f hf).1
    | _ => exact List.forall_mem_nil _

end Answers
end Snapshot
end ValueInspector
