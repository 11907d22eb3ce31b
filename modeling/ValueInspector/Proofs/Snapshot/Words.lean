import ValueInspector.Proofs.Memory.Contents
import ValueInspector.Proofs.Snapshot.Reading

/-! # Words that a memory shows

A word is zero exactly if all of its bytes are. A pointer is read as the word at its location and an
integer as the number that its bytes stand for, or the read fails for the whole range.
-/
namespace ValueInspector

theorem littleEndian_lt (bytes : List UInt8) : littleEndian bytes < Nat.pow 256 bytes.length := by
  induction bytes with
  | nil => exact Nat.zero_lt_one
  | cons b rest ih =>
    have hb := b.toNat_lt
    have hpow : Nat.pow 256 (rest.length + 1) = Nat.pow 256 rest.length * 256 := rfl
    rw [littleEndian, List.length_cons, hpow]
    omega

theorem littleEndian_eq_zero_iff {bytes : List UInt8} :
    littleEndian bytes = 0 ↔ ∀ b ∈ bytes, b = 0 := by
  induction bytes with
  | nil => exact iff_of_true rfl (List.forall_mem_nil _)
  | cons b rest ih =>
    rw [littleEndian, List.forall_mem_cons, ← ih, ← UInt8.toNat_inj, UInt8.toNat_zero]
    omega

theorem Memory.shows_or_unmapped (m : Memory) (address : UInt64) (length : Nat) :
    (∃ bytes, bytes.length = length ∧ m.Shows address bytes) ∨ m.Unmapped address length := by
  by_cases h : ∃ bytes, bytes.length = length ∧ m.Shows address bytes
  · exact .inl h
  · exact .inr fun bytes hbytes hshown => h ⟨bytes,hbytes,hshown⟩

/-- The number that bytes stand for in two's complement. -/
def twosComplement (bytes : List UInt8) : Int :=
  if 2 * littleEndian bytes < Nat.pow 256 bytes.length then littleEndian bytes
  else littleEndian bytes - Nat.pow 256 bytes.length

section Signed
variable {bytes : List UInt8}

theorem twosComplement_eq_zero_iff : twosComplement bytes = 0 ↔ littleEndian bytes = 0 := by
  have hlt := littleEndian_lt bytes
  rw [twosComplement]
  split <;> omega

theorem toInt_ofNat32_littleEndian (h : bytes.length = 4) :
    (UInt32.ofNat (littleEndian bytes)).toInt32.toInt = twosComplement bytes := by
  have hlt := littleEndian_lt bytes
  have hsigned := BitVec.toInt_eq_toNat_cond (UInt32.ofNat (littleEndian bytes)).toBitVec
  rw [h] at hlt
  rw [UInt32.toNat_toBitVec, UInt32.toNat_ofNat_of_lt' hlt] at hsigned
  rw [twosComplement, h]
  exact hsigned

theorem toInt_ofNat64_littleEndian (h : bytes.length = 8) :
    (UInt64.ofNat (littleEndian bytes)).toInt64.toInt = twosComplement bytes := by
  have hlt := littleEndian_lt bytes
  have hsigned := BitVec.toInt_eq_toNat_cond (UInt64.ofNat (littleEndian bytes)).toBitVec
  rw [h] at hlt
  rw [UInt64.toNat_toBitVec, UInt64.toNat_ofNat_of_lt' hlt] at hsigned
  rw [twosComplement, h]
  exact hsigned

/-- A word is null exactly if all of its bytes are zero. -/
theorem ofNat_littleEndian_eq_zero_iff (hbytes : bytes.length = 8) :
    UInt64.ofNat (littleEndian bytes) = 0 ↔ ∀ b ∈ bytes, b = 0 := by
  have hlt := littleEndian_lt bytes
  rw [hbytes] at hlt
  rw [← UInt64.toNat_inj, UInt64.toNat_ofNat_of_lt' hlt, UInt64.toNat_zero,
    littleEndian_eq_zero_iff]

end Signed

namespace Primitive

/-- Scalars that hold an integer. -/
def HoldsInteger : Primitive → Prop
  | .f64 | .null | .void => False
  | _ => True

theorem HoldsInteger.one_le_size {p : Primitive} (hp : p.HoldsInteger) : 1 ≤ p.size := by
  cases p with
  | void => exact hp.elim
  | _ => decide

/-- The number that the bytes of a scalar are read as. One of 64 bits without a sign is passed on as
one of 64 bits with a sign. -/
def number (bytes : List UInt8) : Primitive → Int
  | .i32 | .i64 | .u64 => twosComplement bytes
  | _ => littleEndian bytes

theorem number_eq_zero_iff (p : Primitive) {bytes : List UInt8} :
    p.number bytes = 0 ↔ ∀ b ∈ bytes, b = 0 := by
  rw [← littleEndian_eq_zero_iff]
  cases p with
  | i32 | i64 | u64 => exact twosComplement_eq_zero_iff
  | _ => exact Int.natCast_eq_zero

theorem exists_integer?_eq {p : Primitive} (hp : p.HoldsInteger) {bytes : List UInt8}
    (hbytes : bytes.length = p.size) (address : UInt64) :
    ∃ n, p.integer? (.ofBytes bytes address) = .ok (some n) ∧ n.toInt = p.number bytes := by
  have hlt := littleEndian_lt bytes
  have hword := Cursor.single_ofBytes hbytes address
  rw [hbytes] at hlt
  cases p with
  | f64 => exact hp.elim
  | null => exact hp.elim
  | void => exact hp.elim
  | bool | u8 =>
    exact ⟨.ofNat (littleEndian bytes),congrArg (Except.map fun w => some (Int64.ofNat w)) hword,
      Int64.toInt_ofNat_of_lt (Nat.lt_trans hlt (by decide))⟩
  | i32 =>
    exact ⟨(UInt32.ofNat (littleEndian bytes)).toInt32.toInt64,
      congrArg (Except.map fun w => some (UInt32.ofNat w).toInt32.toInt64) hword,
      (Int32.toInt_toInt64 _).trans (toInt_ofNat32_littleEndian hbytes)⟩
  | u32 =>
    exact ⟨.ofNat (littleEndian bytes),congrArg (Except.map fun w => some (Int64.ofNat w)) hword,
      Int64.toInt_ofNat_of_lt (Nat.lt_trans hlt (by decide))⟩
  | i64 | u64 =>
    exact ⟨(UInt64.ofNat (littleEndian bytes)).toInt64,
      congrArg (Except.map fun w => some (UInt64.ofNat w).toInt64) hword,
      toInt_ofNat64_littleEndian hbytes⟩

end Primitive

/-- Types of integers: pointers, and the scalars that hold one. -/
inductive WordType where
  | pointer
  | scalar (p : Primitive) (hp : p.HoldsInteger)

namespace WordType

/-- Width in bytes. -/
def size : WordType → Nat
  | .pointer => pointerSize
  | .scalar p _ => p.size

theorem one_le_size (w : WordType) : 1 ≤ w.size := by
  cases w with
  | pointer => decide
  | scalar p hp => exact hp.one_le_size

/-- The number that the bytes are read as. An address is passed on as a number of 64 bits with a
sign. -/
def number (bytes : List UInt8) : WordType → Int
  | .pointer => twosComplement bytes
  | .scalar p _ => p.number bytes

end WordType

namespace Snapshot
variable {s : Snapshot} {v : RawValue} {w : WordType} {bytes : List UInt8} {width : Nat}

/-- Values of the type are integers of one kind. -/
def HasWordType (s : Snapshot) (ty : TypeDesc) : WordType → Prop
  | .pointer => ty.isPointer = true
  | .scalar p _ => ty.isPointer = false ∧ ∃ name, s.entries[ty.id.toNat]? = some ⟨name,.primitive p⟩

/-- Values of the type are integers of some number of bytes. -/
def IsInteger (s : Snapshot) (ty : TypeDesc) (width : Nat) : Prop :=
  ty.isPointer = false ∧ ∃ name p, s.entries[ty.id.toNat]? = some ⟨name,.primitive p⟩ ∧
    p.HoldsInteger ∧ p.size = width

theorem IsInteger.exists_hasWordType {ty : TypeDesc} (h : s.IsInteger ty width) :
    ∃ p hp, s.HasWordType ty (.scalar p hp) ∧ p.size = width := by
  obtain ⟨hplain,name,p,hentry,hp,hsize⟩ := h
  exact ⟨p,hp,⟨hplain,name,hentry⟩,hsize⟩

section Stacked
variable (hs : s.memory.Stacked)
include hs

theorem readPointer_of_shows (hbytes : bytes.length = 8) (h : s.memory.Shows v.address bytes) :
    s.readPointer v = .ok (.ofNat (littleEndian bytes)) := by
  have hread := (hs.read_eq_ok_iff (by decide)).mpr ⟨hbytes,h⟩
  rw [readPointer, pointerSize, hread]
  exact congrArg (Except.map UInt64.ofNat) (Cursor.single_ofBytes hbytes v.address)

theorem readPointer_of_unmapped (h : s.memory.Unmapped v.address 8) :
    s.readPointer v = .error (.unmapped v.address 8) := by
  rw [readPointer, pointerSize, (hs.read_eq_error_iff (by decide)).mpr ⟨h,rfl⟩]
  rfl

theorem readInteger_of_shows (hw : s.HasWordType v.ty w) (hbytes : bytes.length = w.size)
    (h : s.memory.Shows v.address bytes) :
    ∃ n, s.readInteger v = .ok n ∧ n.toInt = w.number bytes := by
  cases w with
  | pointer =>
    exact ⟨_,readInteger_of_readPointer hw (readPointer_of_shows hs hbytes h),
      toInt_ofNat64_littleEndian hbytes⟩
  | scalar p hp =>
    obtain ⟨hplain,name,hentry⟩ := hw
    obtain ⟨n,hn,hnumber⟩ := Primitive.exists_integer?_eq hp hbytes v.address
    have hread := (hs.read_eq_ok_iff hp.one_le_size).mpr ⟨hbytes,h⟩
    refine ⟨n,?_,hnumber⟩
    rw [readInteger_of_primitive hplain hentry, hread]
    change (p.integer? (.ofBytes bytes v.address) >>= _) = _
    rw [hn]
    rfl

theorem readInteger_of_unmapped (hw : s.HasWordType v.ty w)
    (h : s.memory.Unmapped v.address w.size) :
    s.readInteger v = .error (.unmapped v.address w.size) := by
  cases w with
  | pointer =>
    have hplain : v.ty.isPointer = true := hw
    rw [readInteger, hplain, readPointer_of_unmapped hs h]
    rfl
  | scalar p hp =>
    obtain ⟨hplain,name,hentry⟩ := hw
    rw [readInteger_of_primitive hplain hentry, (hs.read_eq_error_iff hp.one_le_size).mpr ⟨h,rfl⟩]
    rfl

/-- The integer is zero exactly if all bytes are. -/
theorem IsInteger.readInteger_of_shows (hv : s.IsInteger v.ty width)
    (hbytes : bytes.length = width) (h : s.memory.Shows v.address bytes) :
    ∃ n, s.readInteger v = .ok n ∧ (n = 0 ↔ ∀ b ∈ bytes, b = 0) := by
  obtain ⟨p,hp,hw,rfl⟩ := hv.exists_hasWordType
  obtain ⟨n,hn,hnumber⟩ := Snapshot.readInteger_of_shows hs hw hbytes h
  refine ⟨n,hn,?_⟩
  rw [← p.number_eq_zero_iff, ← Int64.toInt_inj, hnumber]
  exact Iff.rfl

theorem IsInteger.readInteger_of_unmapped (hv : s.IsInteger v.ty width)
    (h : s.memory.Unmapped v.address width) :
    s.readInteger v = .error (.unmapped v.address width) := by
  obtain ⟨p,hp,hw,rfl⟩ := hv.exists_hasWordType
  exact Snapshot.readInteger_of_unmapped hs hw h

end Stacked
end Snapshot
end ValueInspector
