import ValueInspector.Proofs.Snapshot.Words
import ValueInspector.Proofs.Text.Hexadecimal

/-! # Integers as numbers and as texts

A pointer or an integer is read as a number and shown as a text, each in its own way. Both take all
bytes of the value, or fail alike if these are not in one region, and what they give says the same
number. Values of other types are not read as numbers.
-/
namespace ValueInspector

namespace Primitive

/-- The text that the bytes of an integer are shown as. -/
def text (bytes : List UInt8) : Primitive → String
  | .bool => if littleEndian bytes = 0 then "false" else "true"
  | .u64 => toString (littleEndian bytes)
  | p => toString (p.number bytes)

theorem format_eq {p : Primitive} (hp : p.HoldsInteger) {bytes : List UInt8}
    (hbytes : bytes.length = p.size) (address : UInt64) :
    p.format (.ofBytes bytes address) = .ok (p.text bytes) := by
  have hword := Cursor.single_ofBytes hbytes address
  cases p with
  | f64 => exact hp.elim
  | null => exact hp.elim
  | void => exact hp.elim
  | bool =>
    rw [text, ← ite_not]
    exact congrArg (Except.map fun w => if w ≠ 0 then "true" else "false") hword
  | u8 | u32 | u64 => exact congrArg (Except.map fun w : Nat => toString w) hword
  | i32 =>
    change _ = Except.ok (toString (twosComplement bytes))
    rw [← toInt_ofNat32_littleEndian hbytes]
    exact congrArg (Except.map fun w => toString (UInt32.ofNat w).toInt32.toInt) hword
  | i64 =>
    change _ = Except.ok (toString (twosComplement bytes))
    rw [← toInt_ofNat64_littleEndian hbytes]
    exact congrArg (Except.map fun w => toString (UInt64.ofNat w).toInt64.toInt) hword

end Primitive

/-- The text shows what the bytes stand for: an address as `0x` with sixteen digits, anything else as
a scalar. -/
def WordType.Says (bytes : List UInt8) (text : String) : WordType → Prop
  | .pointer => Text.IsHexWord text (littleEndian bytes)
  | .scalar p _ => text = p.text bytes

namespace Snapshot
variable {s : Snapshot} {v : RawValue} {w : WordType} {bytes : List UInt8}

section Stacked
variable (hs : s.memory.Stacked) (hw : s.HasWordType v.ty w)
include hs hw

theorem formatValue_of_shows_word (hbytes : bytes.length = w.size)
    (h : s.memory.Shows v.address bytes) :
    ∃ text, s.formatValue v = .ok text ∧ w.Says bytes text := by
  cases w with
  | pointer =>
    have hlt := littleEndian_lt bytes
    have hhex := Text.isHexWord_hexWord (.ofNat (littleEndian bytes))
    rw [hbytes] at hlt
    rw [UInt64.toNat_ofNat_of_lt' hlt] at hhex
    exact ⟨_,formatValue_of_readPointer hw (readPointer_of_shows hs hbytes h),hhex⟩
  | scalar p hp =>
    obtain ⟨hplain,name,hentry⟩ := hw
    have hread := (hs.read_eq_ok_iff hp.one_le_size).mpr ⟨hbytes,h⟩
    refine ⟨_,?_,rfl⟩
    rw [formatValue_of_primitive hplain hentry, hread]
    exact Primitive.format_eq hp hbytes v.address

theorem formatValue_of_unmapped_word (h : s.memory.Unmapped v.address w.size) :
    s.formatValue v = .error (.unmapped v.address w.size) := by
  cases w with
  | pointer =>
    have hpointer : v.ty.isPointer = true := hw
    rw [formatValue, hpointer, readPointer_of_unmapped hs h]
    rfl
  | scalar p hp =>
    obtain ⟨hplain,name,hentry⟩ := hw
    rw [formatValue_of_primitive hplain hentry,
      (hs.read_eq_error_iff hp.one_le_size).mpr ⟨h,rfl⟩]
    rfl

end Stacked

/-- Only integers are read as such. -/
theorem exists_readInteger_eq_error (h : ∀ w, ¬s.HasWordType v.ty w) :
    ∃ e, s.readInteger v = .error e := by
  have hplain : v.ty.isPointer = false := Bool.eq_false_iff.mpr (h .pointer)
  cases hentry : s.entries[v.ty.id.toNat]? with
  | none =>
    rw [readInteger, hplain, typeDef, hentry]
    exact ⟨_,rfl⟩
  | some entry =>
    rcases entry with ⟨name,layout⟩
    cases layout with
    | primitive p =>
      have hp : ¬p.HoldsInteger := fun hp => h (.scalar p hp) ⟨hplain,name,hentry⟩
      rw [readInteger_of_primitive hplain hentry]
      cases s.memory.read v.address p.size with
      | error e => exact ⟨e,rfl⟩
      | ok bytes =>
        cases p with
        | f64 | null | void => exact ⟨_,rfl⟩
        | _ => exact absurd trivial hp
    | _ =>
      rw [readInteger, hplain, typeDef, hentry]
      exact ⟨_,rfl⟩

end Snapshot

namespace Construction

/-- A pointer or an integer is read as a number, and shown as a text, exactly if one region has all of
its bytes (at the last address, where regions can overlap, the region that is found there); otherwise
both fail for just these bytes. The number is what the bytes stand for and the text shows it. No other
value is read as a number. -/
theorem integers_read_alike (steps : List BuilderStep) (v : RawValue) :
    let s := (ofSteps steps).builder.snapshot
    (∀ w, s.HasWordType v.ty w →
      ((∃ n, s.readInteger v = .ok n) ↔ s.memory.Covers v.address w.size) ∧
      ((∃ text, s.formatValue v = .ok text) ↔ s.memory.Covers v.address w.size) ∧
      (¬s.memory.Covers v.address w.size →
        s.readInteger v = .error (.unmapped v.address w.size) ∧
          s.formatValue v = .error (.unmapped v.address w.size)) ∧
      ∀ bytes, bytes.length = w.size → s.memory.Shows v.address bytes →
        ∃ n text, s.readInteger v = .ok n ∧ s.formatValue v = .ok text ∧
          n.toInt = w.number bytes ∧ w.Says bytes text) ∧
    ((∀ w, ¬s.HasWordType v.ty w) → ∃ e, s.readInteger v = .error e) := by
  intro s
  have hs : s.memory.Stacked := stacked_ofSteps steps
  refine ⟨fun w hw => ?_,Snapshot.exists_readInteger_eq_error⟩
  have hshown : ∀ bytes, bytes.length = w.size → s.memory.Shows v.address bytes →
      ∃ n text, s.readInteger v = .ok n ∧ s.formatValue v = .ok text ∧
        n.toInt = w.number bytes ∧ w.Says bytes text := by
    intro bytes hbytes h
    obtain ⟨n,hn,hnumber⟩ := Snapshot.readInteger_of_shows hs hw hbytes h
    obtain ⟨text,htext,htold⟩ := Snapshot.formatValue_of_shows_word hs hw hbytes h
    exact ⟨n,text,hn,htext,hnumber,htold⟩
  have hmissing : ¬s.memory.Covers v.address w.size →
      s.readInteger v = .error (.unmapped v.address w.size) ∧
        s.formatValue v = .error (.unmapped v.address w.size) := by
    intro h
    have hnone := (Memory.not_covers_iff w.one_le_size).mp h
    exact ⟨Snapshot.readInteger_of_unmapped hs hw hnone,
      Snapshot.formatValue_of_unmapped_word hs hw hnone⟩
  by_cases hcovers : s.memory.Covers v.address w.size
  · obtain ⟨bytes,hbytes,h⟩ := (Memory.covers_iff w.one_le_size).mp hcovers
    obtain ⟨n,text,hn,htext,_⟩ := hshown bytes hbytes h
    exact ⟨iff_of_true ⟨n,hn⟩ hcovers,iff_of_true ⟨text,htext⟩ hcovers,hmissing,hshown⟩
  · obtain ⟨hnumber,htext⟩ := hmissing hcovers
    refine ⟨iff_of_false ?_ hcovers,iff_of_false ?_ hcovers,hmissing,hshown⟩
    · rintro ⟨n,hn⟩
      cases hnumber.symm.trans hn
    · rintro ⟨text,h⟩
      cases htext.symm.trans h

/-- A signed number of four bytes, and bytes behind it. -/
def negativeSteps : List BuilderStep :=
  [.type (.primitive "int" .i32),.memory (.map 4096 #[249,255,255,255,1,1])]

theorem integers_read_alike_negative :
    (ofSteps negativeSteps).builder.snapshot.readInteger ⟨4096,.plain 0 "int"⟩ = .ok (-7) ∧
      (ofSteps negativeSteps).builder.snapshot.formatValue ⟨4096,.plain 0 "int"⟩ = .ok "-7" := by
  have hint : (ofSteps negativeSteps).builder.snapshot.HasWordType (.plain 0 "int")
    (.scalar .i32 trivial) := ⟨rfl,"int",by decide +kernel⟩
  have hshown : (ofSteps negativeSteps).builder.snapshot.memory.Shows 4096 [249,255,255,255] := by
    decide +kernel
  obtain ⟨n,text,hn,htext,hnumber,htold⟩ :=
    ((integers_read_alike negativeSteps ⟨4096,.plain 0 "int"⟩).1 _ hint).2.2.2 _ rfl hshown
  have hseven : n = -7 := Int64.toInt_inj.mp (hnumber.trans (by decide))
  have hshownText : text = "-7" := Eq.trans htold (by decide)
  exact ⟨hseven ▸ hn,hshownText ▸ htext⟩

/-- One byte at the last address, where an empty region is mapped after it. -/
def hiddenByteSteps : List BuilderStep :=
  [.type (.primitive "byte" .u8),.memory (.map 0xffffffffffffffff #[97]),
    .memory (.map 0xffffffffffffffff #[])]

/-- The byte lies in a region, and is neither read nor shown. -/
theorem readInteger_hidden :
    (ofSteps hiddenByteSteps).builder.snapshot.HasWordType (.plain 0 "byte")
        (.scalar .u8 trivial) ∧
      (∃ r ∈ (ofSteps hiddenByteSteps).builder.snapshot.memory.regions.toList,
        r.start.toNat + r.size ≤ UInt64.size ∧ r.Holds 0xffffffffffffffff [97]) ∧
      (ofSteps hiddenByteSteps).builder.snapshot.readInteger
        ⟨0xffffffffffffffff,.plain 0 "byte"⟩ = .error (.unmapped 0xffffffffffffffff 1) ∧
      (ofSteps hiddenByteSteps).builder.snapshot.formatValue
        ⟨0xffffffffffffffff,.plain 0 "byte"⟩ = .error (.unmapped 0xffffffffffffffff 1) :=
  ⟨⟨rfl,"byte",by decide +kernel⟩,by decide +kernel,by decide +kernel,by decide +kernel⟩

end Construction
end ValueInspector
