import ValueInspector.Proofs.Snapshot.Integers
import ValueInspector.Proofs.Snapshot.Texts

/-! # What failed reads report

Each value needs a range of memory, and a text one more, for its bytes. What is fetched is always as
long as what is then taken from it, so a read fails for a range exactly if the value needs that range
and no region has it.
-/
namespace ValueInspector

theorem ne_error_of_eq_ok {ε α : Type} {x : Except ε α} {e : ε} (h : ∃ a, x = .ok a) :
    x ≠ .error e := by
  obtain ⟨a,rfl⟩ := h
  intro he
  cases he

/-- What does not come from the rest of a computation comes from its first step. -/
theorem bind_eq_error_iff {ε α β : Type} {x : Except ε α} {f : α → Except ε β} {e : ε}
    (hf : ∀ a, x = .ok a → f a ≠ .error e) : x >>= f = .error e ↔ x = .error e := by
  cases x with
  | error e' => exact (Except.error.injEq e' e).to_iff.trans (Except.error.injEq e' e).to_iff.symm
  | ok a => exact iff_of_false (hf a rfl) (ne_error_of_eq_ok ⟨a,rfl⟩)

/-- Sixteen bytes are a header, whatever they are. -/
theorem exists_eq_textHeader {header : List UInt8} (h : header.length = textHeaderSize) :
    ∃ data length, header = textHeader data length := by
  have hword : ∀ {word : List UInt8}, word.length = 8 →
      toLittleEndian 8 (UInt64.ofNat (littleEndian word)).toNat = word := by
    intro word hlength
    have hlt := littleEndian_lt word
    rw [hlength] at hlt
    rw [UInt64.toNat_ofNat_of_lt' hlt, ← hlength, toLittleEndian_littleEndian]
  have hfront : (header.take 8).length = 8 := by
    rw [List.length_take, h, textHeaderSize]
    rfl
  have hback : (header.drop 8).length = 8 := by
    rw [List.length_drop, h, textHeaderSize]
  refine ⟨.ofNat (littleEndian (header.take 8)),.ofNat (littleEndian (header.drop 8)),?_⟩
  rw [textHeader, hword hfront, hword hback, List.take_append_drop]

namespace Primitive
variable {p : Primitive} {bytes : List UInt8} (hbytes : bytes.length = p.size) (address : UInt64)
include hbytes

theorem exists_integer?_eq_ok : ∃ n, p.integer? (.ofBytes bytes address) = .ok n := by
  by_cases hp : p.HoldsInteger
  · obtain ⟨n,hn,_⟩ := exists_integer?_eq hp hbytes address
    exact ⟨some n,hn⟩
  · cases p with
    | f64 | null | void => exact ⟨none,rfl⟩
    | _ => exact absurd trivial hp

theorem exists_format_eq_ok : ∃ text, p.format (.ofBytes bytes address) = .ok text := by
  by_cases hp : p.HoldsInteger
  · exact ⟨_,format_eq hp hbytes address⟩
  · cases p with
    | f64 =>
      exact ⟨_,congrArg (Except.map fun w => Decimal.textOfBits (.ofNat w))
        (Cursor.single_ofBytes hbytes address)⟩
    | null => exact ⟨"0x0",rfl⟩
    | void => exact ⟨"void",rfl⟩
    | _ => exact absurd trivial hp

end Primitive

namespace Snapshot
variable {s : Snapshot} {v : RawValue} {address : UInt64} {length : Nat}

/-- The range that a value takes up. -/
def TakesUp (s : Snapshot) (v : RawValue) (address : UInt64) (length : Nat) : Prop :=
  address = v.address ∧ s.sizeOf v.ty = .ok length

/-- The ranges that a value is shown from: its own, and that of the bytes of a text, as far as they are
read. -/
inductive ShownFrom (s : Snapshot) (v : RawValue) : UInt64 → Nat → Prop
  | whole {address : UInt64} {length : Nat} (h : s.TakesUp v address length) :
    ShownFrom s v address length
  | data {data length : UInt64} (hty : s.IsText v.ty)
    (hheader : s.memory.Shows v.address (textHeader data length)) (hpos : 1 ≤ length.toNat) :
    ShownFrom s v data (min length.toNat maxTextBytes)

/-- Values of the type are pointers or scalars. -/
def IsScalar (s : Snapshot) (ty : TypeDesc) : Prop :=
  ty.isPointer = true ∨ ∃ name p, s.entries[ty.id.toNat]? = some ⟨name,.primitive p⟩

/-- All words that are taken from the bytes fetched for a value are there. -/
structure FetchesEnough (s : Snapshot) (v : RawValue) : Prop where
  pointer : ∀ bytes, s.memory.read v.address pointerSize = .ok bytes →
    ∃ w, (Cursor.ofBytes bytes v.address).single 8 = .ok w
  header : ∀ bytes, s.memory.read v.address textHeaderSize = .ok bytes →
    ∃ data rest length, (Cursor.ofBytes bytes v.address).word 8 = .ok (data,rest) ∧
      rest.single 8 = .ok length
  number : v.ty.isPointer = false → ∀ name p, s.entries[v.ty.id.toNat]? = some ⟨name,.primitive p⟩ →
    ∀ bytes, s.fetch v = .ok bytes → ∃ n, p.integer? (.ofBytes bytes v.address) = .ok n
  scalar : v.ty.isPointer = false → ∀ name p, s.entries[v.ty.id.toNat]? = some ⟨name,.primitive p⟩ →
    ∀ bytes, s.fetch v = .ok bytes → ∃ text, p.format (.ofBytes bytes v.address) = .ok text

theorem fetchesEnough (h : s.memory.Indexed) (v : RawValue) : s.FetchesEnough v where
  pointer bytes hread := ⟨_,Cursor.single_ofBytes (h.length_of_read hread) v.address⟩
  header bytes hread := by
    obtain ⟨data,length,rfl⟩ := exists_eq_textHeader (h.length_of_read hread)
    exact ⟨_,_,_,Cursor.word_textHeader data length v.address,Cursor.single_toLittleEndian _ _⟩
  number hplain name p hentry bytes hfetch := by
    rw [fetch_of_layout hplain hentry] at hfetch
    exact Primitive.exists_integer?_eq_ok (h.length_of_read hfetch) v.address
  scalar hplain name p hentry bytes hfetch := by
    rw [fetch_of_layout hplain hentry] at hfetch
    exact Primitive.exists_format_eq_ok (h.length_of_read hfetch) v.address

theorem sizeOf_ne_unmapped (ty : TypeDesc) : s.sizeOf ty ≠ .error (.unmapped address length) := by
  rw [sizeOf, typeDef]
  intro h
  cases hplain : ty.isPointer with
  | true =>
    rw [hplain] at h
    cases h
  | false =>
    rw [hplain] at h
    cases hentry : s.entries[ty.id.toNat]? with
    | none =>
      rw [hentry] at h
      cases h
    | some entry =>
      rw [hentry] at h
      cases h

theorem readPointer_eq_error_iff (h : s.memory.Indexed) {e : InspectError} :
    s.readPointer v = .error e ↔ s.memory.read v.address pointerSize = .error e := by
  rw [readPointer]
  refine bind_eq_error_iff fun bytes hread => ?_
  obtain ⟨w,hw⟩ := (fetchesEnough h v).pointer bytes hread
  exact ne_error_of_eq_ok ⟨.ofNat w,congrArg (Except.map UInt64.ofNat) hw⟩

/-- A text is the only value of which more is read than what it takes up. -/
theorem formatValue_eq_fetch_error_iff (h : s.memory.Indexed) (hv : ¬s.IsText v.ty)
    {e : InspectError} : s.formatValue v = .error e ↔ s.fetch v = .error e := by
  cases hplain : v.ty.isPointer with
  | true =>
    rw [fetch_of_isPointer hplain, ← readPointer_eq_error_iff h, formatValue, hplain]
    exact bind_eq_error_iff fun w _ => ne_error_of_eq_ok ⟨Text.hexWord w,rfl⟩
  | false =>
    cases hentry : s.entries[v.ty.id.toNat]? with
    | none =>
      have hshown : s.formatValue v = .error (.unknownTypeId v.ty.id v.ty.spelling) := by
        rw [formatValue, hplain, typeDef, hentry]
        rfl
      have hfetch : s.fetch v = .error (.unknownTypeId v.ty.id v.ty.spelling) := by
        rw [fetch, sizeOf, hplain, typeDef, hentry]
        rfl
      rw [hshown, hfetch, Except.error.injEq, Except.error.injEq]
    | some entry =>
      rcases entry with ⟨name,layout⟩
      cases layout with
      | primitive p =>
        have hfetch : s.fetch v = s.memory.read v.address p.size := fetch_of_layout hplain hentry
        rw [formatValue_of_primitive hplain hentry, ← hfetch]
        refine bind_eq_error_iff fun bytes hbytes => ?_
        exact ne_error_of_eq_ok ((fetchesEnough h v).scalar hplain name p hentry bytes hbytes)
      | text => exact absurd ⟨hplain,name,hentry⟩ hv
      | record | blob =>
        have hshown : s.formatValue v = s.fetch v >>= fun _ => .ok "\x7b...\x7d" := by
          rw [formatValue, hplain, typeDef, hentry]
          rfl
        rw [hshown]
        exact bind_eq_error_iff fun bytes _ => ne_error_of_eq_ok ⟨"\x7b...\x7d",rfl⟩

/-- The type decides that nothing is read. -/
theorem readInteger_ne_unmapped (hscalar : ¬s.IsScalar v.ty) :
    s.readInteger v ≠ .error (.unmapped address length) := by
  have hplain : v.ty.isPointer = false := Bool.eq_false_iff.mpr fun h => hscalar (.inl h)
  intro h
  rw [readInteger, hplain, typeDef] at h
  cases hentry : s.entries[v.ty.id.toNat]? with
  | none =>
    rw [hentry] at h
    cases h
  | some entry =>
    rcases entry with ⟨name,layout⟩
    rw [hentry] at h
    cases layout with
    | primitive p => exact hscalar (.inr ⟨name,p,hentry⟩)
    | _ => cases h

theorem targetAs_eq_unmapped_iff {pointee : TypeDesc} :
    s.targetAs v pointee = .error (.unmapped address length) ↔
      s.readPointer v = .error (.unmapped address length) := by
  rw [targetAs]
  cases s.readPointer v with
  | error e => exact (Except.error.injEq _ _).to_iff.trans (Except.error.injEq _ _).to_iff.symm
  | ok w =>
    refine iff_of_false (fun h => ?_) (ne_error_of_eq_ok ⟨w,rfl⟩)
    dsimp only at h
    split at h
    · cases h
    · cases h

section Laid
variable (hm : s.memory.Laid)
include hm

theorem fetch_eq_unmapped_iff : s.fetch v = .error (.unmapped address length) ↔
    s.TakesUp v address length ∧ s.memory.Lacks address length := by
  rw [fetch, TakesUp]
  cases hty : s.sizeOf v.ty with
  | error e =>
    refine iff_of_false (fun h => ?_) ?_
    · obtain rfl := Except.error.inj h
      exact sizeOf_ne_unmapped v.ty hty
    · rintro ⟨⟨_,hsize⟩,_⟩
      cases hsize
  | ok size =>
    change s.memory.read v.address size = _ ↔ _
    rw [hm.read_eq_error_iff, InspectError.unmapped.injEq, Except.ok.injEq]
    constructor
    · rintro ⟨hnone,rfl,rfl⟩
      exact ⟨⟨rfl,rfl⟩,hnone⟩
    · rintro ⟨⟨rfl,rfl⟩,hnone⟩
      exact ⟨hnone,rfl,rfl⟩

theorem textData_eq_unmapped_iff (hty : s.IsText v.ty) :
    s.textData v = .error (.unmapped address length) ↔
      s.ShownFrom v address length ∧ s.memory.Lacks address length := by
  have hsize : s.sizeOf v.ty = .ok textHeaderSize := by
    obtain ⟨hplain,name,hentry⟩ := hty
    rw [sizeOf, hplain, typeDef, hentry]
    rfl
  have hheader : ∀ e, s.memory.read v.address textHeaderSize = .error e →
      s.textData v = .error e := by
    intro e he
    rw [textData, he]
    rfl
  constructor
  · intro h
    cases hread : s.memory.read v.address textHeaderSize with
    | error e =>
      obtain ⟨hnone,rfl⟩ := hm.read_eq_error_iff.mp hread
      cases (hheader _ hread).symm.trans h
      exact ⟨.whole ⟨rfl,hsize⟩,hnone⟩
    | ok header =>
      obtain ⟨hlength,hshown⟩ := (hm.stacked.read_eq_ok_iff (by decide)).mp hread
      obtain ⟨data,count,rfl⟩ := exists_eq_textHeader hlength
      rw [textData_of_header hm.stacked hshown] at h
      by_cases hzero : count.toNat = 0
      · rw [if_pos hzero] at h
        cases h
      · rw [if_neg hzero, hm.read_eq_error_iff] at h
        obtain ⟨hnone,herror⟩ := h
        cases herror
        exact ⟨.data hty hshown (Nat.one_le_iff_ne_zero.mpr hzero),hnone⟩
  · rintro ⟨hshown,hnone⟩
    have hread := hm.read_eq_error_iff.mpr ⟨hnone,rfl⟩
    cases hshown with
    | whole h =>
      obtain ⟨rfl,hwhole⟩ := h
      cases hsize.symm.trans hwhole
      exact hheader _ hread
    | data _ hshown hpos =>
      rw [textData_of_header hm.stacked hshown, if_neg (Nat.ne_of_gt hpos), hread]

theorem formatValue_eq_unmapped_iff : s.formatValue v = .error (.unmapped address length) ↔
    s.ShownFrom v address length ∧ s.memory.Lacks address length := by
  by_cases hty : s.IsText v.ty
  · rw [formatValue_of_isText hty, ← textData_eq_unmapped_iff hm hty]
    exact bind_eq_error_iff fun bytes _ => ne_error_of_eq_ok ⟨Text.Utf8.decodeLossy bytes,rfl⟩
  · rw [formatValue_eq_fetch_error_iff hm.toIndexed hty, fetch_eq_unmapped_iff hm]
    refine and_congr_left fun _ => ⟨.whole,fun h => ?_⟩
    cases h with
    | whole h => exact h
    | data hdata => exact absurd hdata hty

theorem readPointer_eq_unmapped_iff (hv : v.ty.isPointer = true) :
    s.readPointer v = .error (.unmapped address length) ↔
      s.TakesUp v address length ∧ s.memory.Lacks address length := by
  rw [readPointer_eq_error_iff hm.toIndexed, ← fetch_of_isPointer hv, fetch_eq_unmapped_iff hm]

theorem readInteger_eq_unmapped_iff : s.readInteger v = .error (.unmapped address length) ↔
    s.IsScalar v.ty ∧ s.TakesUp v address length ∧ s.memory.Lacks address length := by
  by_cases hscalar : s.IsScalar v.ty
  · rw [and_iff_right hscalar]
    cases hplain : v.ty.isPointer with
    | true =>
      rw [← readPointer_eq_unmapped_iff hm hplain, readInteger, hplain]
      exact bind_eq_error_iff fun w _ => ne_error_of_eq_ok ⟨w.toInt64,rfl⟩
    | false =>
      obtain ⟨name,p,hentry⟩ := hscalar.resolve_left (ne_true_of_eq_false hplain)
      have hfetch : s.fetch v = s.memory.read v.address p.size := fetch_of_layout hplain hentry
      rw [← fetch_eq_unmapped_iff hm, readInteger_of_primitive hplain hentry, ← hfetch]
      refine bind_eq_error_iff fun bytes hbytes hfailed => ?_
      obtain ⟨n,hn⟩ := (fetchesEnough hm.toIndexed v).number hplain name p hentry bytes hbytes
      rw [hn] at hfailed
      cases n with
      | none => cases hfailed
      | some n => cases hfailed
  · exact iff_of_false (readInteger_ne_unmapped hscalar) fun h => hscalar h.1

/-- The type of a pointer is looked at first, and the word that it holds is all that is read. -/
theorem dereference_eq_unmapped_iff : s.dereference v = .error (.unmapped address length) ↔
    s.HasTarget v.ty ∧ s.TakesUp v address length ∧ s.memory.Lacks address length := by
  have htarget : ∀ pointee, v.ty.pointee? = some pointee →
      (s.targetAs v pointee = .error (.unmapped address length) ↔
        s.TakesUp v address length ∧ s.memory.Lacks address length) := by
    intro pointee hpointee
    rw [targetAs_eq_unmapped_iff]
    exact readPointer_eq_unmapped_iff hm (TypeDesc.isPointer_of_pointee? hpointee)
  rw [dereference_eq, HasTarget]
  cases hpointee : v.ty.pointee? with
  | none => simp
  | some pointee =>
    cases hplain : pointee.isPointer with
    | true => simp [hplain, htarget pointee hpointee]
    | false =>
      cases hentry : s.entries[pointee.id.toNat]? with
      | none => simp [hplain, hentry]
      | some entry =>
        by_cases hvoid : entry.layout = .primitive .void
        · simp [hplain, hentry, hvoid]
        · simp [hplain, hentry, hvoid, htarget pointee hpointee]

end Laid
end Snapshot

namespace Construction

/-- Where all regions end before the last address, a value is not shown, not read as a number, or not
followed, for the reason that a range is not mapped, exactly if the operation needs that range and no
region has all of it. So the reason is never that too few bytes were fetched, and the search for a
region ends at one. -/
theorem reads_fail_for_needed_ranges (steps : List BuilderStep)
    (hfits : ∀ r ∈ (ofSteps steps).builder.snapshot.memory.regions.toList, r.Fits)
    (v : RawValue) (address : UInt64) (length : Nat) :
    let s := (ofSteps steps).builder.snapshot
    (s.formatValue v = .error (.unmapped address length) ↔
      s.ShownFrom v address length ∧ s.memory.Lacks address length) ∧
    (s.readInteger v = .error (.unmapped address length) ↔
      s.IsScalar v.ty ∧ s.TakesUp v address length ∧ s.memory.Lacks address length) ∧
    (s.dereference v = .error (.unmapped address length) ↔
      s.HasTarget v.ty ∧ s.TakesUp v address length ∧ s.memory.Lacks address length) ∧
    s.FetchesEnough v ∧ s.memory.SearchesInside := by
  intro s
  have hm : s.memory.Laid := (stacked_ofSteps steps).laid hfits
  exact ⟨Snapshot.formatValue_eq_unmapped_iff hm,Snapshot.readInteger_eq_unmapped_iff hm,
    Snapshot.dereference_eq_unmapped_iff hm,Snapshot.fetchesEnough hm.toIndexed v,
    hm.toIndexed.searchesInside⟩

/-- The header of a long text, and only some of its bytes. -/
def partlyMappedSteps : List BuilderStep :=
  [.type (.define "std::string" .text),.memory (.map 4096 (textHeader 8192 70000).toArray),
    .memory (.map 8192 #[97,98,99])]

/-- Of a longer text 65536 bytes are needed. -/
theorem reads_fail_for_needed_ranges_text :
    (ofSteps partlyMappedSteps).builder.snapshot.formatValue ⟨4096,.plain 0 "std::string"⟩ =
      .error (.unmapped 8192 65536) := by
  have hfits : ∀ r ∈ (ofSteps partlyMappedSteps).builder.snapshot.memory.regions.toList,
      r.Fits := by
    decide +kernel
  have hfailure := reads_fail_for_needed_ranges partlyMappedSteps hfits
    ⟨4096,.plain 0 "std::string"⟩ 8192 65536
  have hty : (ofSteps partlyMappedSteps).builder.snapshot.IsText (.plain 0 "std::string") :=
    ⟨rfl,"std::string",by decide +kernel⟩
  have hheader : (ofSteps partlyMappedSteps).builder.snapshot.memory.Shows 4096
      (textHeader 8192 70000) := by
    decide +kernel
  have hpos : 1 ≤ (70000 : UInt64).toNat := by decide
  exact hfailure.1.mpr ⟨.data hty hheader hpos,by decide +kernel⟩

end Construction
end ValueInspector
