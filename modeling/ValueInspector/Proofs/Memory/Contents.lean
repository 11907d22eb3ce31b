import ValueInspector.Proofs.Memory.MapOrder

/-! # The bytes that a memory shows

A memory shows the bytes that one of its regions holds, from an address on. Where regions do not
overlap, there is one such region at most. They can overlap at the last address, and only the last
region there is found. A read of at least one byte comes to the bytes that are shown.
-/
namespace ValueInspector

namespace Region
variable {r : Region} {address : UInt64} {bytes : List UInt8}

/-- The region has the bytes from an address on. -/
def Holds (r : Region) (address : UInt64) (bytes : List UInt8) : Prop :=
  r.start ≤ address ∧ bytes <+: r.bytes.toList.drop (address.toNat - r.start.toNat)

instance (r : Region) (address : UInt64) (bytes : List UInt8) : Decidable (r.Holds address bytes) :=
  inferInstanceAs (Decidable (_ ∧ _))

theorem Holds.contains (h : r.Holds address bytes) (hn : 1 ≤ bytes.length) :
    r.Contains address bytes.length := by
  have hle := UInt64.le_iff_toNat_le.mp h.1
  have hlength := h.2.length_le
  have hsize : r.bytes.toList.length = r.size := Array.length_toList
  rw [List.length_drop, hsize] at hlength
  exact ⟨hle,by omega⟩

theorem Holds.extract_eq (h : r.Holds address bytes) :
    (r.bytes.extract (address.toNat - r.start.toNat)
      (address.toNat - r.start.toNat + bytes.length)).toList = bytes := by
  rw [Array.toList_extract, List.extract_eq_take_drop, Nat.add_sub_cancel_left,
    ← List.prefix_iff_eq_take.mp h.2]

/-- What is taken from a region is what it holds there. -/
theorem Contains.holds_extract {length : Nat} (h : r.Contains address length) :
    r.Holds address (r.bytes.extract (address.toNat - r.start.toNat)
      (address.toNat - r.start.toNat + length)).toList := by
  refine ⟨UInt64.le_iff_toNat_le.mpr h.1,?_⟩
  rw [Array.toList_extract, List.extract_eq_take_drop, Nat.add_sub_cancel_left]
  exact List.take_prefix _ _

theorem Contains.length_extract {length : Nat} (h : r.Contains address length) :
    (r.bytes.extract (address.toNat - r.start.toNat)
      (address.toNat - r.start.toNat + length)).toList.length = length := by
  obtain ⟨hle,hend⟩ := h
  unfold size at hend
  rw [Array.length_toList, Array.size_extract]
  omega

end Region

namespace Memory
variable {m : Memory} {address : UInt64} {length : Nat} {bytes : List UInt8}

theorem Indexed.length_of_read (h : m.Indexed) (he : m.read address length = .ok bytes) :
    bytes.length = length := by
  obtain ⟨r,hr,hc⟩ := h.regionBefore?_of_read he
  rw [h.read_of_regionBefore? hr hc] at he
  obtain rfl := Except.ok.inj he
  exact hc.length_extract

/-- Some region holds the bytes. Regions overlap at the last address only, and there the last of them
counts; for more than one byte that takes a region that goes on past the last address. -/
def Shows (m : Memory) (address : UInt64) (bytes : List UInt8) : Prop :=
  ∃ r ∈ m.regions.toList, r.Holds address bytes ∧
    (address.toNat = UInt64.size - 1 → m.regionBefore? address = some r)

instance (m : Memory) (address : UInt64) (bytes : List UInt8) : Decidable (m.Shows address bytes) :=
  inferInstanceAs (Decidable (∃ r ∈ m.regions.toList, _))

/-- A read comes to the bytes that the memory shows. -/
theorem Stacked.read_eq_ok_iff (h : m.Stacked) (hn : 1 ≤ length) :
    m.read address length = .ok bytes ↔ bytes.length = length ∧ m.Shows address bytes := by
  constructor
  · intro hread
    obtain ⟨r,hr,hc⟩ := h.toIndexed.regionBefore?_of_read hread
    rw [h.toIndexed.read_of_regionBefore? hr hc] at hread
    obtain rfl := Except.ok.inj hread
    have hmem := (List.mem_filter.mp (List.mem_of_getLast? hr)).1
    exact ⟨hc.length_extract,r,hmem,hc.holds_extract,fun _ => hr⟩
  · rintro ⟨rfl,r,hr,hholds,hlast⟩
    have hc := hholds.contains hn
    by_cases haddress : address.toNat = UInt64.size - 1
    · rw [h.toIndexed.read_of_regionBefore? (hlast haddress) hc, hholds.extract_eq]
    · have hlt := address.toNat_lt_size
      rw [h.read_eq hr hc hn (by omega), hholds.extract_eq]

/-- The memory shows no bytes of a whole range. -/
def Unmapped (m : Memory) (address : UInt64) (length : Nat) : Prop :=
  ∀ bytes, bytes.length = length → ¬m.Shows address bytes

theorem Stacked.read_eq_error_iff (h : m.Stacked) (hn : 1 ≤ length) {e : InspectError} :
    m.read address length = .error e ↔ m.Unmapped address length ∧ e = .unmapped address length := by
  constructor
  · intro hread
    refine ⟨fun bytes hbytes hshown => ?_,read_eq_error hread⟩
    cases hread.symm.trans ((h.read_eq_ok_iff hn).mpr ⟨hbytes,hshown⟩)
  · rintro ⟨hnone,rfl⟩
    cases hread : m.read address length with
    | error e => rw [read_eq_error hread]
    | ok bytes =>
      obtain ⟨hbytes,hshown⟩ := (h.read_eq_ok_iff hn).mp hread
      exact absurd hshown (hnone bytes hbytes)

/-- One region has the whole range, and at the last address it is the region that is found there. -/
def Covers (m : Memory) (address : UInt64) (length : Nat) : Prop :=
  ∃ r ∈ m.regions.toList, r.Contains address length ∧
    (address.toNat = UInt64.size - 1 → m.regionBefore? address = some r)

theorem covers_iff (hn : 1 ≤ length) :
    m.Covers address length ↔ ∃ bytes, bytes.length = length ∧ m.Shows address bytes := by
  constructor
  · rintro ⟨r,hr,hc,hlast⟩
    exact ⟨_,hc.length_extract,r,hr,hc.holds_extract,hlast⟩
  · rintro ⟨bytes,rfl,r,hr,hholds,hlast⟩
    exact ⟨r,hr,hholds.contains hn,hlast⟩

theorem not_covers_iff (hn : 1 ≤ length) : ¬m.Covers address length ↔ m.Unmapped address length := by
  rw [covers_iff hn, not_exists]
  exact forall_congr' fun bytes => not_and

theorem Shows.of_prefix {short : List UInt8} (h : m.Shows address bytes) (hshort : short <+: bytes) :
    m.Shows address short := by
  obtain ⟨r,hr,⟨hstart,hbytes⟩,hlast⟩ := h
  exact ⟨r,hr,⟨hstart,hshort.trans hbytes⟩,hlast⟩

/-- Regions beside each other show what they hold. -/
theorem Lists.shows {rs : List Region} {r : Region} (h : m.Lists rs) (hr : r ∈ rs)
    (hholds : r.Holds address bytes) (hn : 1 ≤ bytes.length) : m.Shows address bytes :=
  ⟨r,h.held.mem_iff.mpr hr,hholds,fun _ => h.regionBefore?_eq hr (hholds.contains hn) hn⟩

/-- Of regions that stay within the addresses, any one that holds more than one byte counts. -/
theorem shows_iff_of_fits (hfits : ∀ r ∈ m.regions.toList, r.start.toNat + r.size ≤ UInt64.size)
    (hn : 2 ≤ bytes.length) :
    m.Shows address bytes ↔ ∃ r ∈ m.regions.toList, r.Holds address bytes := by
  constructor
  · rintro ⟨r,hr,hholds,_⟩
    exact ⟨r,hr,hholds⟩
  · rintro ⟨r,hr,hholds⟩
    refine ⟨r,hr,hholds,fun haddress => ?_⟩
    have hend := (hholds.contains (Nat.le_of_succ_le hn)).2
    have hlast := hfits r hr
    omega

end Memory

/-- A region with bytes that lies beside those that are there joins them. -/
theorem Construction.lists_next_map {c : Construction} {rs : List Region} {r : Region}
    (h : c.builder.snapshot.memory.Lists rs) (hr : 1 ≤ r.size)
    (hbeside : ∀ q ∈ rs, r.Beside q) :
    (c.next (.memory (.map r.start r.bytes))).builder.snapshot.memory.Lists (r :: rs) := by
  obtain ⟨m,hinsert,hm⟩ := h.insert hr hbeside
  have hstep : (MemoryStep.map r.start r.bytes).apply.run c.builder =
      .ok () (c.builder.overMemory m) :=
    SnapshotBuilder.onMemory_eq_ok_iff.mpr ⟨m,hinsert,rfl⟩
  rw [next, BuilderStep.apply, EStateM.run_bind, hstep]
  exact hm

end ValueInspector
