import ValueInspector.Proofs.Snapshot.Construction

/-! # Positions in the region index

The starts stand beside the regions, one for each and in ascending order, whatever is inserted or
written and whether or not it succeeds. So halving ends at the position that a scan of all regions
finds: behind the last one that starts at or before the address. What an operation looks at there
exists.
-/
namespace ValueInspector.Memory
variable {m : Memory} {address : UInt64}

/-- The memory that a step leaves, be it successful or not. -/
def next (m : Memory) (s : MemoryStep) : Memory := s.onMemory.after m

/-- The memory that some steps lead to from an empty one. -/
def ofSteps (steps : List MemoryStep) : Memory := steps.foldl next empty

theorem Indexed.after_insert (h : m.Indexed) (r : Region) : ((insert r).after m).Indexed := by
  rw [Change.after]
  cases he : (insert r).run m with
  | error e m' => exact eq_of_insert_error he ▸ h
  | ok _ m' =>
    obtain ⟨_,_,_,_,_,_,hindexed⟩ := h.insert_ok he
    exact hindexed

theorem Indexed.after_write (h : m.Indexed) (address : UInt64) (data : List UInt8) :
    ((write address data).after m).Indexed := by
  rw [Change.after]
  cases he : (write address data).run m with
  | error e m' => exact eq_of_write_error he ▸ h
  | ok _ m' =>
    obtain ⟨_,_,_,_,_,_,hindexed⟩ := h.write_ok he
    exact hindexed

theorem Indexed.next (h : m.Indexed) (s : MemoryStep) : (m.next s).Indexed := by
  cases s with
  | map start bytes => exact h.after_insert _
  | mapZeroed start length => exact h.after_insert _
  | write address data => exact h.after_write address data
  | writeWord address value => exact h.after_write address _

theorem indexed_ofSteps (steps : List MemoryStep) : (ofSteps steps).Indexed :=
  List.foldlRecOn steps Memory.next indexed_empty fun _ h s _ => h.next s

/-- The last region that starts at or before an address, with its position, from a scan of all of
them. -/
def lastUpTo? (m : Memory) (address : UInt64) : Option (Region × Nat) :=
  (m.regions.toList.zipIdx.filter fun r => decide (r.1.start ≤ address)).getLast?

/-- The position behind it, which is the first one if there is none. -/
def placeAfter (m : Memory) (address : UInt64) : Nat := (m.lastUpTo? address).elim 0 (·.2 + 1)

/-- Where a range is found by a scan. -/
def scanFor? (m : Memory) (address : UInt64) (length : Nat) : Option (Nat × Region × Nat) :=
  (m.lastUpTo? address).bind fun r =>
    if (address - r.1.start).toNat + length ≤ r.1.size then
      some (r.2,r.1,(address - r.1.start).toNat)
    else none

/-- A read of the range that a scan finds. -/
def scanRead (m : Memory) (address : UInt64) (length : Nat) : Except InspectError (List UInt8) :=
  (m.scanFor? address length).elim (.error (.unmapped address length)) fun found =>
    .ok (found.2.1.bytes.extract found.2.2 (found.2.2 + length)).toList

/-- A write to the range that a scan finds. -/
def scanWrite (address : UInt64) (data : List UInt8) : Change Memory Unit := fun m =>
  (m.scanFor? address data.length).elim (.error (.unmapped address data.length) m) fun found =>
    .ok () ⟨m.starts,m.regions.setIfInBounds found.1
      ⟨found.2.1.start,overwrite found.2.1.bytes found.2.2 data⟩⟩

/-- An insertion at the position that a scan finds. -/
def scanInsert (r : Region) : Change Memory Unit := fun m =>
  if (m.lastUpTo? r.start).any (fun p => decide (r.start.toNat < p.1.stop)) ||
      m.regions[m.placeAfter r.start]?.any (fun q => decide (q.start.toNat < r.stop)) then
    .error (.regionOverlap r.start r.size) m
  else
    .ok () ⟨m.starts.insertIdxIfInBounds (m.placeAfter r.start) r.start,
      m.regions.insertIdxIfInBounds (m.placeAfter r.start) r⟩

namespace SplitAt
variable {before after : List Region}

theorem lastUpTo?_eq (h : m.SplitAt address before after) :
    m.lastUpTo? address = before.getLast?.map fun r => (r,before.length - 1) := by
  have hbefore : before.zipIdx.filter (fun r => decide (r.1.start ≤ address)) = before.zipIdx := by
    refine List.filter_eq_self.mpr fun r hr => decide_eq_true ?_
    exact h.before_le r.1 (List.fst_mem_of_mem_zipIdx hr)
  have hafter : (after.zipIdx before.length).filter (fun r => decide (r.1.start ≤ address)) = [] := by
    refine List.filter_eq_nil_iff.mpr fun r hr => ?_
    rw [decide_eq_true_eq]
    exact UInt64.not_le.mpr (h.lt_after r.1 (List.fst_mem_of_mem_zipIdx hr))
  rw [lastUpTo?, h.regions_eq, List.zipIdx_append, List.filter_append, hbefore, Nat.zero_add, hafter,
    List.append_nil, List.getLast?_zipIdx]
  simp

theorem placeAfter_eq (h : m.SplitAt address before after) : m.placeAfter address = before.length := by
  rw [placeAfter, h.lastUpTo?_eq]
  rcases before.eq_nil_or_concat with rfl | ⟨front,last,rfl⟩
  · rfl
  · rw [List.concat_eq_append, List.getLast?_concat, List.length_append, List.length_singleton]
    rfl

end SplitAt

section Search
variable (h : m.Indexed)
include h

theorem Indexed.countUpTo_eq (address : UInt64) : m.countUpTo address = m.placeAfter address := by
  obtain ⟨before,after,hsplit⟩ := h.exists_splitAt address
  rw [hsplit.count_eq, hsplit.placeAfter_eq]

theorem Indexed.countUpTo_le (address : UInt64) : m.countUpTo address ≤ m.regions.size := by
  obtain ⟨before,after,hsplit⟩ := h.exists_splitAt address
  have hsize := congrArg List.length hsplit.regions_eq
  rw [Array.length_toList, List.length_append] at hsize
  rw [hsplit.count_eq, hsize]
  exact Nat.le_add_right _ _

theorem Indexed.indexBefore?_eq (address : UInt64) :
    m.indexBefore? address = (m.lastUpTo? address).map (·.2) := by
  rw [indexBefore?, h.countUpTo_eq, placeAfter]
  cases m.lastUpTo? address <;> rfl

/-- The region before the position exists, and no later one starts at or before the address. -/
theorem Indexed.indexBefore?_eq_some_iff {i : Nat} :
    m.indexBefore? address = some i ↔ ∃ r, m.regions[i]? = some r ∧ r.start ≤ address ∧
      ∀ j q, i < j → m.regions[j]? = some q → address < q.start := by
  obtain ⟨before,after,hsplit⟩ := h.exists_splitAt address
  have hafter : ∀ j q, before.length ≤ j → m.regions[j]? = some q → address < q.start := by
    intro j q hj hq
    rw [hsplit.getElem?_regions, List.getElem?_append_right hj] at hq
    exact hsplit.lt_after q (List.mem_of_getElem? hq)
  have hbefore : ∀ j q, j < before.length → m.regions[j]? = some q → q.start ≤ address := by
    intro j q hj hq
    rw [hsplit.getElem?_regions, List.getElem?_append_left hj] at hq
    exact hsplit.before_le q (List.mem_of_getElem? hq)
  rw [h.indexBefore?_eq, hsplit.lastUpTo?_eq]
  rcases before.eq_nil_or_concat with rfl | ⟨front,last,rfl⟩
  · refine iff_of_false (by simp) ?_
    rintro ⟨r,hr,hle,_⟩
    exact absurd hle (UInt64.not_le.mpr (hafter i r (Nat.zero_le i) hr))
  · rw [List.concat_eq_append] at hsplit hafter hbefore ⊢
    rw [List.length_append, List.length_singleton] at hafter hbefore
    have hplace : m.regions[front.length]? = some last := by
      rw [hsplit.getElem?_regions]
      simp
    have hle := hbefore front.length last (Nat.lt_succ_self _) hplace
    rw [List.getLast?_concat, Option.map_some, Option.map_some, List.length_append,
      List.length_singleton, Nat.add_sub_cancel, Option.some.injEq]
    constructor
    · rintro rfl
      exact ⟨last,hplace,hle,hafter⟩
    · rintro ⟨r,hr,hstart,hlater⟩
      -- the later of two such positions would start both behind the address and not
      refine Nat.le_antisymm (Nat.not_lt.mp fun hlt => ?_) (Nat.not_lt.mp fun hlt => ?_)
      · exact absurd hle (UInt64.not_le.mpr (hlater front.length last hlt hplace))
      · exact absurd hstart (UInt64.not_le.mpr (hafter i r hlt hr))

theorem Indexed.locate?_eq_scanFor? (address : UInt64) (length : Nat) :
    m.locate? address length = m.scanFor? address length := by
  obtain ⟨before,after,hsplit,heq⟩ := h.locate?_eq address length
  rw [heq, scanFor?, hsplit.lastUpTo?_eq]
  cases before.getLast? <;> rfl

theorem Indexed.read_eq_scanRead (address : UInt64) (length : Nat) :
    m.read address length = m.scanRead address length := by
  rw [read, h.locate?_eq_scanFor?, scanRead]
  cases m.scanFor? address length with
  | none => rfl
  | some found => rfl

theorem Indexed.write_eq_scanWrite (address : UInt64) (data : List UInt8) :
    (write address data).run m = (scanWrite address data).run m := by
  rw [write_eq, h.locate?_eq_scanFor?]
  rfl

theorem Indexed.insert_eq_scanInsert (r : Region) :
    (insert r).run m = (scanInsert r).run m := by
  obtain ⟨before,after,hsplit⟩ := h.exists_splitAt r.start
  rw [hsplit.insert_eq, EStateM.run, scanInsert, hsplit.placeAfter_eq, hsplit.first_after,
    hsplit.lastUpTo?_eq]
  cases before.getLast? <;> rfl

end Search

/-- After any insertions and writes, whichever of them fail, there is one start for each region, in
ascending order. Each search then ends at the position that a scan of all regions finds, behind the
last one that starts at or before the address. That region exists; a range is located as by a scan, and
so reads, writes and insertions do all that they would do after a scan. -/
theorem searches_as_scans (steps : List MemoryStep) :
    let m := ofSteps steps
    m.starts.size = m.regions.size ∧
    (∀ i : Nat, m.starts[i]? = m.regions[i]?.map (·.start)) ∧
    m.starts.toList.Pairwise (· ≤ ·) ∧
    (∀ address, m.countUpTo address = m.placeAfter address ∧
      m.countUpTo address ≤ m.regions.size ∧
      m.indexBefore? address = (m.lastUpTo? address).map (·.2) ∧
      ∀ i, m.indexBefore? address = some i ↔ ∃ r, m.regions[i]? = some r ∧ r.start ≤ address ∧
        ∀ j q, i < j → m.regions[j]? = some q → address < q.start) ∧
    (∀ address length, m.locate? address length = m.scanFor? address length) ∧
    (∀ address length, m.read address length = m.scanRead address length) ∧
    (∀ address data, (write address data).run m = (scanWrite address data).run m) ∧
    ∀ r, (insert r).run m = (scanInsert r).run m := by
  intro m
  have h : m.Indexed := indexed_ofSteps steps
  refine ⟨?_,fun i => ?_,?_,fun address => ⟨h.countUpTo_eq address,h.countUpTo_le address,
    h.indexBefore?_eq address,fun i => h.indexBefore?_eq_some_iff⟩,h.locate?_eq_scanFor?,
    h.read_eq_scanRead,h.write_eq_scanWrite,h.insert_eq_scanInsert⟩
  · rw [h.starts_eq, Array.size_map]
  · rw [h.starts_eq, Array.getElem?_map]
  · rw [h.starts_eq, Array.toList_map, List.pairwise_map]
    exact h.sorted

end ValueInspector.Memory
