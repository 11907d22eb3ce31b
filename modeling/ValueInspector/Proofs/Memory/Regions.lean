import ValueInspector.Proofs.Memory.Search

/-! # Regions that do not overlap

As long as the accepted regions end before the last address, none of them overlap, though insertion
compares a region with its two neighbours only. Then a range is readable exactly when one region
holds all of it, and that region is the one the search finds.
-/
namespace ValueInspector

namespace Region

/-- The region ends before the last address, where its end is not capped. -/
def Fits (r : Region) : Prop := r.start.toNat + r.size ≤ UInt64.size - 1

instance (r : Region) : Decidable r.Fits := inferInstanceAs (Decidable (_ ≤ _))

theorem Fits.stop_eq {r : Region} (h : r.Fits) : r.stop = r.start.toNat + r.size := Nat.min_eq_left h

/-- One of the regions ends before the other starts. -/
def Beside (q r : Region) : Prop :=
  q.start.toNat + q.size ≤ r.start.toNat ∨ r.start.toNat + r.size ≤ q.start.toNat

end Region

namespace Memory
variable {m m' : Memory}

/-- The capped end of each region is not after the next start. -/
structure Stacked (m : Memory) : Prop extends m.Indexed where
  stops : m.regions.toList.Pairwise fun r q => r.stop ≤ q.start.toNat

theorem stacked_empty : empty.Stacked where
  toIndexed := indexed_empty
  stops := List.Pairwise.nil

/-- An accepted region joins the others, and clashes with none of them by their capped ends. -/
theorem Stacked.insert_ok {r : Region} (h : m.Stacked) (he : (insert r).run m = .ok () m') :
    m'.Stacked ∧ m'.regions.toList.Perm (r :: m.regions.toList) ∧
      ∀ q ∈ m.regions.toList, q.stop ≤ r.start.toNat ∨ r.stop ≤ q.start.toNat := by
  obtain ⟨before,after,hsplit,hregions,hlast,hfirst,hindexed⟩ := h.toIndexed.insert_ok he
  have hsorted := h.sorted
  have hstops := h.stops
  rw [hsplit.regions_eq] at hsorted hstops
  obtain ⟨hbefore,hafter,hacross⟩ := List.pairwise_append.mp hstops
  -- only the neighbours were compared; the order of the starts carries it to the others
  have hleft : ∀ p ∈ before, p.stop ≤ r.start.toNat := by
    intro p hp
    obtain ⟨l,last,rfl⟩ := exists_eq_concat (List.ne_nil_of_mem hp)
    rcases List.mem_append.mp hp with hp | hp
    · have hnext := (List.pairwise_append.mp hbefore).2.2 p hp last List.mem_cons_self
      have hstart := UInt64.le_iff_toNat_le.mp (hsplit.before_le last (by simp))
      omega
    · obtain rfl := List.mem_singleton.mp hp
      exact hlast p (by simp)
  have hright : ∀ q ∈ after, r.stop ≤ q.start.toNat := by
    intro q hq
    cases after with
    | nil => cases hq
    | cons first rest =>
      have hstop := hfirst first rfl
      rcases List.mem_cons.mp hq with rfl | hq
      · exact hstop
      · have hrest := (List.pairwise_append.mp hsorted).2.1
        have hstart := UInt64.le_iff_toNat_le.mp ((List.pairwise_cons.mp hrest).1 q hq)
        omega
  refine ⟨⟨hindexed,?_⟩,?_,?_⟩
  · rw [hregions]
    refine List.pairwise_append.mpr ⟨hbefore,List.pairwise_cons.mpr ⟨hright,hafter⟩,?_⟩
    intro p hp q hq
    rcases List.mem_cons.mp hq with rfl | hq
    · exact hleft p hp
    · exact hacross p hp q hq
  · rw [hregions, hsplit.regions_eq]
    exact List.perm_middle
  · intro q hq
    rw [hsplit.regions_eq] at hq
    rcases List.mem_append.mp hq with hq | hq
    · exact .inl (hleft q hq)
    · exact .inr (hright q hq)

/-- Each region ends before the next one starts. -/
structure Laid (m : Memory) : Prop extends m.Indexed where
  fits : ∀ r ∈ m.regions.toList, r.Fits
  apart : m.regions.toList.Pairwise fun r q => r.start.toNat + r.size ≤ q.start.toNat

theorem laid_empty : empty.Laid where
  toIndexed := indexed_empty
  fits _ hr := by cases hr
  apart := List.Pairwise.nil

theorem Laid.stacked (h : m.Laid) : m.Stacked where
  toIndexed := h.toIndexed
  stops := h.apart.imp (Nat.le_trans (Nat.min_le_left _ _))

theorem Stacked.laid (h : m.Stacked) (hfits : ∀ r ∈ m.regions.toList, r.Fits) : m.Laid where
  toIndexed := h.toIndexed
  fits := hfits
  apart := h.stops.imp_of_mem fun hr _ hle => by
    rw [(hfits _ hr).stop_eq] at hle
    exact hle

/-- The regions beside a region end before it or start after it. -/
theorem Laid.beside (h : m.Laid) {before after : List Region} {r : Region}
    (hr : m.regions.toList = before ++ r :: after) :
    (∀ p ∈ before, p.start.toNat + p.size ≤ r.start.toNat) ∧
      ∀ q ∈ after, r.start.toNat + r.size ≤ q.start.toNat := by
  have hapart := h.apart
  rw [hr] at hapart
  obtain ⟨_,hright,hacross⟩ := List.pairwise_append.mp hapart
  exact ⟨fun p hp => hacross p hp r List.mem_cons_self,(List.pairwise_cons.mp hright).1⟩

/-- An accepted region joins the others, beside all of them. -/
theorem Laid.insert_ok {r : Region} (h : m.Laid) (he : (insert r).run m = .ok () m') (hr : r.Fits) :
    m'.Laid ∧ (∀ q, q ∈ m'.regions.toList ↔ q = r ∨ q ∈ m.regions.toList) ∧
      ∀ q ∈ m.regions.toList, q.Beside r := by
  obtain ⟨hstacked,hperm,hclear⟩ := h.stacked.insert_ok he
  have hmem : ∀ q, q ∈ m'.regions.toList ↔ q = r ∨ q ∈ m.regions.toList :=
    fun q => hperm.mem_iff.trans List.mem_cons
  refine ⟨hstacked.laid ?_,hmem,?_⟩
  · intro q hq
    rcases (hmem q).mp hq with rfl | hq
    · exact hr
    · exact h.fits q hq
  · intro q hq
    have hcases := hclear q hq
    rwa [(h.fits q hq).stop_eq, hr.stop_eq] at hcases

/-- A write changes one region, which holds the range and has all others beside it. -/
theorem Laid.write_ok {address : UInt64} {data : List UInt8} (h : m.Laid)
    (he : (write address data).run m = .ok () m') :
    m'.Laid ∧ ∃ (r : Region) (others : List Region), r.Contains address data.length ∧
      (∀ q, q ∈ m.regions.toList ↔ q = r ∨ q ∈ others) ∧
      (∀ q, q ∈ m'.regions.toList ↔ q = rewrite r address data ∨ q ∈ others) ∧
      ∀ q ∈ others, q.Beside r := by
  obtain ⟨before,r,after,hregions,hregions',hcontains,hindexed⟩ := h.toIndexed.write_ok he
  have hfits := h.fits
  have hapart := h.apart
  have hstart : (rewrite r address data).start = r.start := rfl
  have hsize := size_rewrite r address data
  obtain ⟨hleft,hright⟩ := h.beside hregions
  refine ⟨⟨hindexed,?_,?_⟩,r,before ++ after,hcontains,?_,?_,?_⟩
  · rw [hregions] at hfits
    rw [hregions']
    simpa only [List.forall_mem_append, List.forall_mem_cons, Region.Fits, hstart, hsize] using
      hfits
  · rw [hregions] at hapart
    rw [hregions']
    simpa only [List.pairwise_append, List.pairwise_cons, List.forall_mem_cons, hstart, hsize]
      using hapart
  · rw [hregions]
    exact fun q => List.perm_middle.mem_iff.trans List.mem_cons
  · rw [hregions']
    exact fun q => List.perm_middle.mem_iff.trans List.mem_cons
  · intro q hq
    rcases List.mem_append.mp hq with hq | hq
    · exact .inl (hleft q hq)
    · exact .inr (hright q hq)

/-- A read that succeeds takes its bytes from a region that holds the range. -/
theorem Indexed.read_ok {address : UInt64} {length : Nat} {bytes : List UInt8} (h : m.Indexed)
    (he : m.read address length = .ok bytes) :
    ∃ r ∈ m.regions.toList, r.Contains address length := by
  unfold read at he
  cases hl : m.locate? address length with
  | none =>
    rw [hl] at he
    cases he
  | some found =>
    obtain ⟨before,r,after,hregions,_,hcontains,rfl⟩ := h.locate?_some hl
    exact ⟨r,by rw [hregions]; simp,hcontains⟩

theorem read_eq_error {address : UInt64} {length : Nat} {e : InspectError}
    (he : m.read address length = .error e) : e = .unmapped address length := by
  unfold read at he
  split at he
  · cases he
  · exact (Except.error.inj he).symm

/-- No region has the whole range. An empty range is in a region that it touches. -/
def Lacks (m : Memory) (address : UInt64) (length : Nat) : Prop :=
  ∀ r ∈ m.regions.toList, ¬r.Contains address length

instance (m : Memory) (address : UInt64) (length : Nat) : Decidable (m.Lacks address length) :=
  inferInstanceAs (Decidable (∀ r ∈ m.regions.toList, ¬(_ ∧ _)))

theorem Indexed.read_error {address : UInt64} {length : Nat} (h : m.Indexed)
    (hnone : m.Lacks address length) :
    m.read address length = .error (.unmapped address length) := by
  cases hread : m.read address length with
  | error e => rw [read_eq_error hread]
  | ok bytes =>
    obtain ⟨r,hr,hc⟩ := h.read_ok hread
    exact absurd hc (hnone r hr)

/-- A region that holds a range is the one it is read from, if the range starts before the last
address. -/
theorem Stacked.read_eq {address : UInt64} {length : Nat} {r : Region} (h : m.Stacked)
    (hr : r ∈ m.regions.toList) (hc : r.Contains address length) (hn : 1 ≤ length)
    (hlast : address.toNat < UInt64.size - 1) :
    m.read address length = .ok (r.bytes.extract (address.toNat - r.start.toNat)
      (address.toNat - r.start.toNat + length)).toList := by
  obtain ⟨before,after,hsplit,heq⟩ := h.toIndexed.locate?_eq address length
  have hle : r.start ≤ address := UInt64.le_iff_toNat_le.mpr hc.1
  have hoffset := UInt64.toNat_sub_of_le address r.start hle
  have hend := hc.2
  have hmem : r ∈ before := by
    rw [hsplit.regions_eq] at hr
    rcases List.mem_append.mp hr with hr | hr
    · exact hr
    · exact absurd hle (UInt64.not_le.mpr (hsplit.lt_after r hr))
  obtain ⟨l,last,rfl⟩ := exists_eq_concat (List.ne_nil_of_mem hmem)
  have hlast : r = last := by
    rcases List.mem_append.mp hmem with hl | hl
    -- the last region starts at or before the address, but not before this one ends
    · have hstops := h.stops
      rw [hsplit.regions_eq, List.append_assoc] at hstops
      have hnext := (List.pairwise_append.mp hstops).2.2 r hl last List.mem_cons_self
      have hstart := UInt64.le_iff_toNat_le.mp (hsplit.before_le last (by simp))
      unfold Region.stop at hnext
      omega
    · exact List.mem_singleton.mp hl
  subst hlast
  have hle := hc.1
  rw [List.getLast?_concat, Option.bind_some, if_pos (by omega), hoffset] at heq
  rw [read, heq]

/-- Regions that end before the last address are read from wherever they hold a range. -/
theorem Laid.read_eq {address : UInt64} {length : Nat} {r : Region} (h : m.Laid)
    (hr : r ∈ m.regions.toList) (hc : r.Contains address length) (hn : 1 ≤ length) :
    m.read address length = .ok (r.bytes.extract (address.toNat - r.start.toNat)
      (address.toNat - r.start.toNat + length)).toList := by
  have hfits := h.fits r hr
  have hend := hc.2
  unfold Region.Fits at hfits
  exact h.stacked.read_eq hr hc hn (by omega)

/-- A range that a region has is readable, an empty one perhaps from the start of the next region. -/
theorem Laid.exists_read_eq {address : UInt64} {length : Nat} {r : Region} (h : m.Laid)
    (hr : r ∈ m.regions.toList) (hc : r.Contains address length) :
    ∃ bytes, m.read address length = .ok bytes := by
  obtain ⟨before,after,hsplit,heq⟩ := h.toIndexed.locate?_eq address length
  have hend := hc.2
  have hmem : r ∈ before := by
    rw [hsplit.regions_eq] at hr
    refine (List.mem_append.mp hr).resolve_right fun hr => ?_
    exact absurd (UInt64.le_iff_toNat_le.mpr hc.1) (UInt64.not_le.mpr (hsplit.lt_after r hr))
  obtain ⟨l,last,rfl⟩ := exists_eq_concat (List.ne_nil_of_mem hmem)
  have hle := hsplit.before_le last (by simp)
  have hoffset := UInt64.toNat_sub_of_le address last.start hle
  rw [UInt64.le_iff_toNat_le] at hle
  have hfits : (address - last.start).toNat + length ≤ last.size := by
    rcases List.mem_append.mp hmem with hl | hl
    -- a later region starts where this one ends at the earliest, so nothing is read of either
    · have hapart := h.apart
      rw [hsplit.regions_eq, List.append_assoc] at hapart
      have hnext := (List.pairwise_append.mp hapart).2.2 r hl last List.mem_cons_self
      omega
    · obtain rfl := List.mem_singleton.mp hl
      omega
  rw [List.getLast?_concat, Option.bind_some, if_pos hfits] at heq
  exact ⟨_,by rw [read, heq]⟩

/-- Where regions do not overlap, a read fails exactly if no region has the range. -/
theorem Laid.read_eq_error_iff {address : UInt64} {length : Nat} {e : InspectError} (h : m.Laid) :
    m.read address length = .error e ↔ m.Lacks address length ∧ e = .unmapped address length := by
  constructor
  · intro hread
    refine ⟨fun r hr hc => ?_,read_eq_error hread⟩
    obtain ⟨bytes,hbytes⟩ := h.exists_read_eq hr hc
    cases hread.symm.trans hbytes
  · rintro ⟨hnone,rfl⟩
    exact h.toIndexed.read_error hnone

/-- Some region holds the bytes, from an address on. -/
def Stores (m : Memory) (address : UInt64) (bytes : List UInt8) : Prop :=
  address.toNat + bytes.length ≤ UInt64.size ∧ ∃ r ∈ m.regions.toList,
    r.start ≤ address ∧ bytes <+: r.bytes.toList.drop (address.toNat - r.start.toNat)

instance (m : Memory) (address : UInt64) (bytes : List UInt8) :
    Decidable (m.Stores address bytes) := inferInstanceAs (Decidable (_ ∧ _))

/-- Bytes that are stored are read back, unless it is the one byte at the last address. -/
theorem Stacked.read_stored {address : UInt64} {bytes : List UInt8} (h : m.Stacked)
    (hs : m.Stores address bytes) (hn : 2 ≤ bytes.length) :
    m.read address bytes.length = .ok bytes := by
  obtain ⟨hfits,r,hr,hstart,hbytes⟩ := hs
  have hle := UInt64.le_iff_toNat_le.mp hstart
  have hlength := hbytes.length_le
  have hsize : r.bytes.toList.length = r.size := Array.length_toList
  rw [List.length_drop, hsize] at hlength
  have hc : r.Contains address bytes.length := ⟨hle,by omega⟩
  rw [h.read_eq hr hc (by omega) (by omega), Array.toList_extract, List.extract_eq_take_drop,
    Nat.add_sub_cancel_left, ← List.prefix_iff_eq_take.mp hbytes]

end Memory
end ValueInspector
