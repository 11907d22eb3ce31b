import Mathlib.Data.List.Pairwise
import ValueInspector.Proofs.Memory.LastAddress
import ValueInspector.Proofs.Snapshot.Construction

/-! # The order of mapping

Regions with bytes that share no address are accepted in any order: at its start each goes between
neighbours that it does not reach. The memory is the same in the end, since it keeps its regions by
their starts and no two of them start at one address. A range is read from the region that holds it, be
it at the last address or right behind another region.
-/
namespace ValueInspector

namespace Region
variable {r q : Region}

/-- The regions share no address. -/
def Apart (r q : Region) : Prop := ∀ address, ¬(r.Contains address 1 ∧ q.Contains address 1)

instance : Std.Symm Beside := ⟨fun _ _ => Or.symm⟩

/-- If both have bytes, it takes the start of one of them to be behind the other. -/
theorem apart_iff_beside (hr : 1 ≤ r.size) (hq : 1 ≤ q.size) : r.Apart q ↔ r.Beside q := by
  unfold Apart Beside Contains
  constructor
  · intro h
    have hrstart := h r.start
    have hqstart := h q.start
    omega
  · rintro hbeside address ⟨⟨hrle,hrend⟩,hqle,hqend⟩
    omega

theorem Beside.start_ne (h : r.Beside q) (hr : 1 ≤ r.size) (hq : 1 ≤ q.size) :
    r.start ≠ q.start := by
  intro hstart
  unfold Beside at h
  rw [hstart] at h
  omega

end Region

namespace Memory
variable {m m' : Memory} {rs : List Region} {r : Region} {address : UInt64} {length : Nat}

/-- The memory consists of some regions, which have bytes and lie beside each other. -/
structure Lists (m : Memory) (rs : List Region) : Prop extends m.Indexed where
  held : m.regions.toList.Perm rs
  nonempty : ∀ r ∈ rs, 1 ≤ r.size
  beside : rs.Pairwise Region.Beside

theorem lists_empty : empty.Lists [] where
  toIndexed := indexed_empty
  held := List.Perm.refl _
  nonempty := nofun
  beside := List.Pairwise.nil

/-- A region with bytes that lies beside all others is accepted. -/
theorem Lists.insert (h : m.Lists rs) (hr : 1 ≤ r.size) (hbeside : ∀ q ∈ rs, r.Beside q) :
    ∃ m', (Memory.insert r).run m = .ok () m' ∧ m'.Lists (r :: rs) := by
  obtain ⟨before,after,hsplit⟩ := h.toIndexed.exists_splitAt r.start
  have hmem : ∀ q ∈ before ++ after, r.Beside q := fun q hq =>
    hbeside q (h.held.mem_iff.mp (hsplit.regions_eq ▸ hq))
  have hprevious : ∀ p ∈ before.getLast?, ¬r.start.toNat < p.stop := by
    intro p hp
    have hp := List.mem_of_getLast? hp
    have hstart := UInt64.le_iff_toNat_le.mp (hsplit.before_le p hp)
    have hclear := hmem p (List.mem_append_left after hp)
    unfold Region.Beside at hclear
    unfold Region.stop
    omega
  have hnext : ∀ q ∈ after.head?, ¬q.start.toNat < r.stop := by
    intro q hq
    have hq := List.mem_of_mem_head? hq
    have hstart := UInt64.lt_iff_toNat_lt.mp (hsplit.lt_after q hq)
    have hclear := hmem q (List.mem_append_right before hq)
    unfold Region.Beside at hclear
    unfold Region.stop
    omega
  have haccepted := hsplit.insert_eq
  rw [if_neg] at haccepted
  · obtain ⟨before',after',hsplit',hregions,_,_,hindexed⟩ := h.toIndexed.insert_ok haccepted
    refine ⟨_,haccepted,hindexed,?_,List.forall_mem_cons.mpr ⟨hr,h.nonempty⟩,
      List.pairwise_cons.mpr ⟨hbeside,h.beside⟩⟩
    rw [hregions]
    exact List.perm_middle.trans ((hsplit'.regions_eq ▸ h.held).cons r)
  · simp only [Bool.or_eq_true, Option.any_eq_true, decide_eq_true_eq, not_or, not_exists, not_and]
    exact ⟨hprevious,hnext⟩

theorem Lists.of_perm {rs' : List Region} (h : m.Lists rs) (hperm : rs.Perm rs') : m.Lists rs' where
  toIndexed := h.toIndexed
  held := h.held.trans hperm
  nonempty r hr := h.nonempty r (hperm.mem_iff.mpr hr)
  beside := (hperm.pairwise_iff Or.symm).mp h.beside

theorem Lists.beside_of_ne (h : m.Lists rs) {q : Region} (hr : r ∈ rs) (hq : q ∈ rs)
    (hne : r ≠ q) : r.Beside q := h.beside.forall hr hq hne

/-- A memory is told by the regions it consists of. -/
theorem Lists.unique (h : m.Lists rs) (h' : m'.Lists rs) : m = m' := by
  have hregions : m.regions.toList = m'.regions.toList := by
    refine List.Perm.eq_of_pairwise (fun r q hr hq hle hge => ?_) h.sorted h'.sorted
      (h.held.trans h'.held.symm)
    have hr := h.held.mem_iff.mp hr
    have hq := h'.held.mem_iff.mp hq
    by_contra hne
    exact (h.beside_of_ne hr hq hne).start_ne (h.nonempty r hr) (h.nonempty q hq)
      (UInt64.le_antisymm hle hge)
  have hstarts : m.starts = m'.starts := by
    rw [h.starts_eq, h'.starts_eq, Array.toList_inj.mp hregions]
  cases m
  cases m'
  rw [Memory.mk.injEq]
  exact ⟨hstarts,Array.toList_inj.mp hregions⟩

/-- The region that holds a range is the last one that starts at or before it. -/
theorem Lists.regionBefore?_eq (h : m.Lists rs) (hr : r ∈ rs) (hc : r.Contains address length)
    (hn : 1 ≤ length) : m.regionBefore? address = some r := by
  obtain ⟨hle,hend⟩ := hc
  have hmem : r ∈ m.regions.toList.filter fun q => decide (q.start ≤ address) :=
    List.mem_filter.mpr ⟨h.held.mem_iff.mpr hr,decide_eq_true (UInt64.le_iff_toNat_le.mpr hle)⟩
  obtain ⟨l,last,hlast⟩ := exists_eq_concat (List.ne_nil_of_mem hmem)
  have hsorted := h.sorted.filter fun q => decide (q.start ≤ address)
  have hfiltered : last ∈ m.regions.toList.filter fun q => decide (q.start ≤ address) :=
    hlast ▸ List.mem_append_right l List.mem_cons_self
  rw [hlast] at hmem hsorted
  rw [regionBefore?, hlast, List.getLast?_concat]
  rcases List.mem_append.mp hmem with hl | hl
  -- another region in between would start before this one ends
  · obtain ⟨hregion,hstart⟩ := List.mem_filter.mp hfiltered
    have hlater := (List.pairwise_append.mp hsorted).2.2 r hl last List.mem_cons_self
    rw [UInt64.le_iff_toNat_le] at hlater
    have hstart := UInt64.le_iff_toNat_le.mp (of_decide_eq_true hstart)
    have hlast := h.held.mem_iff.mp hregion
    have hsize := h.nonempty last hlast
    by_contra hne
    have hbeside := h.beside_of_ne hr hlast fun heq => hne (congrArg some heq.symm)
    unfold Region.Beside at hbeside
    omega
  · rw [List.mem_singleton.mp hl]

theorem Lists.read_ok (h : m.Lists rs) (hr : r ∈ rs) (hc : r.Contains address length)
    (hn : 1 ≤ length) :
    m.read address length = .ok (r.bytes.extract (address.toNat - r.start.toNat)
      (address.toNat - r.start.toNat + length)).toList :=
  h.toIndexed.read_of_regionBefore? (h.regionBefore?_eq hr hc hn) hc

theorem Lists.read_error (h : m.Lists rs) (hnone : ∀ r ∈ rs, ¬r.Contains address length) :
    m.read address length = .error (.unmapped address length) :=
  h.toIndexed.read_error fun r hr => hnone r (h.held.mem_iff.mp hr)

end Memory

namespace SnapshotBuilder
variable {b : SnapshotBuilder} {rs rs' : List Region}

/-- Maps regions one after the other, until one is refused. -/
def mapAll (rs : List Region) : Change SnapshotBuilder Unit :=
  forM rs fun r => map r.start r.bytes

/-- Regions that lie beside each other and beside those that are there are all accepted. -/
theorem mapAll_lists {qs : List Region} (h : b.snapshot.memory.Lists qs)
    (hsize : ∀ r ∈ rs, 1 ≤ r.size) (hbeside : (rs ++ qs).Pairwise Region.Beside) :
    ∃ m, (mapAll rs).run b = .ok () (b.overMemory m) ∧ m.Lists (rs ++ qs) := by
  induction rs generalizing b qs with
  | nil => exact ⟨b.snapshot.memory,rfl,h⟩
  | cons r rest ih =>
    obtain ⟨hr,hrest⟩ := List.forall_mem_cons.mp hsize
    have hfirst := (List.pairwise_cons.mp hbeside).1
    obtain ⟨m,hinsert,hm⟩ := h.insert hr fun q hq => hfirst q (List.mem_append_right rest hq)
    have hmap : (map r.start r.bytes).run b = .ok () (b.overMemory m) :=
      onMemory_eq_ok_iff.mpr ⟨m,hinsert,rfl⟩
    have hperm : (r :: rest ++ qs).Perm (rest ++ r :: qs) := List.perm_middle.symm
    obtain ⟨m',hall,hm'⟩ := ih (b := b.overMemory m) hm hrest
      ((hperm.pairwise_iff Or.symm).mp hbeside)
    refine ⟨m',?_,hm'.of_perm hperm.symm⟩
    rw [mapAll, List.forM_cons, EStateM.run_bind, hmap]
    exact hall

/-- Regions with bytes that share no address can be mapped in any order, and that leads to the same
builder. A read of at least one byte comes from the region that holds the whole range, and fails if there
is none. -/
theorem mapAll_perm (hperm : rs.Perm rs') (hsize : ∀ r ∈ rs, 1 ≤ r.size)
    (hapart : rs.Pairwise Region.Apart) :
    ∃ b, (mapAll rs).run empty = .ok () b ∧ (mapAll rs').run empty = .ok () b ∧
      ∀ address length, 1 ≤ length →
        (∀ r ∈ rs, r.Contains address length → b.snapshot.memory.read address length =
          .ok (r.bytes.extract (address.toNat - r.start.toNat)
            (address.toNat - r.start.toNat + length)).toList) ∧
        ((∀ r ∈ rs, ¬r.Contains address length) →
          b.snapshot.memory.read address length = .error (.unmapped address length)) := by
  have hbeside : rs.Pairwise Region.Beside := hapart.imp_of_mem fun hr hq h =>
    (Region.apart_iff_beside (hsize _ hr) (hsize _ hq)).mp h
  have hsize' : ∀ r ∈ rs', 1 ≤ r.size := fun r hr => hsize r (hperm.mem_iff.mpr hr)
  obtain ⟨m,hmap,hm⟩ := mapAll_lists (b := empty) Memory.lists_empty hsize
    (by rwa [List.append_nil])
  obtain ⟨m',hmap',hm'⟩ := mapAll_lists (b := empty) Memory.lists_empty hsize'
    (by rw [List.append_nil]; exact (hperm.pairwise_iff Or.symm).mp hbeside)
  rw [List.append_nil] at hm hm'
  obtain rfl := hm.unique (hm'.of_perm hperm.symm)
  exact ⟨_,hmap,hmap',fun address length hn =>
    ⟨fun r hr hc => hm.read_ok hr hc hn,hm.read_error⟩⟩

/-- Two regions that touch, and one at the last address. -/
def touchingRegions : List Region := [⟨4096,#[1,2]⟩,⟨4098,#[3]⟩,⟨0xffffffffffffffff,#[9]⟩]

/-- The byte at the last address is read; a range across the two regions that touch is not. -/
theorem mapAll_perm_touching :
    ∃ b, (mapAll touchingRegions).run empty = .ok () b ∧
      (mapAll touchingRegions.reverse).run empty = .ok () b ∧
      b.snapshot.memory.read 0xffffffffffffffff 1 = .ok [9] ∧
      b.snapshot.memory.read 4097 2 = .error (.unmapped 4097 2) := by
  have hsize : ∀ r ∈ touchingRegions, 1 ≤ r.size := by decide
  have hbeside : touchingRegions.Pairwise Region.Beside := by
    unfold Region.Beside
    decide
  have hapart : touchingRegions.Pairwise Region.Apart := hbeside.imp_of_mem fun hr hq h =>
    (Region.apart_iff_beside (hsize _ hr) (hsize _ hq)).mpr h
  obtain ⟨b,hmap,hmap',hread⟩ :=
    mapAll_perm (List.reverse_perm touchingRegions).symm hsize hapart
  have hlast : (⟨0xffffffffffffffff,#[9]⟩ : Region).Contains 0xffffffffffffffff 1 :=
    ⟨by decide,by decide⟩
  have hacross : ∀ r ∈ touchingRegions, ¬r.Contains 4097 2 := by
    unfold Region.Contains
    decide
  exact ⟨b,hmap,hmap',(hread _ 1 (by decide)).1 _ (by decide) hlast,
    (hread 4097 2 (by decide)).2 hacross⟩

end SnapshotBuilder
end ValueInspector
