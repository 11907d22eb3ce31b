import Mathlib.Control.Monad.Basic
import ValueInspector.Proofs.Memory.History

/-! # Regions that reach the last address

The address after the last one does not exist, so a region that reaches the last address is compared
by an end one too low. What can go wrong is little: two accepted regions share no address but the
last one, and then one of them starts there; and a region changes no earlier read but that of the
last address, by starting there. Both do happen.
-/
namespace ValueInspector

namespace Region

/-- Where a region starts and ends: all that an overlap depends on, and all that writes leave. -/
def span (r : Region) : UInt64 × Nat := (r.start,r.stop)

/-- One of the regions ends, by its capped end, before the other starts. -/
def SpansClear (a b : UInt64 × Nat) : Prop := a.2 ≤ b.1.toNat ∨ b.2 ≤ a.1.toNat

/-- An address in two regions that are clear of each other by their capped ends is the last one, and
the later region starts there. -/
theorem eq_last_of_clear {r q : Region} (h : SpansClear r.span q.span) {address : UInt64}
    (hr : r.Contains address 1) (hq : q.Contains address 1) :
    address.toNat = UInt64.size - 1 ∧ (r.start = address ∨ q.start = address) := by
  obtain ⟨hrle,hrend⟩ := hr
  obtain ⟨hqle,hqend⟩ := hq
  have haddress := address.toNat_lt_size
  simp only [SpansClear, span, stop] at h
  rw [← UInt64.toNat_inj, ← UInt64.toNat_inj]
  omega

end Region

namespace Memory
variable {m m' : Memory}

/-- The last region that starts at or before an address. -/
def regionBefore? (m : Memory) (address : UInt64) : Option Region :=
  (m.regions.toList.filter fun r => decide (r.start ≤ address)).getLast?

theorem SplitAt.regionBefore?_eq {address : UInt64} {before after : List Region}
    (h : m.SplitAt address before after) : m.regionBefore? address = before.getLast? := by
  have hbefore : before.filter (fun r => decide (r.start ≤ address)) = before :=
    List.filter_eq_self.mpr fun r hr => decide_eq_true (h.before_le r hr)
  have hafter : after.filter (fun r => decide (r.start ≤ address)) = [] :=
    List.filter_eq_nil_iff.mpr fun r hr => by
      rw [decide_eq_true_eq]
      exact UInt64.not_le.mpr (h.lt_after r hr)
  rw [regionBefore?, h.regions_eq, List.filter_append, hbefore, hafter, List.append_nil]

/-- All that a read does: it takes the range from the last region that starts at or before it. -/
theorem Indexed.read_eq (h : m.Indexed) (address : UInt64) (length : Nat) :
    m.read address length =
      match m.regionBefore? address with
      | none => .error (.unmapped address length)
      | some r =>
        if (address - r.start).toNat + length ≤ r.size then
          .ok (r.bytes.extract (address - r.start).toNat
            ((address - r.start).toNat + length)).toList
        else .error (.unmapped address length) := by
  obtain ⟨before,after,hsplit,heq⟩ := h.locate?_eq address length
  rw [read, heq, hsplit.regionBefore?_eq]
  cases before.getLast? with
  | none => rfl
  | some r =>
    by_cases hfits : (address - r.start).toNat + length ≤ r.size
    · simp only [Option.bind_some, if_pos hfits]
    · simp only [Option.bind_some, if_neg hfits]

/-- The last region that starts at or before an address is read. -/
theorem Indexed.read_of_regionBefore? {r : Region} {address : UInt64} {length : Nat}
    (h : m.Indexed) (hr : m.regionBefore? address = some r) (hc : r.Contains address length) :
    m.read address length = .ok (r.bytes.extract (address.toNat - r.start.toNat)
      (address.toNat - r.start.toNat + length)).toList := by
  obtain ⟨hle,hend⟩ := hc
  have hoffset := UInt64.toNat_sub_of_le address r.start (UInt64.le_iff_toNat_le.mpr hle)
  rw [h.read_eq, hr]
  dsimp only
  rw [hoffset, if_pos (by omega)]

theorem Indexed.read_eq_of_regionBefore? (h : m.Indexed) (h' : m'.Indexed) {address : UInt64}
    (hb : m'.regionBefore? address = m.regionBefore? address) (length : Nat) :
    m'.read address length = m.read address length := by
  rw [h.read_eq, h'.read_eq, hb]

/-- An accepted region comes last before an address only if the one that was last there ends before
it by its capped end. -/
theorem Indexed.regionBefore?_insert {r : Region} (h : m.Indexed)
    (he : (insert r).run m = .ok () m') (address : UInt64) :
    m'.regionBefore? address = m.regionBefore? address ∨
      r.start ≤ address ∧ ∀ q ∈ m.regionBefore? address, q.stop ≤ r.start.toNat := by
  obtain ⟨before,after,hsplit,hregions,hlast,_,_⟩ := h.insert_ok he
  unfold regionBefore?
  rw [hregions, hsplit.regions_eq, List.filter_append, List.filter_append, List.filter_cons]
  by_cases hr : r.start ≤ address
  · rw [if_pos (decide_eq_true hr)]
    have hbefore : before.filter (fun p => decide (p.start ≤ address)) = before :=
      List.filter_eq_self.mpr fun p hp =>
        decide_eq_true (UInt64.le_trans (hsplit.before_le p hp) hr)
    cases hafter : after.filter (fun p => decide (p.start ≤ address)) with
    | nil =>
      rw [hbefore, List.append_nil]
      exact .inr ⟨hr,hlast⟩
    -- a later region that starts at or before the address stays the last one there
    | cons q rest =>
      left
      rw [List.getLast?_append, List.getLast?_append, List.getLast?_cons_cons]
  · rw [if_neg (by simpa only [decide_eq_true_eq] using hr)]
    exact .inl rfl

/-- A read that succeeds takes its bytes from the last region that starts at or before it. -/
theorem Indexed.regionBefore?_of_read (h : m.Indexed) {address : UInt64} {length : Nat}
    {bytes : List UInt8} (he : m.read address length = .ok bytes) :
    ∃ r, m.regionBefore? address = some r ∧ r.Contains address length := by
  rw [h.read_eq] at he
  cases hb : m.regionBefore? address with
  | none =>
    rw [hb] at he
    cases he
  | some r =>
    have hmem := List.mem_of_getLast? hb
    have hle : r.start ≤ address := of_decide_eq_true (List.mem_filter.mp hmem).2
    have hoffset := UInt64.toNat_sub_of_le address r.start hle
    rw [UInt64.le_iff_toNat_le] at hle
    rw [hb] at he
    dsimp only at he
    split at he
    · exact ⟨r,rfl,hle,by omega⟩
    · cases he

/-- An accepted region changes no read that succeeded, unless it starts at the last address and that
is what is read. -/
theorem Indexed.read_insert {r : Region} (h : m.Indexed) (he : (insert r).run m = .ok () m')
    {address : UInt64} {length : Nat} {bytes : List UInt8} (hn : 1 ≤ length)
    (hread : m.read address length = .ok bytes) :
    m'.read address length = .ok bytes ∨
      address.toNat = UInt64.size - 1 ∧ r.start = address := by
  obtain ⟨_,_,_,_,_,_,h'⟩ := h.insert_ok he
  rcases h.regionBefore?_insert he address with hsame | ⟨hle,hlast⟩
  · left
    rw [h.read_eq_of_regionBefore? h' hsame, hread]
  · right
    obtain ⟨q,hq,_,hend⟩ := h.regionBefore?_of_read hread
    have hstop := hlast q hq
    have haddress := address.toNat_lt_size
    rw [UInt64.le_iff_toNat_le] at hle
    unfold Region.stop at hstop
    refine ⟨by omega,UInt64.toNat_inj.mp ?_⟩
    omega

/-- A write changes no span. -/
theorem Stacked.write_ok {address : UInt64} {data : List UInt8} (h : m.Stacked)
    (he : (write address data).run m = .ok () m') :
    m'.Stacked ∧ m'.regions.toList.map (·.span) = m.regions.toList.map (·.span) := by
  obtain ⟨before,r,after,hregions,hregions',_,hindexed⟩ := h.toIndexed.write_ok he
  have hspan : (rewrite r address data).span = r.span := by
    rw [Region.span, Region.stop, size_rewrite]
    rfl
  have hspans : m'.regions.toList.map (·.span) = m.regions.toList.map (·.span) := by
    rw [hregions, hregions', List.map_append, List.map_append, List.map_cons, List.map_cons, hspan]
  refine ⟨⟨hindexed,?_⟩,hspans⟩
  have hstops : (m'.regions.toList.map (·.span)).Pairwise fun a b => a.2 ≤ b.1.toNat :=
    hspans ▸ List.pairwise_map.mpr h.stops
  exact List.pairwise_map.mp hstops

end Memory

namespace BuilderHistory

/-- The memory holds the spans that were accepted, stacked by their capped ends. -/
structure Spans (h : BuilderHistory) : Prop where
  stacked : h.memory.Stacked
  accepted : (h.memory.regions.toList.map (·.span)).Perm (h.mapped.map (·.span))

theorem spans_start : start.Spans := ⟨Memory.stacked_empty,List.Perm.refl _⟩

theorem Spans.next {h : BuilderHistory} (hs : h.Spans) (s : MemoryStep) : (h.next s).Spans := by
  unfold BuilderHistory.next
  cases he : s.apply.run h.builder with
  | error e b =>
    rw [MemoryStep.eq_of_apply_error he]
    exact hs
  | ok _ b =>
    have hsucceeded : (⟨b,s :: h.succeeded⟩ : BuilderHistory).succeeded = s :: h.succeeded := rfl
    have hmapped := mapped_succ hsucceeded
    rcases MemoryStep.apply_ok he with ⟨r,hregion,_,hinsert⟩ | ⟨_,_,hregion,_,hwrite⟩
    · obtain ⟨hstacked,hperm,_⟩ := hs.stacked.insert_ok hinsert
      refine ⟨hstacked,?_⟩
      rw [hmapped, hregion]
      exact (hperm.map _).trans (hs.accepted.cons _)
    · obtain ⟨hstacked,hspans⟩ := hs.stacked.write_ok hwrite
      refine ⟨hstacked,?_⟩
      rw [hmapped, hregion]
      exact (List.Perm.of_eq hspans).trans hs.accepted

theorem spans_ofSteps (steps : List MemoryStep) : (ofSteps steps).Spans :=
  List.foldlRecOn steps next spans_start fun _ h s _ => h.next s

/-- No two accepted regions clash by their capped ends. -/
theorem Spans.clear {h : BuilderHistory} (hs : h.Spans) :
    h.mapped.Pairwise fun r q => Region.SpansClear r.span q.span := by
  have hclear : (h.memory.regions.toList.map (·.span)).Pairwise Region.SpansClear :=
    List.pairwise_map.mpr (hs.stacked.stops.imp .inl)
  exact List.pairwise_map.mp ((hs.accepted.pairwise_iff Or.symm).mp hclear)

/-- Two accepted regions share no address but the last one, and then one of them starts there. A
region that is accepted changes no read of at least one byte that succeeded before, unless it starts
at the last address and that is what is read. -/
theorem mapped_share_last_only (steps : List MemoryStep) :
    (ofSteps steps).mapped.Pairwise (fun r q => ∀ address,
      r.Contains address 1 → q.Contains address 1 →
        address.toNat = UInt64.size - 1 ∧ (r.start = address ∨ q.start = address)) ∧
    ∀ (s : MemoryStep) (r : Region) (b : SnapshotBuilder),
      s.region? = some r → s.apply.run (ofSteps steps).builder = .ok () b →
        ∀ address length bytes, 1 ≤ length →
          (ofSteps steps).memory.read address length = .ok bytes →
            b.snapshot.memory.read address length = .ok bytes ∨
              address.toNat = UInt64.size - 1 ∧ r.start = address := by
  have hspans := spans_ofSteps steps
  refine ⟨hspans.clear.imp fun hclear address hr hq => Region.eq_last_of_clear hclear hr hq,?_⟩
  intro s r b hregion hs address length bytes hn hread
  rcases MemoryStep.apply_ok hs with ⟨_,hregion',_,hinsert⟩ | ⟨_,_,hregion',_⟩
  · obtain rfl := Option.some.inj (hregion.symm.trans hregion')
    exact hspans.stacked.toIndexed.read_insert hinsert hn hread
  · cases hregion.symm.trans hregion'

/-- A region that reaches the last address from below, and an empty one in the middle of nowhere. -/
def toppedSteps : List MemoryStep := [.map 0xfffffffffffffffc #[1,2,3,4],.mapZeroed 0x1000 0]

/-- A region of one byte at the last address is accepted all the same, and the bytes of the first one
are read as before from any lower address on. -/
theorem mapped_share_last_only_topped :
    (ofSteps toppedSteps).memory.read 0xfffffffffffffffd 3 = .ok [2,3,4] ∧
      ∃ b, (MemoryStep.map 0xffffffffffffffff #[9]).apply.run (ofSteps toppedSteps).builder =
          .ok () b ∧
        b.snapshot.memory.read 0xfffffffffffffffd 3 = .ok [2,3,4] := by
  obtain ⟨_,hkept⟩ := mapped_share_last_only toppedSteps
  have hbefore : (ofSteps toppedSteps).memory.read 0xfffffffffffffffd 3 = .ok [2,3,4] := by
    decide +kernel
  refine ⟨hbefore,?_⟩
  have haccepted : (MemoryStep.map 0xffffffffffffffff #[9]).apply.run'
      (ofSteps toppedSteps).builder = some () := by decide +kernel
  cases hb : (MemoryStep.map 0xffffffffffffffff #[9]).apply.run (ofSteps toppedSteps).builder with
  | error e b =>
    delta EStateM.run' at haccepted
    rw [hb] at haccepted
    cases haccepted
  | ok _ b =>
    refine ⟨b,rfl,?_⟩
    refine (hkept _ _ b rfl hb 0xfffffffffffffffd 3 [2,3,4] (by decide) hbefore).resolve_right ?_
    exact fun h => absurd h.1 (by decide)

/-- Two regions of one byte at the last address. -/
def twiceAtLast : List MemoryStep := [.map 0xffffffffffffffff #[1],.map 0xffffffffffffffff #[2]]

/-- Both are accepted, though they share their only address, and the second changes what is read
there. -/
theorem last_address_mapped_twice :
    (ofSteps twiceAtLast).mapped = [⟨0xffffffffffffffff,#[2]⟩,⟨0xffffffffffffffff,#[1]⟩] ∧
      (∀ r ∈ (ofSteps twiceAtLast).mapped,
        r.start.toNat + r.size ≤ UInt64.size ∧ r.Contains 0xffffffffffffffff 1) ∧
      (ofSteps (twiceAtLast.take 1)).memory.read 0xffffffffffffffff 1 = .ok [1] ∧
      (ofSteps twiceAtLast).memory.read 0xffffffffffffffff 1 = .ok [2] := by
  unfold Region.Contains
  decide +kernel

end BuilderHistory
end ValueInspector
