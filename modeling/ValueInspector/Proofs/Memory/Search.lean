import ValueInspector.Memory

/-! # Searching the region index

The starts of the regions are kept beside the regions, in ascending order. Halving then splits the
regions at an address: those that start at or before it, and those that start after it. Insertion
puts a region at the split, and writing leaves all starts as they are, so the order is kept whatever
is inserted or written.
-/
namespace ValueInspector

/-- All addresses of a range are in the region. -/
def Region.Contains (r : Region) (address : UInt64) (length : Nat) : Prop :=
  r.start.toNat ≤ address.toNat ∧ address.toNat + length ≤ r.start.toNat + r.size

theorem exists_eq_concat {α : Type} {l : List α} (h : l ≠ []) : ∃ front last, l = front ++ [last] :=
  ⟨_,_,(List.dropLast_concat_getLast h).symm⟩

namespace Memory

/-- The search splits ascending starts at the address, if it starts with a span around the split. -/
theorem searchFrom_spec (address : UInt64) {starts : Array UInt64}
    (hs : starts.toList.Pairwise (· ≤ ·)) {low high : Nat} (h : high ≤ starts.size)
    (hspan : low ≤ high) (hlow : ∀ j (hj : j < starts.size), j < low → starts[j] ≤ address)
    (hhigh : ∀ j (hj : j < starts.size), high ≤ j → address < starts[j]) :
    searchFrom starts address low high h ≤ starts.size ∧
      ∀ j (hj : j < starts.size),
        j < searchFrom starts address low high h ↔ starts[j] ≤ address := by
  have hmono : ∀ {i j : Nat} (hi : i < starts.size) (hj : j < starts.size), i ≤ j →
      starts[i] ≤ starts[j] := by
    intro i j hi hj hij
    rcases Nat.eq_or_lt_of_le hij with rfl | hlt
    · exact UInt64.le_refl _
    · exact List.pairwise_iff_getElem.mp hs i j hi hj hlt
  induction low, high, h using searchFrom.induct starts address with
  | case1 low high h hlt middle hm hle ih =>
    rw [searchFrom, dif_pos hlt, if_pos (show starts[low + (high - low) / 2] ≤ address from hle)]
    refine ih (by omega) (fun j hj hjlow => ?_) hhigh
    exact UInt64.le_trans (hmono hj hm (by omega)) hle
  | case2 low high h hlt middle hm hle ih =>
    rw [searchFrom, dif_pos hlt, if_neg (show ¬starts[low + (high - low) / 2] ≤ address from hle)]
    refine ih (by omega) hlow fun j hj hjhigh => ?_
    exact UInt64.lt_of_lt_of_le (UInt64.not_le.mp hle) (hmono hm hj hjhigh)
  | case3 low high h hlt =>
    rw [searchFrom, dif_neg hlt]
    refine ⟨by omega,fun j hj => ⟨hlow j hj,fun hle => ?_⟩⟩
    by_cases hjlow : j < low
    · exact hjlow
    · exact absurd hle (UInt64.not_le.mpr (hhigh j hj (by omega)))

/-- The starts are those of the regions, in ascending order. -/
structure Indexed (m : Memory) : Prop where
  starts_eq : m.starts = m.regions.map (·.start)
  sorted : m.regions.toList.Pairwise fun r q => r.start ≤ q.start

theorem indexed_empty : empty.Indexed := ⟨by simp [empty],List.Pairwise.nil⟩

/-- Regions split at an address: those that start at or before it, and those that start after. -/
structure SplitAt (m : Memory) (address : UInt64) (before after : List Region) : Prop where
  regions_eq : m.regions.toList = before ++ after
  count_eq : m.countUpTo address = before.length
  before_le : ∀ r ∈ before, r.start ≤ address
  lt_after : ∀ r ∈ after, address < r.start

theorem Indexed.exists_splitAt {m : Memory} (h : m.Indexed) (address : UInt64) :
    ∃ before after, m.SplitAt address before after := by
  have hsize : m.starts.size = m.regions.size := by rw [h.starts_eq, Array.size_map]
  have hsorted : m.starts.toList.Pairwise (· ≤ ·) := by
    rw [h.starts_eq, Array.toList_map, List.pairwise_map]
    exact h.sorted
  obtain ⟨hle,hiff⟩ := searchFrom_spec address hsorted (Nat.le_refl _)
    (Nat.zero_le _) (fun _ _ h0 => absurd h0 (Nat.not_lt_zero _))
    (fun j hj hge => absurd hj (Nat.not_lt.mpr hge))
  have hstart : ∀ j (hj : j < m.regions.size), m.starts[j] = m.regions[j].start := by
    intro j hj
    simp only [h.starts_eq, Array.getElem_map]
  refine ⟨m.regions.toList.take (m.countUpTo address),m.regions.toList.drop (m.countUpTo address),
    (List.take_append_drop _ _).symm,?_,?_,?_⟩
  · rw [List.length_take, Array.length_toList, ← hsize]
    exact (Nat.min_eq_left hle).symm
  · intro r hr
    obtain ⟨j,hj,rfl⟩ := List.mem_take_iff_getElem.mp hr
    rw [Nat.lt_min] at hj
    rw [Array.getElem_toList, ← hstart j hj.2]
    exact (hiff j (by rw [hsize]; exact hj.2)).mp hj.1
  · intro r hr
    obtain ⟨j,hj,rfl⟩ := List.mem_drop_iff_getElem.mp hr
    have hj' : m.countUpTo address + j < m.regions.size := by
      rw [Nat.add_comm]
      exact hj
    rw [Array.getElem_toList, ← hstart _ hj']
    refine UInt64.not_le.mp fun hle => ?_
    have hlt := (hiff _ (hsize.symm ▸ hj')).mpr hle
    exact absurd hlt (Nat.not_lt.mpr (Nat.le_add_right _ _))

namespace SplitAt
variable {m : Memory} {address : UInt64} {before after : List Region}

theorem getElem?_regions (h : m.SplitAt address before after) (j : Nat) :
    m.regions[j]? = (before ++ after)[j]? := by
  rw [← h.regions_eq, Array.getElem?_toList]

theorem last_before (h : m.SplitAt address before after) {j : Nat} (hj : before.length = j + 1) :
    m.regions[j]? = before.getLast? := by
  rw [h.getElem?_regions, List.getElem?_append_left (by omega), List.getLast?_eq_getElem?, hj,
    Nat.add_sub_cancel]

theorem first_after (h : m.SplitAt address before after) :
    m.regions[before.length]? = after.head? := by
  rw [h.getElem?_regions, List.getElem?_append_right (Nat.le_refl _), Nat.sub_self,
    List.head?_eq_getElem?]

end SplitAt

/-- The search for a region ends at one that starts at or before the address. -/
def SearchesInside (m : Memory) : Prop :=
  ∀ address i, m.indexBefore? address = some i → ∃ r, m.regions[i]? = some r ∧ r.start ≤ address

theorem Indexed.searchesInside {m : Memory} (h : m.Indexed) : m.SearchesInside := by
  intro address i hi
  obtain ⟨before,after,hsplit⟩ := h.exists_splitAt address
  rw [indexBefore?, hsplit.count_eq] at hi
  cases hlen : before.length with
  | zero =>
    rw [hlen] at hi
    cases hi
  | succ n =>
    rw [hlen] at hi
    obtain rfl := Option.some.inj hi
    obtain ⟨l,last,rfl⟩ := exists_eq_concat (List.ne_nil_of_length_eq_add_one hlen)
    refine ⟨last,?_,hsplit.before_le last (by simp)⟩
    rw [hsplit.last_before hlen, List.getLast?_concat]

theorem insertIdx_length_append {α : Type} (l l' : List α) (a : α) :
    (l ++ l').insertIdx l.length a = l ++ a :: l' := by
  induction l with
  | nil => rfl
  | cons b l ih => simp only [List.cons_append, List.length_cons, List.insertIdx_succ_cons, ih]

theorem toList_insertIdxIfInBounds {α : Type} (xs : Array α) (i : Nat) (a : α) :
    (xs.insertIdxIfInBounds i a).toList = xs.toList.insertIdx i a := by
  rcases xs with ⟨l⟩
  rw [List.insertIdxIfInBounds_toArray]

/-- All that an insertion does. A refused region changes nothing: it is compared with both neighbours
before it is put anywhere. -/
theorem insert_eq (m : Memory) (r : Region) :
    (insert r).run m =
      if (0 < m.countUpTo r.start &&
          m.regions[m.countUpTo r.start - 1]?.any fun p => decide (r.start.toNat < p.stop)) ||
          m.regions[m.countUpTo r.start]?.any fun q => decide (q.start.toNat < r.stop) then
        .error (.regionOverlap r.start r.size) m
      else
        .ok () ⟨m.starts.insertIdxIfInBounds (m.countUpTo r.start) r.start,
          m.regions.insertIdxIfInBounds (m.countUpTo r.start) r⟩ := by
  simp only [insert, EStateM.run_bind, EStateM.run_get]
  by_cases hprevious : (decide (0 < m.countUpTo r.start) &&
      m.regions[m.countUpTo r.start - 1]?.any fun p => decide (r.start.toNat < p.stop)) = true
  · rw [if_pos hprevious, hprevious]
    rfl
  · rw [if_neg hprevious, Bool.eq_false_iff.mpr hprevious, Bool.false_or]
    by_cases hnext : (m.regions[m.countUpTo r.start]?.any fun q =>
        decide (q.start.toNat < r.stop)) = true
    · rw [if_pos hnext, if_pos hnext]
      rfl
    · rw [if_neg hnext, if_neg hnext]
      rfl

/-- A region is refused if it clashes with a neighbour of the split at its start, and goes to the
split otherwise. -/
theorem SplitAt.insert_eq {m : Memory} {r : Region} {before after : List Region}
    (h : m.SplitAt r.start before after) :
    (insert r).run m =
      if before.getLast?.any (fun p => decide (r.start.toNat < p.stop)) ||
          after.head?.any (fun q => decide (q.start.toNat < r.stop)) then
        .error (.regionOverlap r.start r.size) m
      else
        .ok () ⟨m.starts.insertIdxIfInBounds before.length r.start,
          m.regions.insertIdxIfInBounds before.length r⟩ := by
  rw [Memory.insert_eq, h.count_eq, h.first_after]
  cases hlen : before.length with
  | zero =>
    rw [List.length_eq_zero_iff.mp hlen]
    rfl
  | succ n =>
    rw [Nat.add_sub_cancel, h.last_before hlen, decide_eq_true (Nat.zero_lt_succ n), Bool.true_and]

theorem eq_of_insert_error {m m' : Memory} {r : Region} {e : InspectError}
    (he : (insert r).run m = .error e m') : m' = m := by
  rw [insert_eq] at he
  split at he
  · cases he
    rfl
  · cases he

/-- An accepted region clashes with neither neighbour. -/
theorem Indexed.insert_ok {m m' : Memory} {r : Region} (h : m.Indexed)
    (he : (insert r).run m = .ok () m') :
    ∃ before after, m.SplitAt r.start before after ∧
      m'.regions.toList = before ++ r :: after ∧
      (∀ p ∈ before.getLast?, p.stop ≤ r.start.toNat) ∧
      (∀ q ∈ after.head?, r.stop ≤ q.start.toNat) ∧ m'.Indexed := by
  obtain ⟨before,after,hsplit⟩ := h.exists_splitAt r.start
  rw [hsplit.insert_eq] at he
  split at he
  · cases he
  next hfree =>
    cases he
    simp only [Bool.or_eq_true, Option.any_eq_true, decide_eq_true_eq, not_or, not_exists,
      not_and, Nat.not_lt] at hfree
    have hregions : (m.regions.insertIdxIfInBounds before.length r).toList =
        before ++ r :: after := by
      rw [toList_insertIdxIfInBounds, hsplit.regions_eq, insertIdx_length_append]
    refine ⟨before,after,hsplit,hregions,hfree.1,hfree.2,?_,?_⟩
    · apply Array.toList_inj.mp
      rw [Array.toList_map, hregions, toList_insertIdxIfInBounds, h.starts_eq, Array.toList_map,
        hsplit.regions_eq, List.map_append, List.map_append, List.map_cons]
      simpa only [List.length_map] using
        insertIdx_length_append (before.map (·.start)) (after.map (·.start)) r.start
    · have hsorted := h.sorted
      rw [hsplit.regions_eq, List.pairwise_append] at hsorted
      obtain ⟨hbefore,hafter,hacross⟩ := hsorted
      dsimp only
      rw [hregions, List.pairwise_append, List.pairwise_cons]
      refine ⟨hbefore,⟨fun q hq => UInt64.le_of_lt (hsplit.lt_after q hq),hafter⟩,?_⟩
      intro p hp q hq
      rcases List.mem_cons.mp hq with rfl | hq
      · exact hsplit.before_le p hp
      · exact hacross p hp q hq

/-- A range is looked for in the last region before the split at its address. -/
theorem Indexed.locate?_eq {m : Memory} (h : m.Indexed) (address : UInt64) (length : Nat) :
    ∃ before after, m.SplitAt address before after ∧
      m.locate? address length = before.getLast?.bind fun r =>
        if (address - r.start).toNat + length ≤ r.size then
          some (before.length - 1,r,(address - r.start).toNat)
        else none := by
  obtain ⟨before,after,hsplit⟩ := h.exists_splitAt address
  refine ⟨before,after,hsplit,?_⟩
  unfold locate? indexBefore?
  rw [hsplit.count_eq]
  cases hlen : before.length with
  | zero => rw [List.length_eq_zero_iff.mp hlen]; rfl
  | succ n =>
    dsimp only
    rw [← hsplit.last_before hlen]
    rfl

/-- A range that is found lies in a region that starts at or before it, and later regions start
after it. -/
theorem Indexed.locate?_some {m : Memory} (h : m.Indexed) {address : UInt64} {length : Nat}
    {found : Nat × Region × Nat} (he : m.locate? address length = some found) :
    ∃ before r after, m.regions.toList = before ++ r :: after ∧
      (∀ q ∈ after, address < q.start) ∧ r.Contains address length ∧
      found = (before.length,r,address.toNat - r.start.toNat) := by
  obtain ⟨before,after,hsplit,heq⟩ := h.locate?_eq address length
  rw [heq] at he
  obtain ⟨r,hlast,hfound⟩ := Option.bind_eq_some_iff.mp he
  obtain ⟨l,rfl⟩ := List.getLast?_eq_some_iff.mp hlast
  have hle := hsplit.before_le r (by simp)
  have hoffset := UInt64.toNat_sub_of_le address r.start hle
  have hnat := UInt64.le_iff_toNat_le.mp hle
  split at hfound
  next hfits =>
    cases hfound
    refine ⟨l,r,after,?_,hsplit.lt_after,⟨hnat,by omega⟩,?_⟩
    · rw [hsplit.regions_eq, List.append_assoc, List.singleton_append]
    · rw [hoffset, List.length_append, List.length_singleton, Nat.add_sub_cancel]
  · cases hfound

theorem size_overwrite (bytes : Array UInt8) (offset : Nat) (data : List UInt8) :
    (overwrite bytes offset data).size = bytes.size := by
  induction data generalizing bytes offset with
  | nil => rfl
  | cons b rest ih => rw [overwrite, ih, Array.size_setIfInBounds]

theorem getElem?_overwrite {bytes : Array UInt8} {offset : Nat} {data : List UInt8}
    (h : offset + data.length ≤ bytes.size) (k : Nat) :
    (overwrite bytes offset data)[k]? =
      (if offset ≤ k then data[k - offset]? else none).or bytes[k]? := by
  induction data generalizing bytes offset with
  | nil => simp [overwrite]
  | cons b rest ih =>
    rw [List.length_cons] at h
    rw [overwrite, ih (by rw [Array.size_setIfInBounds]; omega)]
    rcases Nat.lt_trichotomy k offset with hlt | rfl | hgt
    · rw [if_neg (by omega), if_neg (by omega), Array.getElem?_setIfInBounds_ne (by omega)]
    · rw [if_neg (by omega), if_pos (Nat.le_refl _), Nat.sub_self,
        Array.getElem?_setIfInBounds_self_of_lt (by omega)]
      rfl
    · obtain ⟨d,hd⟩ : ∃ d, k - offset = d + 1 := ⟨k - offset - 1,by omega⟩
      have hd' : k - (offset + 1) = d := by omega
      rw [if_pos (by omega), if_pos (by omega), hd, hd', List.getElem?_cons_succ,
        Array.getElem?_setIfInBounds_ne (by omega)]

/-- What a write does to the region it falls into. -/
def rewrite (r : Region) (address : UInt64) (data : List UInt8) : Region :=
  { r with bytes := overwrite r.bytes (address.toNat - r.start.toNat) data }

theorem size_rewrite (r : Region) (address : UInt64) (data : List UInt8) :
    (rewrite r address data).size = r.size := size_overwrite _ _ _

/-- All that a write does. One that fails changes nothing: the range is looked for before it is
written to. -/
theorem write_eq (m : Memory) (address : UInt64) (data : List UInt8) :
    (write address data).run m =
      (m.locate? address data.length).elim (.error (.unmapped address data.length) m) fun found =>
        .ok () ⟨m.starts,m.regions.setIfInBounds found.1
          ⟨found.2.1.start,overwrite found.2.1.bytes found.2.2 data⟩⟩ := by
  simp only [write, EStateM.run_bind, EStateM.run_get]
  cases m.locate? address data.length with
  | none => rfl
  | some found => rfl

theorem eq_of_write_error {m m' : Memory} {address : UInt64} {data : List UInt8} {e : InspectError}
    (he : (write address data).run m = .error e m') : m' = m := by
  rw [write_eq] at he
  cases hl : m.locate? address data.length with
  | none =>
    rw [hl] at he
    cases he
    rfl
  | some found =>
    rw [hl] at he
    cases he

/-- A write that succeeds falls into one region, and changes no other and no start. -/
theorem Indexed.write_ok {m m' : Memory} {address : UInt64} {data : List UInt8} (h : m.Indexed)
    (he : (write address data).run m = .ok () m') :
    ∃ before r after, m.regions.toList = before ++ r :: after ∧
      m'.regions.toList = before ++ rewrite r address data :: after ∧
      r.Contains address data.length ∧ m'.Indexed := by
  rw [write_eq] at he
  cases hl : m.locate? address data.length with
  | none =>
    rw [hl] at he
    cases he
  | some found =>
    obtain ⟨before,r,after,hregions,_,hcontains,rfl⟩ := h.locate?_some hl
    rw [hl] at he
    obtain rfl : ⟨m.starts,m.regions.setIfInBounds before.length (rewrite r address data)⟩ = m' :=
      (EStateM.Result.ok.inj he).2
    have hset : (m.regions.setIfInBounds before.length (rewrite r address data)).toList =
        before ++ rewrite r address data :: after := by
      rw [Array.toList_setIfInBounds, hregions, List.set_append_right _ _ (Nat.le_refl _),
        Nat.sub_self, List.set_cons_zero]
    refine ⟨before,r,after,hregions,hset,hcontains,?_,?_⟩
    · apply Array.toList_inj.mp
      rw [Array.toList_map, hset, h.starts_eq, Array.toList_map, hregions]
      simp only [List.map_append, List.map_cons, rewrite]
    · have hsorted := h.sorted
      rw [hregions] at hsorted
      dsimp only
      rw [hset]
      simpa only [List.pairwise_append, List.pairwise_cons, List.forall_mem_cons, rewrite] using
        hsorted

end Memory
end ValueInspector
