import ValueInspector.Proofs.Memory.Regions
import ValueInspector.Snapshot.Builder

/-! # Memory as a history of steps

What a memory holds is told by the steps that built it: a byte is what the latest successful write
to its address put there, or else what its region was mapped with. The history keeps the successful
steps, and reading agrees with it after every step.
-/
namespace ValueInspector

/-- A builder step that concerns the memory. -/
inductive MemoryStep where
  | map (start : UInt64) (bytes : Array UInt8)
  | mapZeroed (start : UInt64) (length : Nat)
  | write (address : UInt64) (data : List UInt8)
  | writeWord (address value : UInt64)

/-- The byte that data written to an address put at another. -/
def writtenAt? (address : UInt64) (data : List UInt8) (place : Nat) : Option UInt8 :=
  if address.toNat ≤ place then data[place - address.toNat]? else none

section Written
variable {r : Region} {address : UInt64} {data : List UInt8} (hc : r.Contains address data.length)
include hc

theorem getElem?_rewrite (k : Nat) :
    (Memory.rewrite r address data).bytes[k]? =
      (writtenAt? address data (r.start.toNat + k)).or r.bytes[k]? := by
  obtain ⟨hle,hend⟩ := hc
  have hsize : r.size = r.bytes.size := rfl
  rw [Memory.rewrite, Memory.getElem?_overwrite (by omega), writtenAt?]
  by_cases hk : address.toNat - r.start.toNat ≤ k
  · have hsub : r.start.toNat + k - address.toNat = k - (address.toNat - r.start.toNat) := by omega
    rw [if_pos hk, if_pos (by omega), hsub]
  · rw [if_neg hk, if_neg (by omega)]

/-- Outside a region that holds the range nothing is written. -/
theorem writtenAt?_outside {place : Nat}
    (hplace : place < r.start.toNat ∨ r.start.toNat + r.size ≤ place) :
    writtenAt? address data place = none := by
  obtain ⟨hle,hend⟩ := hc
  unfold writtenAt?
  split
  · rw [List.getElem?_eq_none_iff]
    omega
  · rfl

end Written

namespace MemoryStep

/-- What a step does to a memory. -/
def onMemory : MemoryStep → Change Memory Unit
  | .map start bytes => Memory.insert ⟨start,bytes⟩
  | .mapZeroed start length => Memory.insert ⟨start,Array.replicate length 0⟩
  | .write address data => Memory.write address data
  | .writeWord address value => Memory.write address (toLittleEndian 8 value.toNat)

def apply : MemoryStep → Change SnapshotBuilder Unit
  | .map start bytes => SnapshotBuilder.map start bytes
  | .mapZeroed start length => SnapshotBuilder.mapZeroed start length
  | .write address data => SnapshotBuilder.write address data
  | .writeWord address value => SnapshotBuilder.writeWord address value

/-- The region a step maps, with the bytes it has then. -/
def region? : MemoryStep → Option Region
  | .map start bytes => some ⟨start,bytes⟩
  | .mapZeroed start length => some ⟨start,Array.replicate length 0⟩
  | _ => none

/-- The byte a step writes at an address. -/
def byteAt? (place : Nat) : MemoryStep → Option UInt8
  | .write address data => writtenAt? address data place
  | .writeWord address value => writtenAt? address (toLittleEndian 8 value.toNat) place
  | _ => none

end MemoryStep

namespace SnapshotBuilder
variable {b b' : SnapshotBuilder} {c : Change Memory Unit}

theorem onMemory_eq_ok_iff : (onMemory c).run b = .ok () b' ↔
    ∃ m, c.run b.snapshot.memory = .ok () m ∧ b' = b.overMemory m := by
  rw [EStateM.run, onMemory]
  cases c.run b.snapshot.memory with
  | ok _ m => simp [Change.mapState, eq_comm]
  | error e m => simp [Change.mapState]

theorem onMemory_eq_error_iff {e : InspectError} : (onMemory c).run b = .error e b' ↔
    ∃ m, c.run b.snapshot.memory = .error e m ∧ b' = b.overMemory m := by
  rw [EStateM.run, onMemory]
  cases c.run b.snapshot.memory with
  | ok _ m => simp [Change.mapState]
  | error e' m => simp [Change.mapState, eq_comm, and_assoc]

end SnapshotBuilder

namespace MemoryStep
variable {s : MemoryStep} {b b' : SnapshotBuilder}

theorem apply_eq (s : MemoryStep) : s.apply = SnapshotBuilder.onMemory s.onMemory := by
  cases s <;> rfl

/-- A step that succeeds adds the region it maps, or else overwrites the bytes it writes. -/
theorem apply_ok (he : s.apply.run b = .ok () b') :
    (∃ r, s.region? = some r ∧ (∀ place, s.byteAt? place = none) ∧
      (Memory.insert r).run b.snapshot.memory = .ok () b'.snapshot.memory) ∨
    ∃ address data, s.region? = none ∧
      (∀ place, s.byteAt? place = writtenAt? address data place) ∧
      (Memory.write address data).run b.snapshot.memory = .ok () b'.snapshot.memory := by
  rw [apply_eq, SnapshotBuilder.onMemory_eq_ok_iff] at he
  obtain ⟨m,he,rfl⟩ := he
  cases s with
  | map start bytes => exact .inl ⟨_,rfl,fun _ => rfl,he⟩
  | mapZeroed start length => exact .inl ⟨_,rfl,fun _ => rfl,he⟩
  | write address data => exact .inr ⟨_,_,rfl,fun _ => rfl,he⟩
  | writeWord address value => exact .inr ⟨_,_,rfl,fun _ => rfl,he⟩

theorem eq_of_onMemory_error {m m' : Memory} {e : InspectError}
    (he : s.onMemory.run m = .error e m') : m' = m := by
  cases s with
  | map start bytes => exact Memory.eq_of_insert_error he
  | mapZeroed start length => exact Memory.eq_of_insert_error he
  | write address data => exact Memory.eq_of_write_error he
  | writeWord address value => exact Memory.eq_of_write_error he

/-- A step that fails changes nothing. -/
theorem eq_of_apply_error {e : InspectError} (he : s.apply.run b = .error e b') : b' = b := by
  rw [apply_eq, SnapshotBuilder.onMemory_eq_error_iff] at he
  obtain ⟨m,he,rfl⟩ := he
  rw [eq_of_onMemory_error he]
  rfl

end MemoryStep

/-- A builder, and the steps that succeeded on it, the latest first. -/
structure BuilderHistory where
  builder : SnapshotBuilder
  succeeded : List MemoryStep

namespace BuilderHistory

def start : BuilderHistory := ⟨.empty,[]⟩

/-- The builder that a step leaves, and the step, if it succeeded. -/
def next (h : BuilderHistory) (s : MemoryStep) : BuilderHistory :=
  match s.apply.run h.builder with
  | .ok _ b => ⟨b,s :: h.succeeded⟩
  | .error _ b => ⟨b,h.succeeded⟩

/-- The history of steps on an empty builder. -/
def ofSteps (steps : List MemoryStep) : BuilderHistory := steps.foldl next start

def memory (h : BuilderHistory) : Memory := h.builder.snapshot.memory

/-- The regions that were accepted, with the bytes they were mapped with. -/
def mapped (h : BuilderHistory) : List Region := h.succeeded.filterMap (·.region?)

/-- The byte the latest successful write to an address put there. -/
def latestWrite? (h : BuilderHistory) (place : Nat) : Option UInt8 :=
  h.succeeded.findSome? (·.byteAt? place)

/-- A region of the memory and the one it was mapped as: the same span, and the bytes overwritten by
the latest writes. -/
structure Holds (h : BuilderHistory) (r q : Region) : Prop where
  start_eq : q.start = r.start
  size_eq : q.size = r.size
  bytes_eq : ∀ k < r.size, q.bytes[k]? = (h.latestWrite? (r.start.toNat + k)).or r.bytes[k]?

/-- The memory and its history agree. -/
structure Tracks (h : BuilderHistory) : Prop where
  laid : h.memory.Laid
  held : ∀ r ∈ h.mapped, ∃ q ∈ h.memory.regions.toList, h.Holds r q
  known : ∀ q ∈ h.memory.regions.toList, ∃ r ∈ h.mapped, h.Holds r q
  inside : ∀ place byte, h.latestWrite? place = some byte → ∃ q ∈ h.memory.regions.toList,
    q.start.toNat ≤ place ∧ place < q.start.toNat + q.size

theorem tracks_start : start.Tracks where
  laid := Memory.laid_empty
  held _ hr := by cases hr
  known _ hq := by cases hq
  inside _ _ hw := by cases hw

section Step
variable {h h' : BuilderHistory} {s : MemoryStep} (hs : h'.succeeded = s :: h.succeeded)
include hs

theorem mapped_succ : h'.mapped = s.region?.toList ++ h.mapped := by
  unfold mapped
  rw [hs]
  cases hr : s.region? <;> simp [hr]

theorem latestWrite?_succ (place : Nat) :
    h'.latestWrite? place = (s.byteAt? place).or (h.latestWrite? place) := by
  unfold latestWrite?
  rw [hs, List.findSome?_cons]
  cases s.byteAt? place <;> rfl

/-- Mapping a region keeps the history in step: no earlier write reached into it. -/
theorem Tracks.map_ok {r : Region} (ht : h.Tracks) (he : (Memory.insert r).run h.memory = .ok () h'.memory)
    (hr : r.Fits) (hregion : s.region? = some r) (hbyte : ∀ place, s.byteAt? place = none) :
    h'.Tracks := by
  obtain ⟨hlaid,hmem,hbeside⟩ := ht.laid.insert_ok he hr
  have hmapped : h'.mapped = r :: h.mapped := by
    rw [mapped_succ hs, hregion]
    rfl
  have hwrite : ∀ place, h'.latestWrite? place = h.latestWrite? place := fun place => by
    rw [latestWrite?_succ hs, hbyte, Option.none_or]
  have hholds : ∀ {p q : Region}, h.Holds p q → h'.Holds p q := fun hpq =>
    ⟨hpq.start_eq,hpq.size_eq,fun k hk => by rw [hwrite, hpq.bytes_eq k hk]⟩
  have hfresh : h'.Holds r r := by
    refine ⟨rfl,rfl,fun k hk => ?_⟩
    rw [hwrite]
    cases hw : h.latestWrite? (r.start.toNat + k) with
    | none => rfl
    | some byte =>
      obtain ⟨q,hq,hge,hlt⟩ := ht.inside _ _ hw
      rcases hbeside q hq with hbefore | hafter
      · omega
      · omega
  refine ⟨hlaid,?_,?_,?_⟩
  · rw [hmapped]
    intro p hp
    rcases List.mem_cons.mp hp with rfl | hp
    · exact ⟨p,(hmem p).mpr (.inl rfl),hfresh⟩
    · obtain ⟨q,hq,hpq⟩ := ht.held p hp
      exact ⟨q,(hmem q).mpr (.inr hq),hholds hpq⟩
  · rw [hmapped]
    intro q hq
    rcases (hmem q).mp hq with rfl | hq
    · exact ⟨q,List.mem_cons_self,hfresh⟩
    · obtain ⟨p,hp,hpq⟩ := ht.known q hq
      exact ⟨p,List.mem_cons_of_mem _ hp,hholds hpq⟩
  · intro place byte hw
    rw [hwrite] at hw
    obtain ⟨q,hq,hspan⟩ := ht.inside place byte hw
    exact ⟨q,(hmem q).mpr (.inr hq),hspan⟩

/-- Writing keeps the history in step: only the region written to has other bytes. -/
theorem Tracks.write_ok {address : UInt64} {data : List UInt8} (ht : h.Tracks)
    (he : (Memory.write address data).run h.memory = .ok () h'.memory) (hregion : s.region? = none)
    (hbyte : ∀ place, s.byteAt? place = writtenAt? address data place) : h'.Tracks := by
  obtain ⟨hlaid,r,others,hc,hmem,hmem',hbeside⟩ := ht.laid.write_ok he
  have hmapped : h'.mapped = h.mapped := by
    rw [mapped_succ hs, hregion]
    rfl
  have hwrite : ∀ place, h'.latestWrite? place =
      (writtenAt? address data place).or (h.latestWrite? place) := fun place => by
    rw [latestWrite?_succ hs, hbyte]
  have hsame : ∀ {p q : Region}, q ∈ others → h.Holds p q → h'.Holds p q := by
    intro p q hq hpq
    refine ⟨hpq.start_eq,hpq.size_eq,fun k hk => ?_⟩
    have hstart := congrArg UInt64.toNat hpq.start_eq
    have hsize := hpq.size_eq
    have houtside : p.start.toNat + k < r.start.toNat ∨
        r.start.toNat + r.size ≤ p.start.toNat + k := by
      rcases hbeside q hq with hbefore | hafter
      · omega
      · omega
    rw [hwrite, writtenAt?_outside hc houtside, Option.none_or, hpq.bytes_eq k hk]
  have hrewritten : ∀ {p : Region}, h.Holds p r → h'.Holds p (Memory.rewrite r address data) := by
    intro p hpr
    refine ⟨hpr.start_eq,(Memory.size_rewrite _ _ _).trans hpr.size_eq,fun k hk => ?_⟩
    rw [getElem?_rewrite hc, hpr.bytes_eq k hk, hpr.start_eq, hwrite, Option.or_assoc]
  refine ⟨hlaid,?_,?_,?_⟩
  · rw [hmapped]
    intro p hp
    obtain ⟨q,hq,hpq⟩ := ht.held p hp
    rcases (hmem q).mp hq with rfl | hq
    · exact ⟨_,(hmem' _).mpr (.inl rfl),hrewritten hpq⟩
    · exact ⟨q,(hmem' q).mpr (.inr hq),hsame hq hpq⟩
  · rw [hmapped]
    intro q hq
    rcases (hmem' q).mp hq with rfl | hq
    · obtain ⟨p,hp,hpr⟩ := ht.known r ((hmem r).mpr (.inl rfl))
      exact ⟨p,hp,hrewritten hpr⟩
    · obtain ⟨p,hp,hpq⟩ := ht.known q ((hmem q).mpr (.inr hq))
      exact ⟨p,hp,hsame hq hpq⟩
  · intro place byte hw
    by_cases hin : r.start.toNat ≤ place ∧ place < r.start.toNat + r.size
    · refine ⟨_,(hmem' _).mpr (.inl rfl),hin.1,?_⟩
      rw [Memory.size_rewrite]
      exact hin.2
    · rw [hwrite, writtenAt?_outside hc (by omega), Option.none_or] at hw
      obtain ⟨q,hq,hspan⟩ := ht.inside place byte hw
      rcases (hmem q).mp hq with rfl | hq
      · exact absurd hspan hin
      · exact ⟨q,(hmem' q).mpr (.inr hq),hspan⟩

end Step

/-- A failing step keeps everything, a successful one the mapped regions so far. -/
theorem mapped_next_subset (h : BuilderHistory) (s : MemoryStep) :
    ∀ r ∈ h.mapped, r ∈ (h.next s).mapped := by
  intro r hr
  unfold next
  cases s.apply.run h.builder with
  | error e b => exact hr
  | ok _ b =>
    dsimp only
    rw [mapped_succ (h := h) (s := s) rfl]
    exact List.mem_append_right _ hr

theorem mapped_foldl_subset (h : BuilderHistory) (steps : List MemoryStep) :
    ∀ r ∈ h.mapped, r ∈ (steps.foldl next h).mapped := by
  induction steps generalizing h with
  | nil => exact fun r hr => hr
  | cons s rest ih => exact fun r hr => ih (h.next s) r (mapped_next_subset h s r hr)

/-- Every step keeps the memory and its history in agreement. -/
theorem Tracks.next {h : BuilderHistory} (ht : h.Tracks) (s : MemoryStep)
    (hfits : ∀ r ∈ (h.next s).mapped, r.Fits) : (h.next s).Tracks := by
  unfold BuilderHistory.next at hfits ⊢
  cases he : s.apply.run h.builder with
  | error e b =>
    rw [MemoryStep.eq_of_apply_error he]
    exact ht
  | ok _ b =>
    rw [he] at hfits
    have hs : (⟨b,s :: h.succeeded⟩ : BuilderHistory).succeeded = s :: h.succeeded := rfl
    have hmapped := mapped_succ hs
    dsimp only at hfits ⊢
    rw [hmapped] at hfits
    rcases MemoryStep.apply_ok he with ⟨r,hregion,hbyte,hinsert⟩ | ⟨_,_,hregion,hbyte,hwrite⟩
    · have hr : r.Fits := hfits r (List.mem_append_left _ (by simp [hregion]))
      exact ht.map_ok hs hinsert hr hregion hbyte
    · exact ht.write_ok hs hwrite hregion hbyte

theorem Tracks.foldl {h : BuilderHistory} (ht : h.Tracks) (steps : List MemoryStep)
    (hfits : ∀ r ∈ (steps.foldl BuilderHistory.next h).mapped, r.Fits) :
    (steps.foldl BuilderHistory.next h).Tracks := by
  induction steps generalizing h with
  | nil => exact ht
  | cons s rest ih =>
    exact ih (ht.next s fun r hr => hfits r (mapped_foldl_subset _ rest r hr)) hfits

/-- Bytes of a range of a region whose bytes agree with the history. -/
theorem Holds.getElem?_extract {h : BuilderHistory} {r q : Region} (hq : h.Holds r q)
    {address : UInt64} {length : Nat} (hc : r.Contains address length) {k : Nat}
    (hk : k < length) :
    (q.bytes.extract (address.toNat - q.start.toNat)
      (address.toNat - q.start.toNat + length)).toList[k]? =
    (h.latestWrite? (address.toNat + k)).or r.bytes[address.toNat + k - r.start.toNat]? := by
  obtain ⟨hle,hend⟩ := hc
  have hsize : q.bytes.size = r.size := hq.size_eq
  have hoffset : address.toNat - r.start.toNat + k = address.toNat + k - r.start.toNat := by omega
  have hplace : r.start.toNat + (address.toNat + k - r.start.toNat) = address.toNat + k := by omega
  rw [hq.start_eq, Array.getElem?_toList, Array.getElem?_extract, if_pos (by omega), hoffset,
    hq.bytes_eq _ (by omega), hplace]

/-- After any steps a range is readable exactly when one accepted region holds all of it. Each byte
is what the latest successful write to its address put there, or else what the region was mapped
with. A step that fails changes no read. -/
theorem read_ofSteps (steps : List MemoryStep) (hfits : ∀ r ∈ (ofSteps steps).mapped, r.Fits)
    (address : UInt64) (length : Nat) (hn : 1 ≤ length) :
    ((∃ bytes, (ofSteps steps).memory.read address length = .ok bytes) ↔
      ∃ r ∈ (ofSteps steps).mapped, r.Contains address length) ∧
    (∀ bytes, (ofSteps steps).memory.read address length = .ok bytes →
      ∀ r ∈ (ofSteps steps).mapped, r.Contains address length →
        bytes.length = length ∧ ∀ k < length, bytes[k]? =
          ((ofSteps steps).latestWrite? (address.toNat + k)).or
            r.bytes[address.toNat + k - r.start.toNat]?) ∧
    ∀ s e b, s.apply.run (ofSteps steps).builder = .error e b → ∀ address length,
      (ofSteps (steps ++ [s])).memory.read address length =
        (ofSteps steps).memory.read address length := by
  have ht : (ofSteps steps).Tracks := tracks_start.foldl steps hfits
  have hread : ∀ r ∈ (ofSteps steps).mapped, r.Contains address length →
      ∃ q, (ofSteps steps).Holds r q ∧ (ofSteps steps).memory.read address length =
        .ok (q.bytes.extract (address.toNat - q.start.toNat)
          (address.toNat - q.start.toNat + length)).toList := by
    intro r hr hc
    obtain ⟨q,hq,hrq⟩ := ht.held r hr
    have hcq : q.Contains address length := by
      unfold Region.Contains
      rw [hrq.start_eq, hrq.size_eq]
      exact hc
    exact ⟨q,hrq,ht.laid.read_eq hq hcq hn⟩
  refine ⟨⟨?_,?_⟩,?_,?_⟩
  · rintro ⟨bytes,hbytes⟩
    obtain ⟨q,hq,hc⟩ := ht.laid.toIndexed.read_ok hbytes
    obtain ⟨r,hr,hrq⟩ := ht.known q hq
    refine ⟨r,hr,?_⟩
    unfold Region.Contains at hc ⊢
    rw [← hrq.start_eq, ← hrq.size_eq]
    exact hc
  · rintro ⟨r,hr,hc⟩
    obtain ⟨q,_,heq⟩ := hread r hr hc
    exact ⟨_,heq⟩
  · intro bytes hbytes r hr hc
    obtain ⟨q,hrq,heq⟩ := hread r hr hc
    obtain rfl := Except.ok.inj (heq.symm.trans hbytes)
    refine ⟨?_,fun k hk => hrq.getElem?_extract hc hk⟩
    have hsize : q.bytes.size = r.size := hrq.size_eq
    have hstart := congrArg UInt64.toNat hrq.start_eq
    obtain ⟨hle,hend⟩ := hc
    rw [Array.length_toList, Array.size_extract]
    omega
  · intro s e b he address length
    have hb := MemoryStep.eq_of_apply_error he
    unfold ofSteps at he hb ⊢
    rw [List.foldl_append, List.foldl_cons, List.foldl_nil, next, he, hb]

/-- A region refused for overlap, an empty region at the start of another, overlapping writes and a
write that leaves its region. -/
def clashingSteps : List MemoryStep :=
  [.map 4096 #[1,2,3,4],.map 4098 #[9],.mapZeroed 4100 0,.mapZeroed 4100 8,.write 4098 [7,7],
    .write 4099 [5],.write 4099 [8,8]]

theorem read_ofSteps_clashing :
    ∃ bytes, (ofSteps clashingSteps).memory.read 4097 3 = .ok bytes ∧ bytes.length = 3 ∧
      bytes[0]? = some 2 ∧ bytes[1]? = some 7 ∧ bytes[2]? = some 5 := by
  have hfits : ∀ r ∈ (ofSteps clashingSteps).mapped, r.Fits := by decide +kernel
  have hr : ⟨4096,#[1,2,3,4]⟩ ∈ (ofSteps clashingSteps).mapped := by decide +kernel
  have hc : (⟨4096,#[1,2,3,4]⟩ : Region).Contains 4097 3 := ⟨by decide,by decide⟩
  obtain ⟨hiff,hbytes,_⟩ := read_ofSteps clashingSteps hfits 4097 3 (by decide)
  obtain ⟨bytes,hread⟩ := hiff.mpr ⟨_,hr,hc⟩
  obtain ⟨hlength,hb⟩ := hbytes bytes hread _ hr hc
  refine ⟨bytes,hread,hlength,(hb 0 (by decide)).trans ?_,(hb 1 (by decide)).trans ?_,
    (hb 2 (by decide)).trans ?_⟩ <;> decide +kernel

end BuilderHistory
end ValueInspector
