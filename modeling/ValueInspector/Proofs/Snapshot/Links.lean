import Mathlib.Data.List.Nodup
import ValueInspector.Proofs.Snapshot.Reading

/-! # Linked records in a snapshot

A linked record has a pointer to another record of its type and a number. Its two members are found
and read wherever their bytes are stored, and its pointer leads to the next record unless it is null.
-/
namespace ValueInspector.Snapshot

/-- A type for records that point at another one and hold a number. -/
structure HasLinks (s : Snapshot) (link int : TypeDesc) : Prop where
  link_plain : link.pointers = 0
  int_plain : int.pointers = 0
  link_entry : ∃ name size, s.entries[link.id.toNat]? =
    some ⟨name,.record size [⟨"next",0,link.pointer⟩,⟨"value",8,int⟩]⟩
  int_entry : ∃ name, s.entries[int.id.toNat]? = some ⟨name,.primitive .i32⟩

/-- A record at an address. -/
structure StoresLink (s : Snapshot) (address next : UInt64) (payload : Int32) : Prop where
  next : s.memory.Stores address (toLittleEndian 8 next.toNat)
  value : s.memory.Stores (address + 8) (toLittleEndian 4 payload.toUInt32.toNat)

instance (s : Snapshot) (address next : UInt64) (payload : Int32) :
    Decidable (s.StoresLink address next payload) :=
  decidable_of_iff (_ ∧ _) ⟨fun h => ⟨h.1,h.2⟩,fun h => ⟨h.next,h.value⟩⟩

namespace HasLinks
variable {s : Snapshot} {link int : TypeDesc} (h : s.HasLinks link int)
include h

theorem isPointer_link : link.isPointer = false := by simp [TypeDesc.isPointer, h.link_plain]

theorem isPointer_int : int.isPointer = false := by simp [TypeDesc.isPointer, h.int_plain]

theorem isPointer_next : link.pointer.isPointer = true := by
  simp [TypeDesc.isPointer, TypeDesc.pointer, h.link_plain]

theorem pointee?_next : link.pointer.pointee? = some link := by
  rcases link with ⟨id,pointers,base⟩
  obtain rfl : pointers = 0 := h.link_plain
  simp [TypeDesc.pointer, TypeDesc.pointee?]

variable (a : UInt64)

theorem fieldNames_link : s.fieldNames ⟨a,link⟩ = .ok ["next","value"] := by
  obtain ⟨_,_,hentry⟩ := h.link_entry
  exact fieldNames_of_record (v := ⟨a,link⟩) h.isPointer_link hentry

theorem readField_next : s.readField ⟨a,link⟩ "next" = .ok ⟨a,link.pointer⟩ := by
  obtain ⟨_,_,hentry⟩ := h.link_entry
  exact readField_eq_ok_iff.mpr ⟨h.isPointer_link,_,_,_,_,hentry,rfl,by simp⟩

theorem readField_value : s.readField ⟨a,link⟩ "value" = .ok ⟨a + 8,int⟩ := by
  obtain ⟨_,_,hentry⟩ := h.link_entry
  exact readField_eq_ok_iff.mpr ⟨h.isPointer_link,_,_,_,_,hentry,rfl,rfl⟩

theorem fieldNames_int : s.fieldNames ⟨a,int⟩ = .ok [] := by
  obtain ⟨_,hentry⟩ := h.int_entry
  exact fieldNames_of_primitive (v := ⟨a,int⟩) h.isPointer_int hentry

variable {a} {next : UInt64} {payload : Int32} (hs : s.memory.Stacked)
  (hstored : s.StoresLink a next payload)
include hs hstored

theorem readInteger_next : s.readInteger ⟨a,link.pointer⟩ = .ok next.toInt64 :=
  readInteger_of_readPointer h.isPointer_next
    (readPointer_stored (v := ⟨a,link.pointer⟩) hs hstored.next)

theorem formatValue_next : s.formatValue ⟨a,link.pointer⟩ = .ok (Text.hexWord next) :=
  formatValue_of_readPointer h.isPointer_next
    (readPointer_stored (v := ⟨a,link.pointer⟩) hs hstored.next)

theorem dereference_next (hnext : next ≠ 0) :
    s.dereference ⟨a,link.pointer⟩ = .ok ⟨next,link⟩ := by
  obtain ⟨_,_,hentry⟩ := h.link_entry
  exact dereference_of_readPointer (readPointer_stored (v := ⟨a,link.pointer⟩) hs hstored.next)
    h.pointee?_next hentry nofun hnext

theorem formatValue_value : s.formatValue ⟨a + 8,int⟩ = .ok (toString payload.toInt) := by
  obtain ⟨_,hentry⟩ := h.int_entry
  exact formatValue_i32_stored (v := ⟨a + 8,int⟩) hs h.isPointer_int hentry hstored.value

end HasLinks

/-- Linked records at distinct addresses: each but the last points at the next one. -/
structure Chain (s : Snapshot) (n : Nat) (a : Nat → UInt64) (p : Nat → Int32) (last : UInt64) :
    Prop where
  nonzero : ∀ k < n, a k ≠ 0
  distinct : ∀ j < n, ∀ k < n, a j = a k → j = k
  stored : ∀ k < n, s.StoresLink (a k) (if k + 1 < n then a (k + 1) else last) (p k)

/-- The addresses along a list, and the null address past its end. -/
def alongList (n : Nat) (a : Nat → UInt64) (j : Nat) : UInt64 := if j < n then a j else 0

namespace Chain
variable {s : Snapshot} {n : Nat} {a : Nat → UInt64} {p : Nat → Int32}

theorem stored_list (h : s.Chain n a p 0) {j : Nat} (hj : j < n) :
    s.StoresLink (alongList n a j) (alongList n a (j + 1)) (p j) := by
  have hstored := h.stored j hj
  rwa [alongList, if_pos hj]

theorem nodup_list {last : UInt64} (h : s.Chain n a p last) :
    ((List.range' 1 (n - 1)).map (alongList n a)).Nodup := by
  refine List.Nodup.map_on (fun x hx y hy hxy => ?_) (List.nodup_range' ..)
  rw [List.mem_range'_1] at hx hy
  rw [alongList, alongList, if_pos (by omega), if_pos (by omega)] at hxy
  exact h.distinct x (by omega) y (by omega) hxy

/-- Along a ring the last record points at the first one. -/
theorem stored_ring (h : s.Chain n a p (a 0)) (hn : 1 ≤ n) (j : Nat) :
    s.StoresLink (a (j % n)) (a ((j + 1) % n)) (p (j % n)) := by
  have hlt : j % n < n := Nat.mod_lt j hn
  have hstored := h.stored (j % n) hlt
  have hnext : (j + 1) % n = (j % n + 1) % n := (Nat.mod_add_mod j n 1).symm
  rw [hnext]
  rcases Nat.lt_or_ge (j % n + 1) n with hin | hend
  · rwa [if_pos hin, ← Nat.mod_eq_of_lt hin] at hstored
  · have hfull : j % n + 1 = n := by omega
    rw [if_neg (Nat.not_lt.mpr hend)] at hstored
    rwa [hfull, Nat.mod_self]

theorem nodup_ring {last : UInt64} (h : s.Chain n a p last) :
    ((List.range' 1 n).map fun j => a (j % n)).Nodup := by
  refine List.Nodup.map_on (fun x hx y hy hxy => ?_) (List.nodup_range' ..)
  rw [List.mem_range'_1] at hx hy
  have hmod : ∀ z, 1 ≤ z ∧ z < 1 + n → z % n = if z < n then z else 0 := fun z hz => by
    split
    next hlt => exact Nat.mod_eq_of_lt hlt
    next hge =>
      obtain rfl : z = n := by omega
      exact Nat.mod_self z
  have hsame := h.distinct (x % n) (Nat.mod_lt x (by omega)) (y % n) (Nat.mod_lt y (by omega)) hxy
  rw [hmod x hx, hmod y hy] at hsame
  split at hsame <;> split at hsame <;> omega

end Chain
end ValueInspector.Snapshot
