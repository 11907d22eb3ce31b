import ValueInspector.Error

/-! # Captured memory

A memory is a set of captured regions, indexed by start address. A lookup searches for the last
region that starts at or before the address, by halving, so the starts are kept in ascending order.
A read or a write must lie inside one region. The end of a region is capped at the last address.
-/
namespace ValueInspector

structure Region where
  start : UInt64
  bytes : Array UInt8
deriving DecidableEq, Inhabited

namespace Region

def size (r : Region) : Nat := r.bytes.size

/-- The address after the last byte, or the last address if there is none. -/
def stop (r : Region) : Nat := min (r.start.toNat + r.size) (UInt64.size - 1)

end Region

/-- Parallel arrays: the start of each region, and the regions. -/
structure Memory where
  starts : Array UInt64
  regions : Array Region
deriving Inhabited

namespace Memory

def empty : Memory := ⟨#[], #[]⟩

/-- Halves the span `[low, high)` until it is empty; starts before it are at most `address`, starts
from its end on are greater. -/
def searchFrom (starts : Array UInt64) (address : UInt64) (low high : Nat)
    (h : high ≤ starts.size) : Nat :=
  if hlt : low < high then
    let middle := low + (high - low) / 2
    have _hm : middle < starts.size := by omega
    if starts[middle] ≤ address then searchFrom starts address (middle + 1) high h
    else searchFrom starts address low middle (by omega)
  else low
termination_by high - low

/-- How many regions start at or before an address. -/
def countUpTo (m : Memory) (address : UInt64) : Nat :=
  searchFrom m.starts address 0 m.starts.size (Nat.le_refl _)

/-- The index of the last region that starts at or before an address. -/
def indexBefore? (m : Memory) (address : UInt64) : Option Nat :=
  match m.countUpTo address with
  | 0 => none
  | n + 1 => some n

/-- Adds a region between its neighbours, unless it overlaps one of them. -/
def insert (r : Region) : Change Memory Unit := do
  let overlap := InspectError.regionOverlap r.start r.size
  let m ← get
  let i := m.countUpTo r.start
  if 0 < i && m.regions[i - 1]?.any fun previous => decide (r.start.toNat < previous.stop) then
    throw overlap
  if m.regions[i]?.any fun next => decide (next.start.toNat < r.stop) then throw overlap
  modify fun m => { m with starts := m.starts.insertIdxIfInBounds i r.start }
  modify fun m => { m with regions := m.regions.insertIdxIfInBounds i r }

/-- The region that holds a whole range, with the offset of the range in it. -/
def locate? (m : Memory) (address : UInt64) (length : Nat) : Option (Nat × Region × Nat) := do
  let i ← m.indexBefore? address
  let r ← m.regions[i]?
  let offset := (address - r.start).toNat
  if offset + length ≤ r.size then some (i, r, offset) else none

/-- The bytes of a range inside one region. -/
def read (m : Memory) (address : UInt64) (length : Nat) : Except InspectError (List UInt8) :=
  match m.locate? address length with
  | some (_, r, offset) => .ok (r.bytes.extract offset (offset + length)).toList
  | none => .error (.unmapped address length)

/-- Replaces the bytes from an offset on by as many given ones. -/
def overwrite (bytes : Array UInt8) (offset : Nat) : List UInt8 → Array UInt8
  | [] => bytes
  | b :: rest => overwrite (bytes.setIfInBounds offset b) (offset + 1) rest

/-- Overwrites a range inside one region. -/
def write (address : UInt64) (data : List UInt8) : Change Memory Unit := do
  match (← get).locate? address data.length with
  | some (i, r, offset) =>
    let r := { r with bytes := overwrite r.bytes offset data }
    modify fun m => { m with regions := m.regions.setIfInBounds i r }
  | none => throw (.unmapped address data.length)

end Memory
end ValueInspector
