import ValueInspector.Snapshot.Basic
import ValueInspector.Snapshot.Cursor

/-! # Building snapshots

A builder grows a type table and a memory call by call. A name is first absent; it may be declared
any number of times and then defined once. A new name gets the number of names before it as its id,
in thirty-two bits.
-/
namespace ValueInspector

structure SnapshotBuilder where
  snapshot : Snapshot
  /-- Ids of the entries that are declared and not yet defined. -/
  declared : List UInt32
deriving Inhabited

namespace SnapshotBuilder

def empty : SnapshotBuilder := ⟨.empty, []⟩

/-- The id of the next new name. -/
def nextId (b : SnapshotBuilder) : UInt32 := UInt32.ofNat b.snapshot.entries.size

/-- Takes an id out of the declared ones, and says whether it was among them. -/
def release (id : UInt32) : Change SnapshotBuilder Bool :=
  modifyGet fun b => (id ∈ b.declared, { b with declared := b.declared.filter (· ≠ id) })

def modifyEntries (f : Array TypeDef → Array TypeDef) : Change SnapshotBuilder Unit :=
  modify fun b => { b with snapshot := { b.snapshot with entries := f b.snapshot.entries } }

/-- Adds an entry under the trimmed name, or completes a declared one. -/
def define (name : String) (layout : Layout) : Change SnapshotBuilder TypeDesc := do
  let name := Text.trimmed name
  match (← get).snapshot.byName.lookup name with
  | some id =>
    unless ← release id do throw (.duplicateType name)
    modifyEntries (·.modify id.toNat ({ · with layout }))
    return .plain id name
  | none =>
    let id := (← get).nextId
    modify fun b =>
      { b with snapshot := { b.snapshot with byName := (name, id) :: b.snapshot.byName } }
    modifyEntries (·.push ⟨name, layout⟩)
    return .plain id name

/-- Reserves a name, so that types can mention it before it is defined. -/
def declare (name : String) : Change SnapshotBuilder TypeDesc := do
  let ty ← define name (.blob 0)
  modify fun b => { b with declared := ty.id :: b.declared }
  return ty

def primitive (name : String) (p : Primitive) : Change SnapshotBuilder TypeDesc :=
  define name (.primitive p)

def record (name : String) (size : Nat) (fields : List FieldDef) :
    Change SnapshotBuilder TypeDesc :=
  define name (.record size fields)

/-- The same type table over another memory. -/
def overMemory (b : SnapshotBuilder) (m : Memory) : SnapshotBuilder :=
  { b with snapshot := { b.snapshot with memory := m } }

/-- A change of the memory alone. -/
def onMemory (c : Change Memory Unit) : Change SnapshotBuilder Unit := fun b =>
  Change.mapState b.overMemory (c.run b.snapshot.memory)

/-- Maps a region with the given contents. -/
def map (start : UInt64) (bytes : Array UInt8) : Change SnapshotBuilder Unit :=
  onMemory (Memory.insert ⟨start, bytes⟩)

def mapZeroed (start : UInt64) (length : Nat) : Change SnapshotBuilder Unit :=
  map start (Array.replicate length 0)

/-- Overwrites bytes inside a mapped region. -/
def write (address : UInt64) (data : List UInt8) : Change SnapshotBuilder Unit :=
  onMemory (Memory.write address data)

def writeWord (address value : UInt64) : Change SnapshotBuilder Unit :=
  write address (toLittleEndian 8 value.toNat)

end SnapshotBuilder
end ValueInspector
