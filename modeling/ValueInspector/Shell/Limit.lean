import ValueInspector.Shell.Bytes

/-! # Limits of processes

How much a process may use of each resource. The soft limit is what counts, and a process may raise it
up to the hard one. Time and the size of files are watched; the other limits are only kept.
-/
namespace ValueInspector.Shell

inductive Resource where
  | time
  | fileSize
  | data
  | stack
  | core
  | memory
  | lockedMemory
  | processes
  | files
  | addressSpace
  | locks
  | priority
deriving DecidableEq, Repr

structure Limit where
  soft : Option Nat
  hard : Option Nat
deriving DecidableEq, Repr

namespace Limit

def unlimited : Limit := ⟨none, none⟩

def same (n : Nat) : Limit := ⟨some n, some n⟩

/-- Whether a bound is beyond another one. -/
def exceeds : Option Nat → Option Nat → Bool
  | _, none => false
  | none, some _ => true
  | some a, some b => b < a

/-- Whether a process has used up its time: the signal that tells it so. `before` and `after` are
microseconds around a step. -/
def timeSignal? (l : Limit) (before after : Nat) : Option Nat :=
  let seconds (n : Nat) : Nat := 1000000 * max n 1
  if l.hard.any fun h => seconds h ≤ after then some 9
  else
    match l.soft with
    | some s =>
      if seconds s ≤ after && (before < seconds s || before / 1000000 < after / 1000000) then some 24
      else none
    | none => none

end Limit

/-- How a resource goes by a letter, and its limit at the start. -/
structure ResourceForm where
  resource : Resource
  letter : Char
  name : String
  unit : Nat
  start : Limit

def resourceForms : List ResourceForm :=
  [⟨.time, 't', "time(seconds)", 1, .unlimited⟩, ⟨.fileSize, 'f', "file(blocks)", 512, .unlimited⟩,
   ⟨.data, 'd', "data(kbytes)", 1024, .unlimited⟩,
   ⟨.stack, 's', "stack(kbytes)", 1024, ⟨some 8388608, none⟩⟩,
   ⟨.core, 'c', "coredump(blocks)", 512, ⟨some 0, none⟩⟩,
   ⟨.memory, 'm', "memory(kbytes)", 1024, .unlimited⟩,
   ⟨.lockedMemory, 'l', "locked memory(kbytes)", 1024, .same 8388608⟩,
   ⟨.processes, 'p', "process", 1, .same 128604⟩, ⟨.files, 'n', "nofiles", 1, .same 20000⟩,
   ⟨.addressSpace, 'v', "vmemory(kbytes)", 1024, .unlimited⟩, ⟨.locks, 'w', "locks", 1, .unlimited⟩,
   ⟨.priority, 'r', "rtprio", 1, .same 0⟩]

/-- The limit of a resource, as far as limits were changed. -/
def limitOf (changed : List (Resource × Limit)) (r : Resource) : Limit :=
  match changed.lookup r, resourceForms.find? (·.resource = r) with
  | some l, _ => l
  | none, some f => f.start
  | none, none => .unlimited

end ValueInspector.Shell
