import ValueInspector.Shell.Parser
import ValueInspector.Shell.State

/-! # Lives of shells

Running a text line by line, running the traps of caught signals, and how a shell and the child
processes it starts begin and end.
-/
namespace ValueInspector.Shell.Sh
variable (g : Evaluator)

/-- Reads and runs the lines of a text. Yields whether there was any command. -/
def runLines (tested : Bool) : Nat → Bool → ScriptReader → Sh Bool
  | 0, _, _ => endless
  | n + 1, any, r => do
    let s ← get
    match { r with aliases := s.aliases, nextDocument := s.nextDocument }.next with
    | .error f =>
      modify ({ · with line := f.line })
      fail f.message
    | .ok (none, _) => return any
    | .ok (some none, r) => runLines tested n any r
    | .ok (some (some c), r) =>
      modify fun s =>
        { s with documents := r.documents ++ s.documents, nextDocument := r.nextDocument }
      g.command ⟨tested, false⟩ c
      runLines tested n true { r with documents := [] }

/-- Runs a text. Without commands its status is zero. -/
def runText (tested : Bool) (text : Bytes) : Sh Unit := do
  let s ← get
  let any ← runLines g tested (text.length + 2) false (.ofText text s.aliases s.nextDocument)
  unless any do modify ({ · with status := 0 })

/-- Runs the trap of a signal. The status is what it was before. -/
def runTrap (signal : Nat) : Sh Unit := do
  let before ← get
  match before.traps.lookup signal with
  | none | some [] => pure ()
  | some action =>
    modify ({ · with saved := some (before.saved.getD before.status) })
    match ← attempt (runText g false action) with
    | .error .exit => throw .exit
    | .error .failed => throw .failed
    | .error (.returned true) =>
      modify ({ · with saved := before.saved })
      throw (.returned true)
    | r =>
      modify ({ · with saved := before.saved, status := before.status })
      resume r

/-- Runs the traps of the signals that were caught. -/
def runTraps : Sh Unit := do
  if !(← get).traps.isEmpty then
    collectSignals
    let due := (← get).caught.mergeSort
    modify ({ · with caught := [] })
    due.forM (runTrap g)

/-- Ends a shell: an exit in a trap has the status from before the trap, and the trap for the exit
itself runs last. -/
def conclude (r : Except Jump Unit) : Sh Unit := do
  if r matches .error .exit then modify fun s => { s with status := s.saved.getD s.status }
  modify ({ · with saved := none })
  let s ← get
  match s.traps.lookup 0 with
  | none | some [] => pure ()
  | some action =>
    set { s with traps := Table.unset 0 s.traps, saved := some s.status }
    match ← attempt (runText g false action) with
    | .error .failed => pure ()
    | .error .exit => modify fun t => { t with status := t.saved.getD s.status }
    | _ => modify ({ · with status := s.status })

/-- The whole life of a shell, up to its status. -/
def life (body : Sh Unit) (s : ShellState) : Task Nat := do
  let (_, s) ← (do conclude g (← attempt body) : Sh Unit) s
  return s.status

/-- A child process of the shell. Its traps are those of ignored signals. One in the background has no
input and ignores interrupts. -/
def child (background : Bool) (body : Sh Unit) (s : ShellState) : Program :=
  let kept := s.traps.filter (·.2.isEmpty)
  let begin : Sh Unit := do
    s.traps.forM fun (signal, action) =>
      unless action.isEmpty || signal = 0 do system (.handle signal none)
    if background then
      system (.handle 2 (some .ignored))
      system (.handle 3 (some .ignored))
      match ← system (.openFile (bytes "/dev/null") .read) with
      | .error _ => pure ()
      | .ok fd =>
        let _ ← system (.copy fd 0)
        unless fd = 0 do system (.close fd)
    body
  (life g begin { s with traps := kept, caught := [], jobs := [], saved := none }).program

def forkChild (background : Bool) (body : Sh Unit) : Sh Nat := fork (child g background body)

/-- Becomes another program. -/
def become {α : Type} (path : Bytes) (i : Invocation) : Sh α := do
  system .replace
  fun _ _ => (g.execute path i) .exit

end ValueInspector.Shell.Sh
