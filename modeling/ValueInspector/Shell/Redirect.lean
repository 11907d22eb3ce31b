import ValueInspector.Shell.Expansion

/-! # Redirections

Descriptors led elsewhere for a command, and given back after it.
-/
namespace ValueInspector.Shell.Sh

/-- A descriptor that was led elsewhere, and where its old one is kept. -/
structure Displaced where
  fd : Nat
  kept : Option Nat
deriving Repr

/-- A redirection with its target expanded. -/
inductive Target where
  | file (path : Bytes) (kind : RedirectKind)
  | descriptor (source : Nat)
  | closed
  | document (text : Bytes)

section Targets
variable (g : Evaluator) (n : Nat)

def target (r : Redirection) : Sh (Nat × Target) := do
  match r with
  | .mk fd (.document id) _ =>
    let body := ((← get).documents.lookup id).getD []
    return (fd, .document (← body.document g n))
  | .mk fd .duplicate w =>
    let text := Marked.text (← Word.single g n w)
    match text with
    | ['-'] => return (fd, .closed)
    | [c] =>
      if c.isDigit then return (fd, .descriptor (c.toNat - '0'.toNat))
      else fail (bytes "Syntax error: Bad fd number")
    | _ => fail (bytes "Syntax error: Bad fd number")
  | .mk fd kind w => return (fd, .file (Marked.text (← Word.single g n w)) kind)

end Targets

/-- The message for a file that cannot be opened, or not be made. -/
def openFault (creating : Bool) (name : Bytes) (f : FileFault) : Bytes :=
  let reason := match f with
    | .missing | .notDirectory =>
      bytes (if creating then "Directory nonexistent" else "No such file")
    | f => f.text
  bytes (if creating then "cannot create " else "cannot open ") ++ name ++ bytes ": " ++ reason

def openTarget (name : Bytes) (kind : RedirectKind) : Sh Nat := do
  let full ← path name
  let (access, creating) : Access × Bool := match kind with
    | .input => (.read, false)
    | .append => (.append, true)
    | .both => (.readWrite, true)
    | _ => (.write, true)
  if kind = .output && (← option 'C') then
    match ← system (.inspect true full) with
    | .ok info => if info.kind = .regular then fail (openFault true name .alreadyThere)
    | .error _ => pure ()
  match ← system (.openFile full access) with
  | .ok fd => return fd
  | .error f => fail (openFault creating name f)

/-- Leads a descriptor to another one, of which only the first stays open. -/
def move (source fd : Nat) : Sh Unit := do
  unless source = fd do
    let _ ← system (.copy source fd)
    system (.close source)

def lead (fd : Nat) (t : Target) : Sh Unit := do
  match t with
  | .file name kind => move (← openTarget name kind) fd
  | .descriptor source =>
    unless source = fd do
      unless ← system (.copy source fd) do
        fail (Bytes.ofNat source ++ bytes ": " ++ FileFault.badDescriptor.text)
  | .closed => system (.close fd)
  | .document text =>
    let (out, inn) ← system .pipe
    unless text.isEmpty do
      let _ ← system (.write inn text)
    system (.close inn)
    move out fd

/-- Gives descriptors back, the latest first. -/
def giveBack : List Displaced → Sh Unit
  | [] => pure ()
  | d :: rest => do
    match d.kept with
    | some kept => move kept d.fd
    | none => system (.close d.fd)
    giveBack rest

/-- Keeps a descriptor, unless that was done before. -/
def keep (fd : Nat) (ds : List Displaced) : Sh (List Displaced) := do
  if ds.any (·.fd = fd) then return ds
  else return ⟨fd, ← system (.save fd)⟩ :: ds

/-- Leads descriptors elsewhere one after the other. What was kept is added even when one fails. -/
def leadAll : List (Nat × Target) → List Displaced → Sh (List Displaced × Except Jump Unit)
  | [], ds => return (ds, .ok ())
  | (fd, t) :: rest, ds => do
    let ds ← keep fd ds
    match ← attempt (lead fd t) with
    | .ok () => leadAll rest ds
    | .error j => return (ds, .error j)

/-- Runs a computation under redirections. The first one to fail is what comes instead of it. -/
def withRedirections {α : Type} (g : Evaluator) (n : Nat) (rs : List Redirection)
    (onFailure : Sh α) (x : Sh α) : Sh α := do
  if rs.isEmpty then x
  else
    let targets ← rs.mapM (target g n)
    let (ds, led) ← leadAll targets []
    match led with
    | .ok () =>
      let r ← attempt x
      giveBack ds
      resume r
    | .error .failed =>
      giveBack ds
      onFailure
    | .error j =>
      giveBack ds
      throw j

/-- Redirections that stay. -/
def redirectForGood (g : Evaluator) (n : Nat) (rs : List Redirection) : Sh Unit := do
  let targets ← rs.mapM (target g n)
  targets.forM fun (fd, t) => lead fd t

end ValueInspector.Shell.Sh
