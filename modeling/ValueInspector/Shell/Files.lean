import ValueInspector.Shell.Bytes

/-! # Files

A tree of named items: directories, files with their bytes, devices and symbolic links. Paths are
followed step by step, so that each step on the way must be a directory. A path that was followed is in
canonical form: absolute, and without links, dots and doubled slashes.
-/
namespace ValueInspector.Shell

/-! ## Tables -/

namespace Table
variable {α β : Type} [DecidableEq α]

/-- Sets the value of a key. -/
def set (a : α) (b : β) (l : List (α × β)) : List (α × β) := (a, b) :: l.filter (·.1 ≠ a)

/-- Removes a key. -/
def unset (a : α) (l : List (α × β)) : List (α × β) := l.filter (·.1 ≠ a)

end Table

inductive Access where
  | read
  /-- From the start, with what was there dropped. -/
  | write
  | append
  | readWrite
deriving DecidableEq, Repr

/-- Why a call on files fails. -/
inductive FileFault where
  | missing
  | isDirectory
  | notDirectory
  | badDescriptor
  | brokenPipe
  | noSpace
  | noDevice
  | alreadyThere
  | notEmpty
  | tooManyLinks
  | nameTooLong
  | notPermitted
  | denied
  | invalid
  | busy
  | tooLarge
deriving DecidableEq, Repr

def FileFault.text : FileFault → Bytes
  | .missing => bytes "No such file or directory"
  | .isDirectory => bytes "Is a directory"
  | .notDirectory => bytes "Not a directory"
  | .badDescriptor => bytes "Bad file descriptor"
  | .brokenPipe => bytes "Broken pipe"
  | .noSpace => bytes "No space left on device"
  | .noDevice => bytes "No such device or address"
  | .alreadyThere => bytes "File exists"
  | .notEmpty => bytes "Directory not empty"
  | .tooManyLinks => bytes "Too many levels of symbolic links"
  | .nameTooLong => bytes "File name too long"
  | .notPermitted => bytes "Operation not permitted"
  | .denied => bytes "Permission denied"
  | .invalid => bytes "Invalid argument"
  | .busy => bytes "Device or resource busy"
  | .tooLarge => bytes "File too large"

/-- Devices that are always there. -/
inductive Device where
  | null
  | zero
  | full
  | random
  | terminal
deriving DecidableEq, Repr

/-- Where an open file leads. A file is told by its number. -/
inductive Channel where
  | device (d : Device)
  | captured
  | pipeOut (pipe : Nat)
  | pipeIn (pipe : Nat)
  | file (item : Nat) (offset : Nat) (access : Access)
deriving DecidableEq, Repr

inductive Content where
  | directory
  | file (data : Bytes)
  | device (d : Device)
  | link (target : Bytes)
deriving DecidableEq, Repr

structure Item where
  content : Content
  mode : Nat
  /-- When it was changed last. -/
  changed : Nat
deriving Repr

inductive FileKind where
  | directory
  | regular
  | device
  | pipe
  | link
deriving DecidableEq, Repr

/-- What is known of a path. -/
structure FileInfo where
  kind : FileKind
  mode : Nat
  size : Nat
  changed : Nat
  id : Nat
  /-- How many names it has. -/
  names : Nat
deriving Repr

namespace FileInfo

def isDirectory (i : FileInfo) : Bool := i.kind = .directory

/-- Whether some user may run it. -/
def isExecutable (i : FileInfo) : Bool := [1, 8, 64].any fun bit => i.mode / bit % 2 = 1

/-- A program: a file that may be run. -/
def isProgram (i : FileInfo) : Bool := i.kind = .regular && i.isExecutable

end FileInfo

structure FileTree where
  /-- Which item is at a canonical path. -/
  names : List (Bytes × Nat)
  items : List (Nat × Item)
  next : Nat

namespace FileTree

/-! ## Paths -/

/-- The path of a name in a directory. -/
def childPath (directory name : Bytes) : Bytes :=
  if directory = ['/'] then '/' :: name else directory ++ '/' :: name

def parentPath (path : Bytes) : Bytes :=
  match (path.reverse.dropWhile (· ≠ '/')).drop 1 with
  | [] => ['/']
  | up => up.reverse

def itemAt? (t : FileTree) (path : Bytes) : Option Item := do
  t.items.lookup (← t.names.lookup path)

def contentAt? (t : FileTree) (path : Bytes) : Option Content := (t.itemAt? path).map Item.content

/-- Follows steps from a place. The last step need not exist, but all before it must be directories. At
most so many links are followed, and one at the very end only if asked to. -/
def walk (t : FileTree) (follow : Bool) (links : Nat) (place : Bytes) (steps : List Bytes) :
    Except FileFault Bytes :=
  match steps with
  | [] => .ok place
  | step :: rest =>
    match t.contentAt? place with
    | none => if steps.all (· = []) then .ok place else .error .missing
    | some .directory =>
      if step = [] || step = ['.'] then walk t follow links place rest
      else if step = ['.', '.'] then walk t follow links (parentPath place) rest
      else if 255 < step.length then .error .nameTooLong
      else
        let next := childPath place step
        match t.contentAt? next with
        | some (.link target) =>
          if rest.isEmpty && !follow then .ok next
          else
            match links with
            | 0 => .error .tooManyLinks
            | more + 1 =>
              walk t follow more (if target.head? = some '/' then ['/'] else place)
                (target.splitOn '/' ++ rest)
        | _ => walk t follow links next rest
    | some _ => .error .notDirectory
termination_by (links, steps.length)

/-- A path with more bytes is refused, and so is one with more links on the way. -/
def pathLimit : Nat := 4095
def linkLimit : Nat := 40

/-- The canonical form of an absolute path. -/
def resolve (t : FileTree) (follow : Bool) (path : Bytes) : Except FileFault Bytes :=
  if path.isEmpty then .error .missing
  else if pathLimit < path.length then .error .nameTooLong
  else t.walk follow linkLimit ['/'] (path.splitOn '/')

/-- What the item of a number is. -/
def content? (t : FileTree) (n : Nat) : Option Content := (t.items.lookup n).map Item.content

def endsWithSlash (path : Bytes) : Bool := path.getLast? = some '/'

/-- The number of the item at a path that exists. -/
def number (t : FileTree) (follow : Bool) (path : Bytes) : Except FileFault (Bytes × Nat) := do
  let p ← t.resolve follow path
  match t.names.lookup p with
  | some n => return (p, n)
  | none => throw .missing

def kindOf : Content → FileKind
  | .directory => .directory
  | .file _ => .regular
  | .device _ => .device
  | .link _ => .link

def sizeOf : Content → Nat
  | .directory => 4096
  | .file data => data.length
  | .device _ => 0
  | .link target => target.length

def info (t : FileTree) (n : Nat) : Option FileInfo :=
  (t.items.lookup n).map fun item =>
    ⟨kindOf item.content, item.mode, sizeOf item.content, item.changed, n,
      (t.names.filter (·.2 = n)).length⟩

/-! ## Changes -/

/-- Puts a new item at a canonical path. -/
def create (t : FileTree) (path : Bytes) (item : Item) : FileTree :=
  { names := Table.set path t.next t.names, items := (t.next, item) :: t.items, next := t.next + 1 }

def update (t : FileTree) (n : Nat) (f : Item → Item) : FileTree :=
  { t with items := t.items.map fun e => if e.1 = n then (n, f e.2) else e }

/-- The names in a directory, in order. -/
def namesIn (t : FileTree) (directory : Bytes) : List Bytes :=
  let start := if directory = ['/'] then directory else directory ++ ['/']
  let found := t.names.filterMap fun e =>
    match Bytes.after? start e.1 with
    | some (c :: cs) => if '/' ∈ c :: cs then none else some (c :: cs)
    | _ => none
  found.mergeSort Bytes.isAtMost

/-- Takes a name away. What it named lasts as long as it is open. -/
def remove (t : FileTree) (path : Bytes) (directory : Bool) : Except FileFault FileTree := do
  let (p, n) ← t.number false path
  match t.content? n with
  | some .directory =>
    if !directory then throw .isDirectory
    else if !(t.namesIn p).isEmpty then throw .notEmpty
    else if p = ['/'] then throw .busy
  | _ => if directory || endsWithSlash path then throw .notDirectory
  return { t with names := Table.unset p t.names }

/-- A canonical path where there is nothing yet. -/
def freePath (t : FileTree) (path : Bytes) : Except FileFault Bytes := do
  let p ← t.resolve false path
  match t.names.lookup p with
  | some _ => throw .alreadyThere
  | none => return p

def make (t : FileTree) (path : Bytes) (item : Item) : Except FileFault FileTree := do
  let p ← t.freePath path
  if endsWithSlash path && item.content ≠ .directory then throw .missing
  return t.create p item

/-- Gives an item one more name. -/
def addName (t : FileTree) (source target : Bytes) : Except FileFault FileTree := do
  let (_, n) ← t.number false source
  let p ← t.freePath target
  if t.content? n = some .directory then throw .notPermitted
  return { t with names := Table.set p n t.names }

/-- Moves what is at a path, with all below it, to another path. -/
def rename (t : FileTree) (source target : Bytes) : Except FileFault FileTree := do
  let (p, n) ← t.number false source
  let q ← t.resolve false target
  let moved := t.content? n = some .directory
    if p = q then return t
  if moved && (p ++ ['/']).isPrefixOf q then throw .invalid
  match t.contentAt? q with
  | some .directory =>
    if !moved then throw .isDirectory
    else if !(t.namesIn q).isEmpty then throw .notEmpty
  | some _ => if moved then throw .notDirectory
  | none => if endsWithSlash target && !moved then throw .notDirectory
  let names := (Table.unset q t.names).map fun e =>
    if e.1 = p then (q, e.2)
    else
      match Bytes.after? (p ++ ['/']) e.1 with
      | some below => (q ++ '/' :: below, e.2)
      | none => e
  return { t with names }

/-- The target of a link. -/
def readLink (t : FileTree) (path : Bytes) : Except FileFault Bytes := do
  let (_, n) ← t.number false path
  match t.content? n with
  | some (.link target) => return target
  | _ => throw .invalid

end FileTree
end ValueInspector.Shell
