import ValueInspector.Shell.Utility.Basic

/-! # Utilities on paths

Those that take paths apart, and those that tell where a path leads.
-/
namespace ValueInspector.Shell.Utility

/-! ## Parts of paths -/

/-- Drops slashes at the end, but not the only one. -/
def trimSlashes (cs : Bytes) : Bytes :=
  let kept := (cs.reverse.dropWhile (· = '/')).reverse
  if kept.isEmpty && !cs.isEmpty then ['/'] else kept

def lastPart (cs : Bytes) : Bytes :=
  let cs := trimSlashes cs
  if cs = ['/'] then cs else (cs.reverse.takeWhile (· ≠ '/')).reverse

def withoutSuffix (suffix cs : Bytes) : Bytes :=
  if cs ≠ suffix && suffix.reverse.isPrefixOf cs.reverse then cs.take (cs.length - suffix.length)
  else cs

def parentPart (cs : Bytes) : Bytes :=
  let cs := trimSlashes cs
  if cs = ['/'] then cs
  else if '/' ∈ cs then trimSlashes (cs.reverse.dropWhile (· ≠ '/')).reverse
  else ['.']

def basename : Utility :=
  let manual : Manual :=
    { usage := " NAME [SUFFIX]", version := versionOf "basename"
      options := ["a,multiple", "s,suffix=", "z,zero"], mixed := false, trouble := 1 }
  withOptions manual fun o rest i => do
    let stop := if o.has "z" then [Char.ofNat 0] else ['\n']
    let all (names : List Bytes) (suffix : Bytes) : Task Nat :=
      put i (names.map fun n => withoutSuffix suffix (lastPart n) ++ stop).flatten
    if rest.isEmpty then refuseUse i (bytes "missing operand") 1
    else if o.has "a" || o.has "s" then all rest ((o.value? "s").getD [])
    else
      match rest with
      | _ :: _ :: extra :: _ => refuseUse i (bytes "extra operand " ++ quoted extra) 1
      | [name, suffix] => all [name] suffix
      | names => all names []

def dirname : Utility :=
  withOptions ⟨" [OPTION] NAME...", versionOf "dirname", ["z,zero"], false, 1⟩ fun o rest i => do
    let stop := if o.has "z" then [Char.ofNat 0] else ['\n']
    if rest.isEmpty then refuseUse i (bytes "missing operand") 1
    else put i (rest.map fun n => parentPart n ++ stop).flatten

/-- The bytes that every system takes in names. -/
def isPortable (c : Char) : Bool := c.isAlphanum || c ∈ ['.', '_', '-']

def pathchk : Utility :=
  withOptions ⟨" [OPTION]... NAME...", versionOf "pathchk", ["p", "P", "portability"], true, 1⟩
    fun o rest i => do
      if rest.isEmpty then refuseUse i (bytes "missing operand") 1
      else
        let portable := o.has "p" || o.has "portability"
        let strict := o.has "P" || o.has "portability"
        let fault? (name : Bytes) : Option Bytes :=
          let parts := name.splitOn '/'
          if strict && parts.any fun p => p.head? = some '-' then
            some (bytes "leading '-' in a component of file name " ++ quoted name)
          else if (portable || strict) && name.isEmpty then some (bytes "empty file name")
          else
            match (if portable then (name.filter (· ≠ '/')).find? fun c => !isPortable c else none) with
            | some c =>
              some (bytes "non-portable character " ++ quoted [c] ++ bytes " in file name " ++ quoted name)
            | none =>
              let limit := if portable then 14 else 255
              match parts.find? (limit < ·.length) with
              | some p =>
                some (bytes "limit " ++ Bytes.ofNat limit ++ bytes " exceeded by length " ++
                  Bytes.ofNat p.length ++ bytes " of file name component " ++ quoted p)
              | none => none
        let faults := rest.filterMap fault?
        faults.forM (complain i)
        return if faults.isEmpty then 0 else 1

/-! ## Where paths lead -/

/-- How much of a path must be there. -/
inductive Presence where
  | all
  | allButLast
  | nothing
deriving DecidableEq, Repr

/-- The canonical form of as much of a path as there is, with the rest as it stands. -/
def resolveFront (path : Bytes) : Nat → List Bytes → Task Bytes
  | 0, _ => return path
  | n + 1, rest => do
    match ← Task.call (.resolve path) with
    | .ok found =>
      let step (p name : Bytes) : Bytes :=
        if name.isEmpty || name = ['.'] then p
        else if name = ['.', '.'] then FileTree.parentPath p
        else FileTree.childPath p name
      return rest.foldl step found
    | .error _ =>
      let parts := path.splitOn '/'
      resolveFront (match Bytes.join ['/'] parts.dropLast with
        | [] => ['/']
        | p => p) n (parts.getLast?.toList ++ rest)

def canonical (i : Invocation) (presence : Presence) (name : Bytes) : Task (Except FileFault Bytes) := do
  let path := pathOf i name
  match presence with
  | .nothing =>
    if name.isEmpty then return .error .missing
    else return .ok (← resolveFront path (path.length + 1) [])
  | .allButLast => Task.call (.resolve (if name.isEmpty then [] else trimSlashes path))
  | .all =>
    match ← Task.call (.inspect true path) with
    | .error f => return .error f
    | .ok _ => Task.call (.resolve path)

def presenceOf (o : Options) (otherwise : Option Presence) : Option Presence :=
  match o.last? ["f", "e", "m"] with
  | some "f" => some .allButLast
  | some "e" => some .all
  | some _ => some .nothing
  | none => otherwise

def readlink : Utility :=
  let manual : Manual :=
    { usage := " [OPTION]... FILE...", version := versionOf "readlink"
      options :=
        ["f,canonicalize", "e,canonicalize-existing", "m,canonicalize-missing", "n,no-newline", "q,quiet",
         "s,silent", "v,verbose", "z,zero"]
      mixed := true, trouble := 1 }
  withOptions manual fun o rest i => do
    if rest.isEmpty then refuseUse i (bytes "missing operand") 1
    else
      let stop := if o.has "n" && rest.length = 1 then []
        else if o.has "z" then [Char.ofNat 0] else ['\n']
      let statuses ← rest.mapM fun name => do
        let found ← match presenceOf o none with
          | some presence => canonical i presence name
          | none => Task.call (.readLink (pathOf i name))
        match found with
        | .ok path => put i (path ++ stop)
        | .error f =>
          if o.has "v" then complain i (quoteName name ++ bytes ": " ++ f.text)
          return 1
      return statuses.foldl max 0

/-- The way from one canonical path to another. -/
def relative (start target : Bytes) : Bytes :=
  let parts (p : Bytes) : List Bytes := (p.splitOn '/').filter (!·.isEmpty)
  let rec apart : List Bytes → List Bytes → List Bytes × List Bytes
    | a :: as, b :: bs => if a = b then apart as bs else (a :: as, b :: bs)
    | as, bs => (as, bs)
  let (up, down) := apart (parts start) (parts target)
  match up.map (fun _ => ['.', '.']) ++ down with
  | [] => ['.']
  | steps => Bytes.join ['/'] steps

def realpath : Utility :=
  let manual : Manual :=
    { usage := " [OPTION]... FILE...", version := versionOf "realpath"
      options :=
        ["e,canonicalize-existing", "m,canonicalize-missing", "L,logical", "P,physical", "q,quiet",
         "relative-to=", "relative-base=", "s,strip,no-symlinks", "z,zero"]
      mixed := true, trouble := 1 }
  withOptions manual fun o rest i => do
    if rest.isEmpty then refuseUse i (bytes "missing operand") 1
    else
      let presence := (presenceOf o none).getD .allButLast
      let stop := if o.has "z" then [Char.ofNat 0] else ['\n']
      let base ← match o.value? "relative-to" with
        | some name => Except.toOption <$> canonical i presence name
        | none => pure none
      let statuses ← rest.mapM fun name => do
        match ← canonical i presence name with
        | .ok path => put i ((match base with
            | some b => relative b path
            | none => path) ++ stop)
        | .error f =>
          if o.has "q" then return 1 else refuse i (quoteName name ++ bytes ": " ++ f.text) 1
      return statuses.foldl max 0

/-! ## Names by chance -/

/-- Letters that look like chance. -/
def chanceLetters (seed count : Nat) : Bytes :=
  let alphabet := "abcdefghijklmnopqrstuvwxyzABCDEFGHIJKLMNOPQRSTUVWXYZ0123456789".toList
  (List.range count).map fun k =>
    (alphabet[(seed * 7919 + k * k * 613 + k * 104729 + seed / 61) % 62]?).getD 'X'

def mktemp : Utility :=
  let manual : Manual :=
    { usage := " [OPTION]... [TEMPLATE]", version := versionOf "mktemp"
      options := ["d,directory", "u,dry-run", "q,quiet", "suffix=", "p,tmpdir[=]", "t"]
      mixed := true, trouble := 1 }
  withOptions manual fun o rest i => do
    match rest with
    | _ :: _ :: _ => refuseUse i (bytes "too many templates") 1
    | _ =>
      let template := rest.head?.getD (bytes "tmp.XXXXXXXXXX")
      let suffix := (o.value? "suffix").getD (template.reverse.takeWhile (· ≠ 'X')).reverse
      let front := if (o.value? "suffix").isSome then template
        else template.take (template.length - suffix.length)
      let count := (front.reverse.takeWhile (· = 'X')).length
      if count < 3 then
        refuse i (bytes "too few X's in template " ++ quoted template) 1
      else
        let given := o.value? "p"
        let directory := match given with
          | some (c :: cs) => c :: cs
          | _ => (i.environment.lookup (bytes "TMPDIR")).getD (bytes "/tmp")
        let directory := if rest.isEmpty || given.isSome || o.has "t" then directory ++ ['/'] else []
        let (pid, _) ← Task.call .identity
        let now ← Task.call .clock
        let name := directory ++ front.take (front.length - count) ++
          chanceLetters (pid * 1000003 + now) count ++ suffix
        let path := pathOf i name
        let fault ← if o.has "u" then pure none
          else if o.has "d" then Task.call (.change (.directory path 448))
          else
            match ← Task.call (.openFile path .write) with
            | .ok fd => do
              Task.call (.close fd)
              Task.call (.change (.mode path 384))
            | .error f => pure (some f)
        match fault with
        | none => put i (name ++ ['\n'])
        | some f =>
          let kind := if o.has "d" then "directory" else "file"
          refuse i (bytes "failed to create " ++ bytes kind ++ bytes " via template " ++ quoted
            (directory ++ template) ++ bytes ": " ++ f.text) 1

end ValueInspector.Shell.Utility
