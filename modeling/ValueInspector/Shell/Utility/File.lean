import ValueInspector.Shell.Permissions
import ValueInspector.Shell.Utility.Path

/-! # Utilities that change files

Those that make, copy, move, link and remove files and directories.
-/
namespace ValueInspector.Shell.Utility

/-- Does something for each operand, with the highest status as the result. -/
def forEach (names : List Bytes) (f : Bytes → Task Nat) : Task Nat := do
  let statuses ← names.mapM f
  return statuses.foldl max 0

/-- The status after a change, with a complaint if it failed. -/
def checked (i : Invocation) (message : Bytes) : Option FileFault → Task Nat
  | none => return 0
  | some f => refuse i (message ++ bytes ": " ++ f.text) 1

/-- A name within a directory. -/
def within (directory name : Bytes) : Bytes :=
  if directory.getLast? = some '/' then directory ++ name else directory ++ '/' :: name

/-- Says what was done, if that is wanted. -/
def report (i : Invocation) (wanted : Bool) (message : Bytes) : Task Nat :=
  if wanted then put i (message ++ ['\n']) else return 0

def infoAt (i : Invocation) (follow : Bool) (name : Bytes) : Task (Option FileInfo) := do
  return (← Task.call (.inspect follow (pathOf i name))).toOption

def isDirectoryAt (i : Invocation) (name : Bytes) : Task Bool := do
  return (← infoAt i true name).any FileInfo.isDirectory

/-! ## Removing -/

structure Removal where
  recursive : Bool
  force : Bool
  emptyDirectories : Bool
  verbose : Bool

/-- Removes what has a name, with all that is in it if asked to. -/
def Removal.run (r : Removal) (i : Invocation) : Nat → Bytes → Task Nat
  | 0, _ => return 1
  | n + 1, name => do
    let cannot (f : FileFault) : Task Nat :=
      refuse i (bytes "cannot remove " ++ quoted name ++ bytes ": " ++ f.text) 1
    let remove (directory : Bool) : Task Nat := do
      match ← Task.call (.change (.remove (pathOf i name) directory)) with
      | none =>
        report i r.verbose
          (bytes (if directory then "removed directory " else "removed ") ++ quoted name)
      | some f => cannot f
    match ← Task.call (.inspect false (pathOf i name)) with
    | .error f =>
      if r.force && (f = .missing || f = .notDirectory) then return 0 else cannot f
    | .ok info =>
      if !info.isDirectory then remove false
      else if r.recursive then
        match ← Task.call (.list (pathOf i name)) with
        | .error f => cannot f
        | .ok inside =>
          let statuses ← inside.mapM fun e => r.run i n (within name e)
          if statuses.any (0 < ·) then return 1 else remove true
      else if r.emptyDirectories then remove true
      else cannot .isDirectory

/-- How deep directories may be nested. -/
def treeDepth : Nat := 2048

def rm : Utility :=
  let manual : Manual :=
    { usage := " [OPTION]... [FILE]...", version := versionOf "rm"
      options :=
        ["f,force", "i", "I", "interactive[=]", "r,R,recursive", "d,dir", "v,verbose", "one-file-system",
         "preserve-root[=]", "no-preserve-root"]
      mixed := true, trouble := 1 }
  withOptions manual fun o rest i => do
    if rest.isEmpty && !o.has "f" then refuseUse i (bytes "missing operand") 1
    else
      let r : Removal := ⟨o.has "r", o.has "f", o.has "d", o.has "v"⟩
      forEach rest fun name => do
        if r.recursive && Bytes.isAmong (lastPart name) [['.'], ['.', '.']] then
          refuse i
            (bytes "refusing to remove '.' or '..' directory: skipping " ++ quoted name) 1
        else if r.recursive && trimSlashes name = ['/'] && !o.has "no-preserve-root" then
          complain i (bytes "it is dangerous to operate recursively on '/'")
          refuse i (bytes "use --no-preserve-root to override this failsafe") 1
        else r.run i treeDepth name

/-- The directories above a name, the nearest first. -/
def above (name : Bytes) : List Bytes :=
  let rec go : Nat → Bytes → List Bytes
    | 0, _ => []
    | n + 1, name =>
      if '/' ∈ trimSlashes name then
        match parentPart name with
        | ['/'] => []
        | up => up :: go n up
      else []
  go name.length name

def rmdir : Utility :=
  let manual : Manual :=
    { usage := " [OPTION]... DIRECTORY...", version := versionOf "rmdir"
      options := ["p,parents", "v,verbose", "ignore-fail-on-non-empty"], mixed := true, trouble := 1 }
  withOptions manual fun o rest i => do
    if rest.isEmpty then refuseUse i (bytes "missing operand") 1
    else
      let one (kind name : Bytes) : Task Nat := do
        let said ← report i (o.has "v") (bytes "removing directory, " ++ quoted name)
        match ← Task.call (.change (.remove (pathOf i name) true)) with
        | none => return said
        | some f =>
          if f = .notEmpty && o.has "ignore-fail-on-non-empty" then return 0
          else refuse i (bytes "failed to remove " ++ kind ++ quoted name ++ bytes ": " ++ f.text) 1
      let rec upwards : List Bytes → Task Nat
        | [] => return 0
        | name :: more => do
          let status ← one (bytes "directory ") name
          if status ≠ 0 then return status else upwards more
      forEach rest fun name => do
        let status ← one [] name
        if status = 0 && o.has "p" then upwards (above name) else return status

def unlink : Utility :=
  withOptions ⟨" FILE", versionOf "unlink", [], true, 1⟩ fun _ rest i => do
    match rest with
    | [] => refuseUse i (bytes "missing operand") 1
    | [name] =>
      checked i (bytes "cannot unlink " ++ quoted name)
        (← Task.call (.change (.remove (pathOf i name) false)))
    | _ :: extra :: _ => refuseUse i (bytes "extra operand " ++ quoted extra) 1

/-! ## Making -/

/-- The permissions that a mode stands for, given those before. -/
def modeOf (mask before : Nat) (text : Bytes) : Option Nat :=
  if text.head?.any Char.isDigit then
    (Text.readDigits? 8 text).bind fun n => if n < 4096 then some n else none
  else if text.isEmpty then none
  else Permissions.changed mask before (text.length + 1) 0 before text

def mkdir : Utility :=
  let manual : Manual :=
    { usage := " [OPTION]... DIRECTORY...", version := versionOf "mkdir"
      options := ["m,mode=", "p,parents", "v,verbose", "Z", "context[=]"], mixed := true, trouble := 1 }
  withOptions manual fun o rest i => do
    if rest.isEmpty then refuseUse i (bytes "missing operand") 1
    else
      let mask ← Task.call (.mask none)
      let mode? := (o.value? "m").map (modeOf mask 511)
      match mode? with
      | some none => refuse i (bytes "invalid mode " ++ quoted ((o.value? "m").getD [])) 1
      | _ =>
        let make (name : Bytes) (mode : Option Nat) : Task (Option FileFault) := do
          match ← Task.call (.change (.directory (pathOf i name) 511)) with
          | some f => return some f
          | none =>
            match mode with
            | some m => Task.call (.change (.mode (pathOf i name) m))
            | none => return none
        let cannot (name : Bytes) (f : FileFault) : Task Nat :=
          refuse i (bytes "cannot create directory " ++ quoted name ++ bytes ": " ++ f.text) 1
        let made (name : Bytes) : Task Nat :=
          report i (o.has "v") (bytes "created directory " ++ quoted name)
        let rec chain : List Bytes → Task (Option Nat)
          | [] => return none
          | name :: more => do
            if ← isDirectoryAt i name then chain more
            else
              match ← make name none with
              | none =>
                let _ ← made name
                chain more
              | some .alreadyThere => return some (← cannot name .notDirectory)
              | some f => return some (← cannot name f)
        forEach rest fun name => do
          let parents := o.has "p"
          match ← (if parents then chain (above name).reverse else pure none) with
          | some status => return status
          | none =>
            match ← make name (mode?.bind fun m => m) with
            | none => made name
            | some f =>
              if parents && f = .alreadyThere && (← isDirectoryAt i name) then return 0
              else cannot name f

def touch : Utility :=
  let manual : Manual :=
    { usage := " [OPTION]... FILE...", version := versionOf "touch"
      options :=
        ["a", "c,no-create", "d,date=", "f", "h,no-dereference", "m", "r,reference=", "t=", "time="]
      mixed := true, trouble := 1 }
  withOptions manual fun o rest i => do
    if rest.isEmpty then refuseUse i (bytes "missing file operand") 1
    else
      let now ← Task.call .clock
      let reference ← match o.value? "r" with
        | some name => infoAt i true name
        | none => pure none
      match o.value? "r", reference with
      | some name, none =>
        refuse i (bytes "failed to get attributes of " ++ quoted name ++ bytes ": " ++
          FileFault.missing.text) 1
      | _, _ =>
        let time := (reference.map FileInfo.changed).getD now
        forEach rest fun name => do
          let path := pathOf i name
          match ← Task.call (.inspect true path) with
          | .ok _ =>
            let _ ← Task.call (.change (.time path time))
            return 0
          | .error _ =>
            if o.has "c" then return 0
            else
              match ← Task.call (.openFile path .append) with
              | .ok fd =>
                Task.call (.close fd)
                let _ ← Task.call (.change (.time path time))
                return 0
              | .error f => refuse i (bytes "cannot touch " ++ quoted name ++ bytes ": " ++ f.text) 1

def truncate : Utility :=
  let manual : Manual :=
    { usage := " OPTION... FILE...", version := versionOf "truncate"
      options := ["c,no-create", "o,io-blocks", "r,reference=", "s,size="], mixed := true, trouble := 1 }
  withOptions manual fun o rest i => do
    let wanted := o.value? "s"
    let (sign, digits) : Option Char × Bytes := match wanted with
      | some (c :: cs) => if c ∈ ['+', '-', '<', '>', '/', '%'] then (some c, cs) else (none, c :: cs)
      | _ => (none, [])
    let reference ← match o.value? "r" with
      | some name => infoAt i true name
      | none => pure none
    match wanted, size? digits with
    | none, _ =>
      match reference with
      | none => refuseUse i (bytes "you must specify either '--size' or '--reference'") 1
      | some info => forEach rest (resize i o (fun _ => info.size))
    | some w, none => refuse i (bytes "Invalid number: " ++ quoted w) 1
    | some _, some n =>
      if rest.isEmpty then refuseUse i (bytes "missing file operand") 1
      else
        forEach rest (resize i o fun old =>
          match sign with
          | some '+' => old + n
          | some '-' => old - n
          | some '<' => min old n
          | some '>' => max old n
          | some '/' => old / max n 1 * n
          | some '%' => (old + n - 1) / max n 1 * n
          | _ => n)
where
  resize (i : Invocation) (o : Options) (size : Nat → Nat) (name : Bytes) : Task Nat := do
    let path := pathOf i name
    let info ← infoAt i true name
    if info.isNone && o.has "c" then return 0
    else
      match ← Task.call (.openFile path .append) with
      | .error f => refuse i (bytes "cannot open " ++ quoted name ++ bytes " for writing: " ++ f.text) 1
      | .ok fd =>
        Task.call (.close fd)
        checked i (bytes "failed to truncate " ++ quoted name)
          (← Task.call (.change (.size path (size ((info.map FileInfo.size).getD 0)))))

/-! ## Permissions -/

/-- A list of names, and all that is below them if asked to. -/
def below (i : Invocation) : Nat → Bytes → Task (List Bytes)
  | 0, name => return [name]
  | n + 1, name => do
    match ← Task.call (.inspect false (pathOf i name)) with
    | .ok info =>
      if info.isDirectory then
        match ← Task.call (.list (pathOf i name)) with
        | .ok inside =>
          let all ← inside.mapM fun e => below i n (within name e)
          return name :: all.flatten
        | .error _ => return [name]
      else return [name]
    | .error _ => return [name]

def fourDigits (mode : Nat) : Bytes :=
  let digits := Permissions.octal mode
  List.replicate (4 - digits.length) '0' ++ digits

def chmod : Utility :=
  let manual : Manual :=
    { usage := " [OPTION]... MODE[,MODE]... FILE...", version := versionOf "chmod"
      options :=
        ["c,changes", "f,silent,quiet", "v,verbose", "R,recursive", "reference=", "preserve-root",
         "no-preserve-root"]
      mixed := true, trouble := 1 }
  fun i =>
    -- a mode that takes rights away looks like an option
    let isMode (w : Bytes) : Bool := match w with
      | '-' :: c :: cs => (c :: cs).all (· ∈ "rwxXst".toList) && (c :: cs) ≠ ['R']
      | _ => false
    let words := operands i
    let (modes, words) := (words.filter isMode, words.filter fun w => !isMode w)
    withOptions manual (fun o rest i => do
      let reference ← match o.value? "reference" with
        | some name => infoAt i true name
        | none => pure none
      let given := if reference.isSome then [] else modes.take 1
      let (mode, names) := if reference.isSome || !given.isEmpty then (given.head?.getD [], rest)
        else (rest.head?.getD [], rest.drop 1)
      if rest.isEmpty && given.isEmpty then refuseUse i (bytes "missing operand") 1
      else
        let mask ← Task.call (.mask none)
        if reference.isNone && (modeOf mask 0 mode).isNone then
          refuseUse i (bytes "invalid mode: " ++ quoted mode) 1
        else if names.isEmpty then refuseUse i (bytes "missing operand after " ++ quoted mode) 1
        else
          forEach names fun name => do
            let all ← if o.has "R" then below i treeDepth name else pure [name]
            forEach all fun name => do
              match ← infoAt i true name with
              | none =>
                if o.has "f" then return 1
                else
                  refuse i (bytes "cannot access " ++ quoted name ++ bytes ": " ++
                    FileFault.missing.text) 1
              | some info =>
                let new := match reference with
                  | some r => r.mode
                  | none => (modeOf mask info.mode mode).getD info.mode
                let _ ← Task.call (.change (.mode (pathOf i name) new))
                let shown (m : Nat) : Bytes := fourDigits m ++ bytes " (" ++ Permissions.text m ++ [')']
                if new ≠ info.mode && (o.has "v" || o.has "c") then
                  put i (bytes "mode of " ++ quoted name ++ bytes " changed from " ++ shown info.mode ++
                    bytes " to " ++ shown new ++ ['\n'])
                else if o.has "v" then
                  put i (bytes "mode of " ++ quoted name ++ bytes " retained as " ++ shown new ++ ['\n'])
                else return 0)
      { i with arguments := i.arguments.take 1 ++ words }

/-- Files have one owner and one group, so nothing changes. -/
def chown (name what : String) : Utility :=
  let manual : Manual :=
    { usage := " [OPTION]... OWNER FILE...", version := versionOf name
      options :=
        ["c,changes", "f,silent,quiet", "v,verbose", "R,recursive", "h,no-dereference", "dereference",
         "from=", "reference=", "preserve-root", "no-preserve-root", "H", "L", "P"]
      mixed := true, trouble := 1 }
  withOptions manual fun o rest i => do
    match (if o.has "reference" then ['0'] :: rest else rest) with
    | [] => refuseUse i (bytes "missing operand") 1
    | [owner] => refuseUse i (bytes "missing operand after " ++ quoted owner) 1
    | owner :: names =>
      let known := (owner.splitOn ':').all fun w => Bytes.isAmong w [[], ['0'], bytes "root"] || w.all Char.isDigit
      if !known then refuse i (bytes "invalid " ++ bytes what ++ bytes ": " ++ quoted owner) 1
      else
        forEach names fun name => do
          match ← infoAt i true name with
          | some _ => return 0
          | none =>
            refuse i (bytes "cannot access " ++ quoted name ++ bytes ": " ++ FileFault.missing.text) 1

/-! ## Copying, moving and linking -/

/-- The operands of a utility that puts files at a target: what goes where. -/
def placements (i : Invocation) (o : Options) (rest : List Bytes) (missing : String) :
    Task (Except (Bytes × Bool) (List (Bytes × Bytes))) := do
  let inside (directory name : Bytes) : Bytes × Bytes := (name, within directory (lastPart name))
  match o.value? "t" with
  | some directory =>
    if rest.isEmpty then return .error (bytes missing, true)
    else if ← isDirectoryAt i directory then return .ok (rest.map (inside directory))
    else
      return .error (bytes "target directory " ++ quoted directory ++ bytes ": " ++
        FileFault.missing.text, false)
  | none =>
    match rest.reverse with
    | [] => return .error (bytes missing, true)
    | [name] => return .error (bytes "missing destination file operand after " ++ quoted name, true)
    | target :: sources =>
      let sources := sources.reverse
      if o.has "T" then
        match sources with
        | [name] => return .ok [(name, target)]
        | _ :: extra :: _ => return .error (bytes "extra operand " ++ quoted extra, true)
        | [] => return .ok []
      else if ← isDirectoryAt i target then return .ok (sources.map (inside target))
      else
        match sources with
        | [name] => return .ok [(name, target)]
        | _ =>
          let reason := if (← infoAt i true target).isSome then FileFault.notDirectory else .missing
          return .error (bytes "target " ++ quoted target ++ bytes ": " ++ reason.text, false)

/-- Runs a change for each placement. -/
def placeAll (i : Invocation) (o : Options) (rest : List Bytes) (missing : String)
    (one : Bytes → Bytes → Task Nat) : Task Nat := do
  match ← placements i o rest missing with
  | .error (message, hint) => if hint then refuseUse i message 1 else refuse i message 1
  | .ok pairs =>
    let statuses ← pairs.mapM fun p => one p.1 p.2
    return statuses.foldl max 0

structure Copying where
  recursive : Bool
  /-- Links are copied as links. -/
  links : Bool
  keepsMode : Bool
  keepsTime : Bool
  keepsOld : Bool
  onlyNewer : Bool
  verbose : Bool

namespace Copying

def copyFile (c : Copying) (i : Invocation) (info : FileInfo) (source target : Bytes) : Task Nat := do
  match ← contents i (if source = ['-'] then bytes "./-" else source) with
  | .error f => refuse i (bytes "cannot open " ++ quoted source ++ bytes " for reading: " ++ f.text) 1
  | .ok data =>
    let path := pathOf i target
    let fresh := (← infoAt i true target).isNone
    match ← Task.call (.openFile path .write) with
    | .error f =>
      let f := if f = .isDirectory then .notDirectory else f
      refuse i (bytes "cannot create regular file " ++ quoted target ++ bytes ": " ++ f.text) 1
    | .ok fd =>
      let fault ← Task.call (.write fd data)
      Task.call (.close fd)
      let mask ← Task.call (.mask none)
      if c.keepsMode then
        let _ ← Task.call (.change (.mode path info.mode))
      else if fresh then
        let _ ← Task.call (.change (.mode path (info.mode - (info.mode &&& mask))))
      if c.keepsTime then
        let _ ← Task.call (.change (.time path info.changed))
      checked i (bytes "error writing " ++ quoted target) fault

/-- Copies what has a name to another name. -/
def run (c : Copying) (i : Invocation) : Nat → Bytes → Bytes → Task Nat
  | 0, _, _ => return 1
  | n + 1, source, target => do
    let follow := !c.links
    match ← infoAt i follow source with
    | none =>
      refuse i (bytes "cannot stat " ++ quoted source ++ bytes ": " ++ FileFault.missing.text) 1
    | some info =>
      let old ← infoAt i true target
      let said : Task Nat := report i c.verbose (quoted source ++ bytes " -> " ++ quoted target)
      if info.isDirectory && !c.recursive then
        refuse i (bytes "-r not specified; omitting directory " ++ quoted source) 1
      else if !info.isDirectory && old.any (·.id = info.id) then
        refuse i (quoted source ++ bytes " and " ++ quoted target ++ bytes " are the same file") 1
      else if !info.isDirectory && old.isSome &&
          (c.keepsOld || (c.onlyNewer && old.any (info.changed ≤ ·.changed))) then return 0
      else if info.isDirectory then
        let origin ← Task.call (.resolve (pathOf i source))
        let goal ← Task.call (.resolve (pathOf i target))
        let inside : Bool := match origin, goal with
          | .ok p, .ok q => (p ++ ['/']).isPrefixOf (q ++ ['/'])
          | _, _ => false
        if inside then
          refuse i (bytes "cannot copy a directory, " ++ quoted source ++ bytes ", into itself, " ++
            quoted target) 1
        else if old.any (!·.isDirectory) then
          refuse i (bytes "cannot overwrite non-directory " ++ quoted target ++ bytes " with directory " ++
            quoted source) 1
        else
          let fault ← if old.isSome then pure none
            else Task.call (.change (.directory (pathOf i target) 511))
          match fault with
          | some f => refuse i (bytes "cannot create directory " ++ quoted target ++ bytes ": " ++ f.text) 1
          | none =>
            let told ← if old.isSome then pure 0 else said
            match ← Task.call (.list (pathOf i source)) with
            | .error f => refuse i (bytes "cannot access " ++ quoted source ++ bytes ": " ++ f.text) 1
            | .ok names =>
              let statuses ← names.mapM fun e => c.run i n (within source e) (within target e)
              return statuses.foldl max told
      else if old.any FileInfo.isDirectory then
        refuse i (bytes "cannot overwrite directory " ++ quoted target ++ bytes " with non-directory") 1
      else if info.kind = .link then
        match ← Task.call (.readLink (pathOf i source)) with
        | .error f => refuse i (bytes "cannot read symbolic link " ++ quoted source ++ bytes ": " ++ f.text) 1
        | .ok link =>
          if old.isSome then
            let _ ← Task.call (.change (.remove (pathOf i target) false))
          let status ← checked i (bytes "cannot create symbolic link " ++ quoted target)
            (← Task.call (.change (.link (pathOf i target) link)))
          return max status (← said)
      else
        let told ← said
        return max told (← c.copyFile i info source target)

end Copying

def cp : Utility :=
  let manual : Manual :=
    { usage := " [OPTION]... [-T] SOURCE DEST", version := versionOf "cp"
      options :=
        ["a,archive", "b", "backup[=]", "d", "f,force", "i,interactive", "H", "l,link", "L,dereference",
         "n,no-clobber", "P,no-dereference", "p", "preserve[=]", "no-preserve=", "parents",
         "r,R,recursive", "reflink[=]", "remove-destination", "sparse=", "strip-trailing-slashes",
         "s,symbolic-link", "S,suffix=", "t,target-directory=", "T,no-target-directory", "u,update[=]",
         "v,verbose", "x,one-file-system", "attributes-only"]
      mixed := true, trouble := 1 }
  withOptions manual fun o rest i => do
    let keeps := o.has "p" || o.has "a" || o.has "preserve"
    let c : Copying :=
      { recursive := o.has "r" || o.has "a"
        links := match o.last? ["L", "P", "d", "a", "H"] with
          | some "L" | some "H" => false
          | some _ => true
          | none => o.has "r"
        keepsMode := keeps, keepsTime := keeps, keepsOld := o.has "n", onlyNewer := o.has "u"
        verbose := o.has "v" }
    placeAll i o rest "missing file operand" fun source target => do
      if o.has "s" || o.has "l" then
        let change : FileChange := if o.has "s" then .link (pathOf i target) source
          else .name (pathOf i source) (pathOf i target)
        let kind := if o.has "s" then "cannot create symbolic link " else "cannot create hard link "
        checked i (bytes kind ++ quoted target) (← Task.call (.change change))
      else c.run i treeDepth source target

def mv : Utility :=
  let manual : Manual :=
    { usage := " [OPTION]... [-T] SOURCE DEST", version := versionOf "mv"
      options :=
        ["b", "backup[=]", "f,force", "i,interactive", "n,no-clobber", "strip-trailing-slashes",
         "S,suffix=", "t,target-directory=", "T,no-target-directory", "u,update[=]", "v,verbose",
         "no-copy", "exchange"]
      mixed := true, trouble := 1 }
  withOptions manual fun o rest i => do
    placeAll i o rest "missing file operand" fun source target => do
      match ← infoAt i false source with
      | none =>
        refuse i (bytes "cannot stat " ++ quoted source ++ bytes ": " ++ FileFault.missing.text) 1
      | some info =>
        let old ← infoAt i false target
        let same ← Task.call (.resolve (pathOf i source))
        let there ← Task.call (.resolve (pathOf i target))
        let oneName : Bool := match same, there with
          | .ok p, .ok q => p = q
          | _, _ => false
        let inside : Bool := match same, there with
          | .ok p, .ok q => info.isDirectory && (p ++ ['/']).isPrefixOf (q ++ ['/'])
          | _, _ => false
        if inside then
          refuse i (bytes "cannot move " ++ quoted source ++ bytes " to a subdirectory of itself, " ++
            quoted target) 1
        else if oneName || (old.any (·.id = info.id) && info.names = 1) then
          refuse i (quoted source ++ bytes " and " ++ quoted target ++ bytes " are the same file") 1
        else if old.isSome && o.has "n" then return 0
        else if old.any (fun d => info.changed ≤ d.changed) && o.has "u" then return 0
        else if old.any FileInfo.isDirectory && !info.isDirectory then
          refuse i (bytes "cannot overwrite directory " ++ quoted target ++ bytes " with non-directory " ++
            quoted source) 1
        else if old.any (!·.isDirectory) && info.isDirectory then
          refuse i (bytes "cannot overwrite non-directory " ++ quoted target ++ bytes " with directory " ++
            quoted source) 1
        else
          match ← Task.call (.change (.rename (pathOf i source) (pathOf i target))) with
          | none =>
            report i (o.has "v") (bytes "renamed " ++ quoted source ++ bytes " -> " ++ quoted target)
          | some .notEmpty =>
            refuse i (bytes "cannot overwrite " ++ quoted target ++ bytes ": " ++ FileFault.notEmpty.text) 1
          | some f =>
            refuse i (bytes "cannot move " ++ quoted source ++ bytes " to " ++ quoted target ++ bytes ": " ++
              f.text) 1

def ln : Utility :=
  let manual : Manual :=
    { usage := " [OPTION]... [-T] TARGET LINK_NAME", version := versionOf "ln"
      options :=
        ["b", "backup[=]", "d,F,directory", "f,force", "i,interactive", "L,logical",
         "n,no-dereference", "P,physical", "r,relative", "s,symbolic", "S,suffix=", "t,target-directory=",
         "T,no-target-directory", "v,verbose"]
      mixed := true, trouble := 1 }
  withOptions manual fun o rest i => do
    let symbolic := o.has "s"
    let rest := match rest with
      | [name] => if o.has "t" || o.has "T" then rest else [name, ['.']]
      | _ => rest
    let isLink ← match rest.getLast? with
      | some target => (fun info => info.any (·.kind = .link)) <$> infoAt i false target
      | none => pure false
    let o := if o.has "n" && isLink then ⟨("T", []) :: o.found⟩ else o
    placeAll i o rest "missing file operand" fun source target => do
      let info ← infoAt i true source
      if !symbolic && info.isNone then
        refuse i (bytes "failed to access " ++ quoted source ++ bytes ": " ++ FileFault.missing.text) 1
      else if !symbolic && info.any FileInfo.isDirectory then
        refuse i (source ++ bytes ": hard link not allowed for directory") 1
      else
        if o.has "f" then
          let _ ← Task.call (.change (.remove (pathOf i target) false))
        let content ← if !o.has "r" then pure source else do
          let here ← canonical i .nothing (parentPart target)
          let there ← canonical i .nothing source
          pure (match here, there with
            | .ok p, .ok q => relative p q
            | _, _ => source)
        let change : FileChange := if symbolic then .link (pathOf i target) content
          else .name (pathOf i source) (pathOf i target)
        match ← Task.call (.change change) with
        | none =>
          report i (o.has "v") (quoted target ++ bytes (if symbolic then " -> " else " => ") ++
            quoted content)
        | some f =>
          let kind := if symbolic then "symbolic" else "hard"
          refuse i (bytes "failed to create " ++ bytes kind ++ bytes " link " ++ quoted target ++
            (if symbolic || f = .alreadyThere then [] else bytes " => " ++ quoted source) ++ bytes ": " ++
            f.text) 1

def link : Utility :=
  withOptions ⟨" FILE1 FILE2", versionOf "link", [], true, 1⟩ fun _ rest i => do
    match rest with
    | [] => refuseUse i (bytes "missing operand") 1
    | [name] => refuseUse i (bytes "missing operand after " ++ quoted name) 1
    | [source, target] =>
      checked i (bytes "cannot create link " ++ quoted target ++ bytes " to " ++ quoted source)
        (← Task.call (.change (.name (pathOf i source) (pathOf i target))))
    | _ :: _ :: extra :: _ => refuseUse i (bytes "extra operand " ++ quoted extra) 1

def install : Utility :=
  let manual : Manual :=
    { usage := " [OPTION]... [-T] SOURCE DEST", version := versionOf "install"
      options :=
        ["b", "c", "C,compare", "d,directory", "D", "g,group=", "m,mode=", "o,owner=",
         "p,preserve-timestamps", "s,strip", "S,suffix=", "t,target-directory=",
         "T,no-target-directory", "v,verbose"]
      mixed := true, trouble := 1 }
  withOptions manual fun o rest i => do
    match modeOf 0 0 ((o.value? "m").getD (bytes "755")) with
    | none => refuse i (bytes "invalid mode " ++ quoted ((o.value? "m").getD [])) 1
    | some mode =>
      let makeAll (names : List Bytes) : Task Unit := names.forM fun p => do
        let _ ← Task.call (.change (.directory (pathOf i p) 511))
      if o.has "d" then
        forEach rest fun name => do
          makeAll ((above name).reverse ++ [name])
          let _ ← Task.call (.change (.mode (pathOf i name) mode))
          return 0
      else
        let c : Copying := ⟨false, false, false, o.has "p", false, false, o.has "v"⟩
        if o.has "D" then makeAll ((rest.getLast?.map fun t => (above t).reverse).getD [])
        placeAll i o rest "missing file operand" fun source target => do
          let status ← c.run i treeDepth source target
          if status = 0 then
            let _ ← Task.call (.change (.mode (pathOf i target) mode))
          return status

/-! ## Blocks -/

def ddKeys : List String :=
  ["bs", "cbs", "conv", "count", "ibs", "if", "iflag", "obs", "of", "oflag", "seek", "skip", "status"]

/-- Reads so many blocks; a block ends early where a read yields less. -/
def readBlocks (fd size : Nat) (fullBlocks : Bool) :
    Nat → Option Nat → Nat × Nat → List Bytes → Task (List Bytes × Nat × Nat)
  | 0, _, counts, acc => return (acc.reverse, counts)
  | n + 1, missing, (full, part), acc => do
    if missing = some 0 then return (acc.reverse, full, part)
    else
      match ← block n size [] with
      | [] => return (acc.reverse, full, part)
      | data =>
        let counts := if data.length = size then (full + 1, part) else (full, part + 1)
        readBlocks fd size fullBlocks n (missing.map (· - 1)) counts (data :: acc)
where
  block : Nat → Nat → Bytes → Task Bytes
    | 0, _, acc => return acc
    | n + 1, wanted, acc => do
      match ← Task.call (.read fd wanted) with
      | .ok (c :: cs) =>
        let acc := acc ++ c :: cs
        if fullBlocks && (c :: cs).length < wanted then block n (wanted - (c :: cs).length) acc
        else return acc
      | _ => return acc

/-- Copies blocks of a file. -/
def dd : Utility := fun i => do
  let words := operands i
  let key (w : Bytes) : Bytes := w.takeWhile (· ≠ '=')
  match words.find? fun w => !('=' ∈ w && ddKeys.any (·.toList = key w)) with
  | some w =>
    if w = bytes "--version" then put i (bytes "dd (coreutils) 9.4\n")
    else if w = bytes "--help" then put i (bytes "Usage: " ++ nameOf i ++ bytes " [OPERAND]...\n")
    else refuseUse i (bytes "unrecognized operand " ++ quoted w) 1
  | none =>
    let setting (name : String) : Option Bytes :=
      words.reverse.findSome? fun w => Bytes.after? (bytes name ++ ['=']) w
    let numbers := ["bs", "ibs", "obs", "count", "seek", "skip"].filterMap setting
    match numbers.find? fun w => (size? w).isNone with
    | some w => refuse i (bytes "invalid number: " ++ quoted w) 1
    | none =>
      let number (name : String) (default : Nat) : Nat := ((setting name).bind size?).getD default
      let inSize := max 1 (number "bs" (number "ibs" 512))
      let outSize := max 1 (number "bs" (number "obs" 512))
      let conversions := ((setting "conv").getD []).splitOn ',' |>.map String.ofList
      let flags := ((setting "iflag").getD []).splitOn ',' |>.map String.ofList
      let opened ← match setting "if" with
        | some name => Task.call (.openFile (pathOf i name) .read)
        | none => pure (.ok 0)
      let target ← match setting "of" with
        | none => pure (.ok 1)
        | some name =>
          let keeps := "notrunc" ∈ conversions || (setting "seek").isSome
          Task.call (.openFile (pathOf i name) (if keeps then .readWrite else .write))
      let cannot (name : String) (f : FileFault) : Task Nat :=
        refuse i (bytes "failed to open " ++ quoted ((setting name).getD []) ++ bytes ": " ++ f.text) 1
      match opened, target with
      | .error f, _ => cannot "if" f
      | _, .error f => cannot "of" f
      | .ok fd, .ok out =>
        let fullBlocks := "fullblock" ∈ flags
        let _ ← readBlocks fd inSize fullBlocks Sh.repeats (some (number "skip" 0)) (0, 0) []
        if out ≠ 1 && 0 < number "seek" 0 then
          let _ ← Task.call (.read out (number "seek" 0 * outSize))
        let count := (setting "count").bind size?
        let (blocks, full, part) ← readBlocks fd inSize fullBlocks Sh.repeats count (0, 0) []
        let swap (b : Bytes) : Bytes :=
          let rec go : Bytes → Bytes
            | a :: b :: rest => b :: a :: go rest
            | rest => rest
          go b
        let convert (b : Bytes) : Bytes :=
          conversions.foldl
            (fun b c => match c with
              | "ucase" => b.map Char.toUpper
              | "lcase" => b.map Char.toLower
              | "swab" => swap b
              | "sync" => b ++ List.replicate (inSize - b.length) (Char.ofNat 0)
              | _ => b)
            b
        let data := (blocks.map convert).flatten
        let fault ← if data.isEmpty then pure none else Task.call (.write out data)
        let same := (setting "bs").isSome
        let (outFull, outPart) := if same then (full, part)
          else (data.length / outSize, if data.length % outSize = 0 then 0 else 1)
        let records (full part : Nat) (way : String) : Bytes :=
          Bytes.ofNat full ++ '+' :: Bytes.ofNat part ++ bytes " records " ++ bytes way ++ ['\n']
        if setting "status" ≠ some (bytes "none") then
          let copied := Bytes.ofNat data.length ++
            bytes (if data.length = 1 then " byte copied, " else " bytes copied, ") ++
            bytes "5.0e-05 s, 100 kB/s\n"
          let _ ← Task.call (.write 2 (records full part "in" ++ records outFull outPart "out" ++
            (if setting "status" = some (bytes "noxfer") then [] else copied)))
        checked i (bytes "error writing " ++ quoted ((setting "of").getD (bytes "standard output"))) fault

end ValueInspector.Shell.Utility
