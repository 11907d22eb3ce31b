import ValueInspector.Error
import ValueInspector.Shell.Files
import ValueInspector.Shell.Limit
import ValueInspector.Shell.Signal

/-! # Processes in virtual time

A program is a finite or endless tree of calls to the system. The system holds processes, each with a
clock in microseconds and a table of descriptors, and pipes and files between them. Of all processes
that can go on, the one that can go on first makes its next call. Only computing and sleeping take
time, so a run has one outcome. The bytes written to the captured output are kept, with the time when
the last process that could write there let go of it.
-/
namespace ValueInspector.Shell

/-- How a process takes a signal, other than by default. -/
inductive Disposition where
  | ignored
  | caught
deriving DecidableEq, Repr

inductive Waited where
  | ended (pid : Nat) (status : ExitStatus)
  /-- A caught signal came first. -/
  | interrupted
  | noChild
  /-- All children are still running. -/
  | running

/-- A change to the tree of files. -/
inductive FileChange where
  | remove (path : Bytes) (directory : Bool)
  | directory (path : Bytes) (mode : Nat)
  | link (path target : Bytes)
  /-- One more name for what is at a path. -/
  | name (source target : Bytes)
  | rename (source target : Bytes)
  | mode (path : Bytes) (mode : Nat)
  | size (path : Bytes) (size : Nat)
  | time (path : Bytes) (time : Nat)

inductive Call where
  | compute (microseconds : Nat)
  | sleep (microseconds : Nat)
  | read (fd limit : Nat)
  | write (fd : Nat) (data : Bytes)
  | openFile (path : Bytes) (access : Access)
  | pipe
  /-- Makes a descriptor lead where another one leads. -/
  | copy (source target : Nat)
  /-- Copies a descriptor to the first free one from ten on. -/
  | save (source : Nat)
  | close (fd : Nat)
  | wait (target : Option Nat) (block : Bool)
  /-- Sends a signal to a process; to a group of processes if the number is negative, and to the own
  group if it is zero. -/
  | kill (target : Int) (signal : Nat)
  /-- Makes the process the first one of a group of its own. -/
  | lead
  /-- Moves a descriptor on a file back by so many bytes. -/
  | rewind (fd count : Nat)
  | handle (signal : Nat) (d : Option Disposition)
  /-- Takes the caught signals that came so far. -/
  | caught
  /-- Drops what another program does not take over: descriptors from ten on and caught signals. -/
  | replace
  /-- The ids of the process and of its parent. -/
  | identity
  | clock
  /-- What is at a path; a link at its end is followed if asked to. -/
  | inspect (follow : Bool) (path : Bytes)
  | list (path : Bytes)
  | readLink (path : Bytes)
  /-- The canonical form of a path, whose last step need not exist. -/
  | resolve (path : Bytes)
  | change (c : FileChange)
  /-- The mask for the permissions of new files, and a new one if given. -/
  | mask (new : Option Nat)
  | limit (r : Resource)
  | setLimit (r : Resource) (l : Limit)

abbrev Call.Answer : Call → Type
  | .compute _ | .sleep _ | .close _ | .handle _ _ | .replace | .lead | .rewind _ _ => Unit
  | .read _ _ => Except FileFault Bytes
  | .write _ _ => Option FileFault
  | .openFile _ _ => Except FileFault Nat
  | .pipe => Nat × Nat
  | .copy _ _ => Bool
  | .save _ => Option Nat
  | .wait _ _ => Waited
  | .kill _ _ => Bool
  | .caught => List Nat
  | .identity => Nat × Nat
  | .clock => Nat
  | .inspect _ _ => Except FileFault FileInfo
  | .list _ => Except FileFault (List Bytes)
  | .readLink _ | .resolve _ => Except FileFault Bytes
  | .change _ | .setLimit _ _ => Option FileFault
  | .mask _ => Nat
  | .limit _ => Limit

inductive Program where
  | exit (status : Nat)
  | call (c : Call) (k : c.Answer → Program)
  | fork (child : Program) (k : Nat → Program)
  /-- Goes on for ever without a call. -/
  | endless

/-- Bytes in a pipe: those at the front, and later chunks with the latest first. -/
structure Pipe where
  front : Bytes
  later : List Bytes
  size : Nat
deriving Inhabited

/-- A pipe that holds this many bytes takes no more. -/
def pipeCapacity : Nat := 65536

namespace Pipe

def empty : Pipe := ⟨[], [], 0⟩

def push (p : Pipe) (data : Bytes) : Pipe :=
  { p with later := data :: p.later, size := p.size + data.length }

/-- Takes at most `limit` bytes. -/
def take (p : Pipe) (limit : Nat) : Bytes × Pipe :=
  let all := if p.later.isEmpty then p.front else p.front ++ p.later.reverse.flatten
  let data := all.take limit
  (data, ⟨all.drop data.length, [], p.size - data.length⟩)

end Pipe

structure Process where
  pid : Nat
  parent : Nat
  group : Nat
  clock : Nat
  stopped : Bool
  program : Program
  /-- Which open file each descriptor leads to. -/
  descriptors : List (Nat × Nat)
  dispositions : List (Nat × Disposition)
  pending : List Nat
  mask : Nat
  /-- How many bytes it has read and written. -/
  moved : Nat
  /-- How long it has computed. -/
  spent : Nat
  /-- How long that took, moving bytes included. -/
  busy : Nat
  limits : List (Resource × Limit)

structure World where
  now : Nat
  processes : List Process
  /-- Ended children that were not waited for: id, parent, status. -/
  ended : List (Nat × Nat × ExitStatus)
  nextPid : Nat
  openFiles : List (Nat × Channel)
  nextFile : Nat
  pipes : List (Nat × Pipe)
  files : FileTree
  /-- Chunks of the captured output, the latest first. -/
  output : List Bytes
  /-- When and how the first process ended. -/
  finished : Option (Nat × ExitStatus)
  /-- When the captured output was let go of. -/
  released : Option Nat

namespace World

/-- The id of the first process, and of its parent. -/
def rootPid : Nat := 4242
def hostPid : Nat := 4200

def workingDirectory : Bytes := bytes "/work"

def process? (w : World) (pid : Nat) : Option Process := w.processes.find? (·.pid = pid)

def update (w : World) (pid : Nat) (f : Process → Process) : World :=
  { w with processes := w.processes.map fun p => if p.pid = pid then f p else p }

def channelOf (w : World) (p : Process) (fd : Nat) : Option Channel := do
  let file ← p.descriptors.lookup fd
  w.openFiles.lookup file

/-- Whether some descriptor of some process leads to a channel. -/
def held (w : World) (test : Channel → Bool) : Bool :=
  w.processes.any fun p => p.descriptors.any fun d => (w.openFiles.lookup d.2).any test

/-- Forgets open files that no descriptor leads to and pipes that none of the others is an end of, and
notes when the captured output is let go. -/
def collect (w : World) : World :=
  let openFiles := w.openFiles.filter fun f =>
    w.processes.any fun p => p.descriptors.any fun d => d.2 = f.1
  let released := match w.released with
    | some t => some t
    | none => if openFiles.any (·.2 = .captured) then none else some w.now
  let pipes := w.pipes.filter fun q => openFiles.any fun f => f.2 = .pipeIn q.1 || f.2 = .pipeOut q.1
  { w with openFiles, pipes, released }

/-- Adds an open file at a free descriptor from `least` on. -/
def freeDescriptor (p : Process) (least : Nat) : Nat :=
  ((List.range (p.descriptors.length + 1)).map (least + ·)).find?
    (fun fd => (p.descriptors.lookup fd).isNone) |>.getD least

def openChannel (w : World) (pid : Nat) (c : Channel) : Nat × World :=
  match w.process? pid with
  | none => (0, w)
  | some p =>
    let fd := freeDescriptor p 0
    let file := w.nextFile
    let w := { w with openFiles := (file, c) :: w.openFiles, nextFile := file + 1 }
    (fd, w.update pid fun p => { p with descriptors := Table.set fd file p.descriptors })

/-- Ends a process. Its children lose their parent. -/
def finish (w : World) (pid : Nat) (status : ExitStatus) : World :=
  match w.process? pid with
  | none => w
  | some p =>
    let rest := (w.processes.filter (·.pid ≠ pid)).map fun q =>
      if q.parent = pid then { q with parent := 1 } else q
    let awaited := rest.any (·.pid = p.parent)
    let ended := w.ended.filter (·.2.1 ≠ pid)
    collect
      { w with
        processes := rest
        ended := if awaited then ended ++ [(pid, p.parent, status)] else ended
        finished := if pid = rootPid then some (w.now, status) else w.finished }

/-- Delivers a signal to a process. -/
def deliver (w : World) (pid signal : Nat) : World :=
  match w.process? pid with
  | none => w
  | some p =>
    if signal = 9 then w.finish pid (.signal 9)
    else if signal = 19 then w.update pid ({ · with stopped := true })
    else
      let w := if signal = 18 then w.update pid ({ · with stopped := false }) else w
      match p.dispositions.lookup signal with
      | some .ignored => w
      | some .caught =>
        w.update pid fun p =>
          { p with pending := if signal ∈ p.pending then p.pending else p.pending ++ [signal] }
      | none =>
        match signalEffect signal with
        | .ends => w.finish pid (.signal signal)
        | .stops => w.update pid ({ · with stopped := true })
        | .nothing | .continues => w

/-- Replaces the bytes from an offset on; a gap is filled with zeros. -/
def overwriteAt (data : Bytes) (offset : Nat) (new : Bytes) : Bytes :=
  let before := data.take offset
  before ++ List.replicate (offset - before.length) (Char.ofNat 0) ++ new ++
    data.drop (offset + new.length)

def setChannel (w : World) (p : Process) (fd : Nat) (c : Channel) : World :=
  match p.descriptors.lookup fd with
  | none => w
  | some file => { w with openFiles := Table.set file c w.openFiles }

/-- A byte that looks like chance. -/
def noise (seed k : Nat) : Char := Char.ofNat ((seed * 7919 + k * k * 31 + k * 97) / 7 % 256)

def readFrom (w : World) (p : Process) (fd limit : Nat) : Except FileFault Bytes × World :=
  match w.channelOf p fd with
  | none | some .captured | some (.pipeIn _) => (.error .badDescriptor, w)
  | some (.device .null) | some (.device .terminal) => (.ok [], w)
  | some (.device .zero) | some (.device .full) => (.ok (List.replicate limit (Char.ofNat 0)), w)
  | some (.device .random) => (.ok ((List.range limit).map (noise (w.now + p.pid))), w)
  | some (.pipeOut i) =>
    let (data, pipe) := ((w.pipes.lookup i).getD .empty).take limit
    (.ok data, { w with pipes := Table.set i pipe w.pipes })
  | some (.file n offset access) =>
    if access = .write || access = .append then (.error .badDescriptor, w)
    else
      match w.files.content? n with
      | some (.file data) =>
        let found := (data.drop offset).take limit
        (.ok found, w.setChannel p fd (.file n (offset + found.length) access))
      | _ => (.error .isDirectory, w)

def writeTo (w : World) (p : Process) (fd : Nat) (data : Bytes) : Option FileFault × World :=
  match w.channelOf p fd with
  | none | some (.pipeOut _) => (some .badDescriptor, w)
  | some (.device .full) => (some .noSpace, w)
  | some (.device _) => (none, w)
  | some .captured => (none, { w with output := data :: w.output })
  | some (.pipeIn i) =>
    if w.held (· = .pipeOut i) then
      let pipe := (w.pipes.lookup i).getD .empty
      (none, { w with pipes := Table.set i (pipe.push data) w.pipes })
    else (some .brokenPipe, w.deliver p.pid 13)
  | some (.file n offset access) =>
    if access = .read then (some .badDescriptor, w)
    else
      match w.files.content? n with
      | some (.file old) =>
        let offset := if access = .append then old.length else offset
        let room := match (limitOf p.limits .fileSize).soft with
          | some limit => limit - offset
          | none => data.length
        let complete := data.length ≤ room
        let data := data.take room
        let files := w.files.update n fun item =>
          { item with content := .file (overwriteAt old offset data), changed := w.now }
        let w := { w with files }
        let w := w.setChannel p fd (.file n (offset + data.length) access)
        if complete then (none, w) else (some .tooLarge, w.deliver p.pid 25)
      | _ => (none, w)

/-! ## Files of a process -/

/-- The descriptor that a canonical path in the directory of descriptors stands for. -/
def descriptorOf? (path : Bytes) : Option Nat :=
  (Bytes.after? (bytes "/proc/self/fd/") path).bind Bytes.natural?

/-- What is known of where a descriptor leads. -/
def channelInfo (w : World) (c : Channel) : Except FileFault FileInfo :=
  let found? := match c with
    | .device d => (w.files.items.find? (·.2.content = .device d)).bind fun e => w.files.info e.1
    | .file n _ _ => w.files.info n
    | .captured => some ⟨.pipe, 384, 0, w.now, 0, 1⟩
    | .pipeOut i | .pipeIn i => some ⟨.pipe, 384, 0, w.now, i, 1⟩
  match found? with
  | some info => .ok info
  | none => .error .missing

def inspectPath (w : World) (p : Process) (follow : Bool) (path : Bytes) :
    Except FileFault FileInfo := do
  let full ← w.files.resolve follow path
  match descriptorOf? full with
  | some fd =>
    match w.channelOf p fd with
    | none => throw .missing
    | some c => if follow then w.channelInfo c else return ⟨.link, 448, 64, w.now, fd, 1⟩
  | none =>
    match (w.files.names.lookup full).bind w.files.info with
    | some info => return info
    | none => throw .missing

/-- Permissions of a new file. -/
def newMode (p : Process) (wanted : Nat) : Nat :=
  wanted - (wanted &&& p.mask)

/-- What a path leads to when it is opened; a file is made if there is none. -/
def channelAt (w : World) (p : Process) (path : Bytes) (access : Access) :
    Except FileFault (Channel × World) := do
  let full ← w.files.resolve true path
  match descriptorOf? full with
  | some source =>
    match w.channelOf p source with
    | some (.file n _ _) => return (.file n 0 access, w)
    | some c => return (c, w)
    | none => throw .missing
  | none =>
    match w.files.names.lookup full with
    | some n =>
      match w.files.content? n with
      | some (.device .terminal) => throw .noDevice
      | some (.device d) => return (.device d, w)
      | some .directory => if access = .read then return (.file n 0 access, w) else throw .isDirectory
      | _ =>
        if access = .write then
          let files := w.files.update n fun item => { item with content := .file [], changed := w.now }
          return (.file n 0 access, { w with files })
        else return (.file n 0 access, w)
    | none =>
      if access = .read then throw .missing
      else if FileTree.endsWithSlash path then throw .isDirectory
      else
        let files := w.files.create full ⟨.file [], newMode p 438, w.now⟩
        return (.file w.files.next 0 access, { w with files })

def openPath (w : World) (p : Process) (path : Bytes) (access : Access) :
    Except FileFault Nat × World :=
  match w.channelAt p path access with
  | .error f => (.error f, w)
  | .ok (c, w) =>
    let (fd, w) := w.openChannel p.pid c
    (.ok fd, w)

def listPath (w : World) (path : Bytes) : Except FileFault (List Bytes) := do
  let (full, n) ← w.files.number true path
  if w.files.content? n = some .directory then return w.files.namesIn full
  else throw .notDirectory

def resize (size : Nat) (data : Bytes) : Bytes :=
  data.take size ++ List.replicate (size - data.length) (Char.ofNat 0)

def changed (w : World) (p : Process) (c : FileChange) : Except FileFault FileTree := do
  match c with
  | .remove path directory => w.files.remove path directory
  | .directory path mode => w.files.make path ⟨.directory, newMode p mode, w.now⟩
  | .link path target =>
    if target.isEmpty then throw .missing else w.files.make path ⟨.link target, 511, w.now⟩
  | .name source target => w.files.addName source target
  | .rename source target => w.files.rename source target
  | .mode path mode =>
    let (_, n) ← w.files.number true path
    return w.files.update n ({ · with mode })
  | .time path changed =>
    let (_, n) ← w.files.number true path
    return w.files.update n ({ · with changed })
  | .size path size =>
    let (_, n) ← w.files.number true path
    match w.files.content? n with
    | some (.file data) =>
      return w.files.update n ({ · with content := .file (resize size data), changed := w.now })
    | _ => throw .isDirectory

def isWaitedFor (p : Process) (target : Option Nat) (e : Nat × Nat × ExitStatus) : Bool :=
  e.2.1 = p.pid && target.all (· = e.1)

def hasChild (w : World) (p : Process) (target : Option Nat) : Bool :=
  w.processes.any fun q => q.parent = p.pid && target.all (· = q.pid)

def waitFor (w : World) (p : Process) (target : Option Nat) : Waited × World :=
  match w.ended.find? (isWaitedFor p target) with
  | some e => (.ended e.1 e.2.2, { w with ended := w.ended.filter (·.1 ≠ e.1) })
  | none =>
    if !w.hasChild p target then (.noChild, w)
    else (if p.pending.isEmpty then .running else .interrupted, w)

/-- Carries out a call of a process. -/
def answer (w : World) (p : Process) : (c : Call) → c.Answer × World
  | .compute _ | .sleep _ => ((), w)
  | .read fd limit => w.readFrom p fd limit
  | .write fd data => w.writeTo p fd data
  | .openFile path access => w.openPath p path access
  | .pipe =>
    let i := w.nextFile
    let w := { w with pipes := (i, .empty) :: w.pipes }
    let (out, w) := w.openChannel p.pid (.pipeOut i)
    let (inn, w) := w.openChannel p.pid (.pipeIn i)
    ((out, inn), w)
  | .copy source target =>
    match p.descriptors.lookup source with
    | none => (false, w)
    | some file =>
      (true, collect (w.update p.pid fun p => { p with descriptors := Table.set target file p.descriptors }))
  | .save source =>
    match p.descriptors.lookup source with
    | none => (none, w)
    | some file =>
      let fd := freeDescriptor p 10
      (some fd, w.update p.pid fun p => { p with descriptors := Table.set fd file p.descriptors })
  | .close fd =>
    ((), collect (w.update p.pid fun p => { p with descriptors := Table.unset fd p.descriptors }))
  | .wait target _ => w.waitFor p target
  | .kill target signal =>
    if 0 < target then
      let pid := target.toNat
      if (w.process? pid).isSome then (true, w.deliver pid signal)
      else (w.ended.any (·.1 = pid), w)
    else
      let members := w.processes.filter fun q =>
        if target = -1 then q.pid ≠ p.pid
        else q.group = (if target = 0 then p.group else target.natAbs)
      (!members.isEmpty, members.foldl (fun w q => w.deliver q.pid signal) w)
  | .lead => ((), w.update p.pid ({ · with group := p.pid }))
  | .rewind fd count =>
    match w.channelOf p fd with
    | some (.file n offset access) => ((), w.setChannel p fd (.file n (offset - count) access))
    | _ => ((), w)
  | .handle signal d =>
    ((), w.update p.pid fun p =>
      { p with dispositions := match d with
        | none => Table.unset signal p.dispositions
        | some d => Table.set signal d p.dispositions })
  | .caught => (p.pending, w.update p.pid ({ · with pending := [] }))
  | .replace =>
    ((), collect (w.update p.pid fun p =>
      { p with
        descriptors := p.descriptors.filter (·.1 < 10)
        dispositions := p.dispositions.filter (·.2 = .ignored)
        pending := [] }))
  | .identity => ((p.pid, p.parent), w)
  | .clock => (w.now, w)
  | .inspect follow path => (w.inspectPath p follow path, w)
  | .list path => (w.listPath path, w)
  | .readLink path => (w.files.readLink path, w)
  | .resolve path => (w.files.resolve true path, w)
  | .change c =>
    match w.changed p c with
    | .ok files => (none, { w with files })
    | .error f => (some f, w)
  | .mask new =>
    (p.mask, match new with
      | some mask => w.update p.pid ({ · with mask })
      | none => w)
  | .limit r => (limitOf p.limits r, w)
  | .setLimit r l =>
    if Limit.exceeds l.soft l.hard then (some .invalid, w)
    else if Limit.exceeds l.hard (limitOf p.limits r).hard then (some .notPermitted, w)
    else (none, w.update p.pid fun p => { p with limits := Table.set r l p.limits })

/-- A process that has computed so long computes slower from then on. -/
def freshTime : Nat := 400000
def slowness : Nat := 10

/-- What a computation takes. -/
def computeTime (p : Process) (t : Nat) : Nat := if p.spent < freshTime then t else slowness * t

/-- When a process can go on; `none` while it is blocked. -/
def readyAt? (w : World) (p : Process) : Option Nat :=
  if p.stopped then none
  else
    match p.program with
    | .endless => none
    | .call (.compute t) _ => some (max w.now (p.clock + computeTime p t))
    | .call (.sleep t) _ => some (max w.now (p.clock + t))
    | .call (.read fd _) _ =>
      match w.channelOf p fd with
      | some (.pipeOut i) =>
        if 0 < ((w.pipes.lookup i).getD .empty).size || !w.held (· = .pipeIn i) then
          some (max w.now p.clock)
        else none
      | _ => some (max w.now p.clock)
    | .call (.write fd _) _ =>
      match w.channelOf p fd with
      | some (.pipeIn i) =>
        if ((w.pipes.lookup i).getD .empty).size < pipeCapacity || !w.held (· = .pipeOut i) then
          some (max w.now p.clock)
        else none
      | _ => some (max w.now p.clock)
    | .call (.wait target block) _ =>
      if !block || !p.pending.isEmpty || w.ended.any (isWaitedFor p target) || !w.hasChild p target
      then some (max w.now p.clock)
      else none
    | _ => some (max w.now p.clock)

/-- What forking costs the parent, and when the child starts. -/
def forkCost : Nat := 60
def forkDelay : Nat := 300

/-- So many bytes a process moves in no time; each byte beyond them takes so many nanoseconds. -/
def freeBytes : Nat := 8388608
def byteTime : Nat := 200

/-- The end of a line takes as long as so many bytes. -/
def lineWeight : Nat := 5

/-- What data weighs when it is moved. -/
def weight (data : Bytes) : Nat :=
  data.foldl (fun n c => if c = '\n' then n + lineWeight else n + 1) 0

/-- How much a call moved. -/
def bytesMoved : (c : Call) → c.Answer → Nat
  | .read _ _, .ok data => weight data
  | .write _ data, _ => weight data
  | _, _ => 0

/-- The next step of a process at a time. -/
def advance (w : World) (p : Process) (time : Nat) : World :=
  let w := { w with now := time }
  match p.program with
  | .endless => w
  | .exit status => w.finish p.pid (.code (status % 256))
  | .call c k =>
    let (a, w) := w.answer p c
    let bytes := bytesMoved c a
    let moved := p.moved + bytes
    let delay := if moved ≤ freeBytes then 0 else bytes * byteTime / 1000
    let (spent, taken) := match c with
      | .compute t => (p.spent + t, delay + computeTime p t)
      | _ => (p.spent, delay)
    let busy := p.busy + taken
    let signal? := (limitOf p.limits .time).timeSignal? p.busy busy
    let pid := p.pid
    -- Nothing else may hold the rest of the program while it goes on, or its data would be copied.
    let w := w.update pid fun p =>
      { p with program := .endless, clock := time + delay, moved, spent, busy }
    let program := k a
    let w := w.update pid ({ · with program })
    match signal? with
    | some signal => w.deliver pid signal
    | none => w
  | .fork child k =>
    let pid := w.nextPid
    let q : Process :=
      { p with
        pid, parent := p.pid, clock := time + forkDelay, program := child, pending := [], moved := 0
        spent := 0, busy := 0 }
    let w := { w with nextPid := pid + 1, processes := w.processes ++ [q] }
    w.update p.pid fun p => { p with program := k pid, clock := time + forkCost }

/-- The process that can go on first, and when. -/
def first? (w : World) : Option (Process × Nat) :=
  w.processes.foldl
    (fun best p =>
      match w.readyAt? p, best with
      | none, _ => best
      | some t, none => some (p, t)
      | some t, some (_, least) => if t < least then some (p, t) else best)
    none

/-- Runs until nothing can go on, the output is let go of and the first process has ended, or the time
is up. -/
def run (limit : Nat) : Nat → World → World
  | 0, w => w
  | steps + 1, w =>
    if w.finished.isSome && w.released.isSome then w
    else
      match w.first? with
      | none => w
      | some (p, time) => if limit < time then w else run limit steps (w.advance p time)

end World

/-- A computation that makes calls on the way to its result. -/
def Task (α : Type) : Type := (α → Program) → Program

namespace Task

instance : Monad Task where
  pure a := fun k => k a
  bind m f := fun k => m fun a => f a k

def call (c : Call) : Task c.Answer := fun k => .call c k

def fork (child : Program) : Task Nat := fun k => .fork child k

/-- The program of a task that yields a status. -/
def program (t : Task Nat) : Program := t .exit

end Task
end ValueInspector.Shell
