import ValueInspector.Helper.Run
import ValueInspector.Shell.Catalog

/-! # Launching programs

The system in which a helper runs: its files, one process whose input is empty and whose output is
captured, and its run up to a deadline. This is one launcher to run helpers with; what is stated of helpers
is stated for any launcher, and nothing else depends on this one.
-/
namespace ValueInspector.Shell

/-! ## Files at the start -/

def directories : List String :=
  ["/boot", "/dev", "/dev/pts", "/dev/shm", "/etc", "/etc/alternatives", "/home", "/media", "/mnt",
   "/opt", "/proc", "/proc/self", "/proc/self/fd", "/root", "/run", "/srv", "/sys", "/usr", "/usr/bin",
   "/usr/games", "/usr/include", "/usr/lib", "/usr/lib64", "/usr/local", "/usr/local/bin",
   "/usr/local/lib", "/usr/local/sbin", "/usr/sbin", "/usr/share", "/usr/src", "/var", "/var/lib",
   "/var/log", "/work"]

/-- Directories where everybody may write. -/
def sharedDirectories : List String := ["/tmp", "/var/tmp"]

def links : List (String × String) :=
  [("/bin", "usr/bin"), ("/sbin", "usr/sbin"), ("/lib", "usr/lib"), ("/lib64", "usr/lib64"),
   ("/dev/fd", "/proc/self/fd"), ("/dev/stdin", "/proc/self/fd/0"), ("/dev/stdout", "/proc/self/fd/1"),
   ("/dev/stderr", "/proc/self/fd/2"), ("/usr/bin/sh", "dash"),
   ("/usr/bin/awk", "/etc/alternatives/awk"), ("/etc/alternatives/awk", "/usr/bin/mawk"),
   ("/usr/bin/nawk", "/etc/alternatives/nawk"), ("/etc/alternatives/nawk", "/usr/bin/mawk")]

def devices : List (String × Device) :=
  [("/dev/null", .null), ("/dev/zero", .zero), ("/dev/full", .full), ("/dev/random", .random),
   ("/dev/urandom", .random), ("/dev/tty", .terminal)]

/-- A program that calls another one with one more option. -/
def wrappers : List (String × String) :=
  [("egrep", "#!/bin/sh\ncmd=$\x7b0##*/\x7d\nexec grep -E \"$@\"\n"),
   ("fgrep", "#!/bin/sh\ncmd=$\x7b0##*/\x7d\nexec grep -F \"$@\"\n")]

/-- The users of the system, as a file lists them. -/
def users : List String :=
  ["root:x:0:0:root:/root:/bin/bash", "daemon:x:1:1:daemon:/usr/sbin:/usr/sbin/nologin",
   "bin:x:2:2:bin:/bin:/usr/sbin/nologin", "sys:x:3:3:sys:/dev:/usr/sbin/nologin",
   "sync:x:4:65534:sync:/bin:/bin/sync", "games:x:5:60:games:/usr/games:/usr/sbin/nologin",
   "man:x:6:12:man:/var/cache/man:/usr/sbin/nologin",
   "lp:x:7:7:lp:/var/spool/lpd:/usr/sbin/nologin",
   "mail:x:8:8:mail:/var/mail:/usr/sbin/nologin",
   "news:x:9:9:news:/var/spool/news:/usr/sbin/nologin",
   "uucp:x:10:10:uucp:/var/spool/uucp:/usr/sbin/nologin",
   "proxy:x:13:13:proxy:/bin:/usr/sbin/nologin",
   "www-data:x:33:33:www-data:/var/www:/usr/sbin/nologin",
   "backup:x:34:34:backup:/var/backups:/usr/sbin/nologin",
   "list:x:38:38:Mailing List Manager:/var/list:/usr/sbin/nologin",
   "irc:x:39:39:ircd:/run/ircd:/usr/sbin/nologin",
   "_apt:x:42:65534::/nonexistent:/usr/sbin/nologin",
   "nobody:x:65534:65534:nobody:/nonexistent:/usr/sbin/nologin"]

/-- The groups of the system, as a file lists them. -/
def groups : List String :=
  ["root:x:0:", "daemon:x:1:", "bin:x:2:", "sys:x:3:", "adm:x:4:", "tty:x:5:", "disk:x:6:",
   "lp:x:7:", "mail:x:8:", "news:x:9:", "uucp:x:10:", "man:x:12:", "proxy:x:13:",
   "kmem:x:15:", "dialout:x:20:", "fax:x:21:", "voice:x:22:", "cdrom:x:24:", "floppy:x:25:",
   "tape:x:26:", "sudo:x:27:", "audio:x:29:", "dip:x:30:", "www-data:x:33:", "backup:x:34:",
   "operator:x:37:", "list:x:38:", "irc:x:39:", "src:x:40:", "shadow:x:42:", "utmp:x:43:",
   "video:x:44:", "sasl:x:45:", "plugdev:x:46:", "staff:x:50:", "games:x:60:",
   "users:x:100:", "nogroup:x:65534:"]

/-- The names of all programs in `/usr/bin`, with what their files hold. -/
def programFiles : List (String × Bytes) :=
  wrappers.map (fun w => (w.1, bytes w.2)) ++
    (shellNames ++ starterNames ++ utilities.map (·.1)).map fun name => (name, codeMark ++ bytes name)

def startItems : List (Bytes × Item) :=
  let item (path : String) (content : Content) (mode : Nat) : Bytes × Item :=
    (bytes path, ⟨content, mode, 0⟩)
  [item "/" .directory 493] ++ directories.map (item · .directory 493) ++
    sharedDirectories.map (item · .directory 1023) ++
    links.map (fun l => item l.1 (.link (bytes l.2)) 511) ++
    devices.map (fun d => item d.1 (.device d.2) 438) ++
    programFiles.map (fun p => item ("/usr/bin/" ++ p.1) (.file p.2) 493) ++
    [item "/etc/passwd" (.file (Utility.unlines (users.map bytes))) 420, item "/etc/group" (.file (Utility.unlines (groups.map bytes))) 420,
     item "/etc/shells" (.file (bytes "# /etc/shells: valid login shells\n/bin/sh\n/usr/bin/sh\n")) 420]

def startFiles : FileTree :=
  let numbered := startItems.zipIdx 1
  { names := numbered.map fun e => (e.1.1, e.2)
    items := numbered.map fun e => (e.2, e.1.2)
    next := numbered.length + 1 }

/-! ## The run of a helper -/

def startEnvironment : List (Bytes × Bytes) :=
  [(bytes "PATH", bytes "/usr/local/sbin:/usr/local/bin:/usr/sbin:/usr/bin:/sbin:/bin"),
   (bytes "HOME", bytes "/root")]

/-- The mask that takes the right to write from all but the owner. -/
def startMask : Nat := 18

def startProcess (program : Program) : Process :=
  { pid := World.rootPid, parent := World.hostPid, group := World.hostPid, clock := 0, stopped := false
    program, descriptors := [(0, 0), (1, 1), (2, 2)], dispositions := [], pending := []
    mask := startMask, moved := 0, spent := 0, busy := 0, limits := [] }

/-- A system with one process, which runs a program. -/
def startWorld (program : Program) : World :=
  { now := 0, processes := [startProcess program], ended := [], nextPid := World.rootPid + 1
    openFiles := [(0, .device .null), (1, .captured), (2, .device .null)], nextFile := 3, pipes := []
    files := startFiles, output := [], finished := none, released := none }

/-- An argument that is as long as this cannot be passed to a program. -/
def argumentLimit : Nat := 131072

/-- Where the program of a helper is, if it can be started. -/
def helperPath? (program : Bytes) : Option Bytes :=
  let w := startWorld .endless
  let isProgram (p : Bytes) : Bool :=
    match w.inspectPath (startProcess .endless) true (Sh.pathFrom World.workingDirectory p) with
    | .ok info => info.isProgram
    | .error _ => false
  let search := ((startEnvironment.lookup (bytes "PATH")).getD []).splitOn ':'
  let candidates :=
    if program.isEmpty then []
    else if '/' ∈ program then [program]
    else search.map fun place => place ++ '/' :: program
  candidates.find? isProgram

/-- A time in whole milliseconds. -/
def milliseconds (t : Nat) : Nat := t / 1000

/-- The longest run that is followed, in milliseconds. -/
def longestRun : Nat := 3600000

/-- Starts a program with arguments, and follows it up to a deadline. -/
def launch : Launcher := fun timeoutMs program args =>
  let program := Bytes.ofText program
  let args := args.map Bytes.ofText
  if (program :: args).any fun a => Char.ofNat 0 ∈ a then .error "nul byte found in provided data"
  else if (program :: args).any fun a => argumentLimit ≤ a.length then
    .error "Argument list too long"
  else
    match helperPath? program with
    | none => .error "No such file or directory"
    | some path =>
      let i : Invocation := ⟨program :: args, startEnvironment, World.workingDirectory⟩
      let task := (evaluator nesting).execute path i
      let beyond := timeoutMs.toNat + 1
      let limit := 1000 * min beyond longestRun
      let w := World.run limit 1000000000 (startWorld task.program)
      let status := match w.finished with
        | some (_, status) => status
        | none => .code 0
      .ok
        { status, output := Bytes.octets w.output.reverse.flatten
          exitTime := (w.finished.map fun f => milliseconds f.1).getD beyond
          closeTime := (w.released.map milliseconds).getD beyond }

end ValueInspector.Shell
