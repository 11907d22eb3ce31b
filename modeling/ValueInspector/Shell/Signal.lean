import ValueInspector.Shell.Bytes

/-! # Signals

Numbers and names of signals, and what each does to a process that does not handle it.
-/
namespace ValueInspector.Shell

/-- Names without their usual first three letters, by number; number 0 stands for the exit of a
shell. -/
def signalNames : List String :=
  ["EXIT", "HUP", "INT", "QUIT", "ILL", "TRAP", "ABRT", "BUS", "FPE", "KILL", "USR1", "SEGV", "USR2",
   "PIPE", "ALRM", "TERM", "16", "CHLD", "CONT", "STOP", "TSTP", "TTIN", "TTOU", "URG", "XCPU",
   "XFSZ", "VTALRM", "PROF", "WINCH", "IO", "PWR", "SYS", "32", "33", "RTMIN", "RTMIN+1", "RTMIN+2",
   "RTMIN+3", "RTMIN+4", "RTMIN+5", "RTMIN+6", "RTMIN+7", "RTMIN+8", "RTMIN+9", "RTMIN+10",
   "RTMIN+11", "RTMIN+12", "RTMIN+13", "RTMIN+14", "RTMIN+15", "RTMAX-14", "RTMAX-13", "RTMAX-12",
   "RTMAX-11", "RTMAX-10", "RTMAX-9", "RTMAX-8", "RTMAX-7", "RTMAX-6", "RTMAX-5", "RTMAX-4",
   "RTMAX-3", "RTMAX-2", "RTMAX-1", "RTMAX"]

def signalCount : Nat := signalNames.length

/-- What a signal does by default. -/
inductive SignalEffect where
  | ends
  | nothing
  | stops
  | continues
deriving DecidableEq, Repr

def signalEffect (n : Nat) : SignalEffect :=
  if n = 0 || n = 17 || n = 23 || n = 28 then .nothing
  else if n = 18 then .continues
  else if 19 ≤ n && n ≤ 22 then .stops
  else .ends

/-- A signal given by its number or its name, in either case of letters. -/
def signalOf? (name : Bytes) : Option Nat :=
  match Bytes.natural? name with
  | some n => if n < signalCount then some n else none
  | none =>
    let upper := name.map Char.toUpper
    let i := signalNames.findIdx fun s => s.toList = upper
    if i < signalCount then some i else none

/-- How a shell reports a child that a signal ended. -/
def signalTexts : List String :=
  ["", "Hangup", "Interrupt", "Quit", "Illegal instruction", "Trace/breakpoint trap", "Aborted",
   "Bus error", "Floating point exception", "Killed", "User defined signal 1", "Segmentation fault",
   "User defined signal 2", "Broken pipe", "Alarm clock", "Terminated", "Stack fault",
   "Child exited", "Continued", "Stopped (signal)", "Stopped", "Stopped (tty input)",
   "Stopped (tty output)", "Urgent I/O condition", "CPU time limit exceeded",
   "File size limit exceeded", "Virtual timer expired", "Profiling timer expired",
   "Window changed", "I/O possible", "Power failure", "Bad system call"]

def signalText (n : Nat) : Bytes :=
  match signalTexts[n]? with
  | some text => bytes text
  | none => bytes "Real-time signal " ++ Bytes.ofNat (n - 34)

def signalName (n : Nat) : Bytes := ((signalNames[n]?).getD (toString n)).toList

end ValueInspector.Shell
