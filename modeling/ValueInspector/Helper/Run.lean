import ValueInspector.Error
import ValueInspector.Options.Basic
import ValueInspector.Resolver
import ValueInspector.Text.Utf8

/-! # Helper processes

A demangling helper is started with some arguments and a name, and its run is judged by how it ended,
when, and what it wrote. What starts a process is a parameter: it yields the finished run or the
reason why there was none.
-/
namespace ValueInspector

/-- A run of a process, with times in milliseconds from its start. The output may be held open by
another process after the exit. -/
structure HelperRun where
  status : ExitStatus
  output : List UInt8
  exitTime : Nat
  closeTime : Nat
deriving DecidableEq, Repr

namespace HelperRun

/-- The text up to the first line feed. -/
def firstLine (text : List Char) : List Char := text.takeWhile (· ≠ '\n')

/-- What a run that ended in time yields: the trimmed first line of its output. -/
def judge (status : ExitStatus) (output : List UInt8) : Except InspectError String :=
  if !status.success then .error (.demanglerExit status)
  else
    match Text.Utf8.decode? output with
    | none => .error .demanglerOutput
    | some text =>
      let line := Text.trim (firstLine text.toList)
      if line.isEmpty then .error .demanglerOutput else .ok (String.ofList line)

/-- What a run yields under a deadline, by which it must have exited and closed its output. -/
def outcome (run : HelperRun) (timeoutMs : UInt64) : Except InspectError String :=
  if timeoutMs.toNat ≤ run.exitTime || timeoutMs.toNat < run.closeTime then
    .error (.demanglerTimeout timeoutMs)
  else judge run.status run.output

end HelperRun

/-- Starts a program with arguments, and follows its run up to a deadline in milliseconds. -/
abbrev Launcher := UInt64 → String → List String → Except String HelperRun

/-- An external demangler: a program, the arguments before the name, and a deadline. -/
structure Helper where
  program : String
  args : List String
  timeoutMs : UInt64
deriving DecidableEq, Repr

namespace Helper

def ofOptions (o : DemanglerOptions) : Helper := ⟨o.program, o.args, o.timeoutMs⟩

def run (h : Helper) (launch : Launcher) (name : String) : Except InspectError String :=
  match launch h.timeoutMs h.program (h.args ++ [name]) with
  | .error reason => .error (.demanglerSpawn reason)
  | .ok run => run.outcome h.timeoutMs

/-- Every failure is no answer. -/
def demangle (h : Helper) (launch : Launcher) (name : String) : Option String :=
  (h.run launch name).toOption

def demangler (h : Helper) (launch : Launcher) : Demangler := .ofFunction (h.demangle launch)

end Helper
end ValueInspector
