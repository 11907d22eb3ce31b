import ValueInspector.Json.Fault
import ValueInspector.Text.Numeral

/-! # Causes of failure

One constructor for each cause, with what the message needs, and the wording of all messages in one
function. A call that changes a state leaves one whether it returns or fails.
-/
namespace ValueInspector

/-- How a finished helper process ended. -/
inductive ExitStatus where
  | code (n : Nat)
  | signal (n : Nat)
deriving DecidableEq, Repr

namespace ExitStatus

def success (s : ExitStatus) : Bool := s = .code 0

/-- Names of the signals that end a process. -/
def signalName? : Nat → Option String
  | 1 => some "SIGHUP" | 2 => some "SIGINT" | 3 => some "SIGQUIT" | 4 => some "SIGILL"
  | 5 => some "SIGTRAP" | 6 => some "SIGABRT" | 7 => some "SIGBUS" | 8 => some "SIGFPE"
  | 9 => some "SIGKILL" | 10 => some "SIGUSR1" | 11 => some "SIGSEGV" | 12 => some "SIGUSR2"
  | 13 => some "SIGPIPE" | 14 => some "SIGALRM" | 15 => some "SIGTERM" | 16 => some "SIGSTKFLT"
  | 24 => some "SIGXCPU" | 25 => some "SIGXFSZ" | 26 => some "SIGVTALRM" | 27 => some "SIGPROF"
  | 29 => some "SIGIO" | 30 => some "SIGPWR" | 31 => some "SIGSYS"
  | _ => none

def text : ExitStatus → String
  | .code n => "exit status: " ++ toString n
  | .signal n =>
    match signalName? n with
    | some name => "signal: " ++ toString n ++ " (" ++ name ++ ")"
    | none => "signal: " ++ toString n

end ExitStatus

inductive InspectError where
  | missingImplementation (name : String)
  | unknownTypeId (id : UInt32) (spelling : String)
  | missingField (type field : String)
  | notAStruct (type : String)
  | unmapped (address : UInt64) (length : Nat)
  | nullDereference (type : String)
  | notAPointer (type : String)
  | incompleteType (type : String)
  | notAnInteger (type : String)
  | duplicateType (name : String)
  | regionOverlap (start : UInt64) (length : Nat)
  | demanglerSpawn (reason : String)
  | demanglerExit (status : ExitStatus)
  | demanglerTimeout (milliseconds : UInt64)
  | demanglerOutput
  | options (fault : Json.Fault)
deriving DecidableEq, Repr

namespace InspectError
open Text

def message : InspectError → String
  | .missingImplementation name => "implementation type not found: " ++ name
  | .unknownTypeId id spelling => "unknown type id " ++ toString id.toNat ++ " (" ++ spelling ++ ")"
  | .missingField type field => "missing field " ++ field ++ " on " ++ type
  | .notAStruct type => type ++ " has no fields"
  | .unmapped address length =>
    "unmapped read at " ++ hexWord address ++ ", need " ++ toString length ++ " bytes"
  | .nullDereference type => "null dereference of " ++ type
  | .notAPointer type => type ++ " is not a pointer"
  | .incompleteType type => "cannot dereference " ++ type ++ ": pointee type is incomplete"
  | .notAnInteger type => type ++ " is not an integer"
  | .duplicateType name => "duplicate type name " ++ name
  | .regionOverlap start length =>
    "region at " ++ hexWord start ++ " (len " ++ toString length ++ ") overlaps an existing region"
  | .demanglerSpawn reason => "demangler spawn failed: " ++ reason
  | .demanglerExit status => "demangler exited with " ++ status.text
  | .demanglerTimeout milliseconds =>
    "demangler timed out after " ++ toString milliseconds.toNat ++ " ms"
  | .demanglerOutput => "demangler produced malformed output"
  | .options .malformed => "invalid inspector options: malformed text"
  | .options .ended => "invalid inspector options: unexpected end of text"
  | .options .mismatched => "invalid inspector options: unexpected value"

end InspectError

/-- Calls that change a state. A failure comes with the state that the call left, too. -/
abbrev Change (σ α : Type) := EStateM InspectError σ α

namespace Change
variable {σ τ α : Type}

/-- The state a call leaves. -/
def after (c : Change σ α) (s : σ) : σ :=
  match c.run s with
  | .ok _ s | .error _ s => s

/-- What a call comes to, as a change of a state that is made of the one it left. -/
def mapState (f : σ → τ) : EStateM.Result InspectError σ α → EStateM.Result InspectError τ α
  | .ok a s => .ok a (f s)
  | .error e s => .error e (f s)

end Change

end ValueInspector
