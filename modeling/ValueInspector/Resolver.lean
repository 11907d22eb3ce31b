import ValueInspector.Name
import ValueInspector.TypeDesc

/-! # Resolving captured type names

A captured name is looked up as it stands, then without a length prefix, then as its demangled
form. What the demangler said about a name is remembered, so no name is demangled twice.
-/
namespace ValueInspector

inductive ResolveStep where
  | direct
  | lengthPrefix
  | demangled
deriving DecidableEq, Repr

/-- A resolution: the type, the step that found it, and the text that was looked up. -/
structure Resolved where
  ty : TypeDesc
  step : ResolveStep
  spelling : String
deriving DecidableEq, Repr

/-- A demangler answers a name, and its answer may depend on the names it was asked before. -/
structure Demangler where
  answer : List String → String → Option String

namespace Demangler

def ofFunction (f : String → Option String) : Demangler := ⟨fun _ => f⟩

/-- The demangler that knows nothing. -/
def silent : Demangler := ofFunction fun _ => none

end Demangler

/-- What a resolver keeps between calls: the names it gave the demangler, in order, and what each of
them yielded. -/
structure ResolverMemory where
  asked : List String
  answers : List (String × Option String)
deriving Inhabited

def ResolverMemory.fresh : ResolverMemory := ⟨[], []⟩

structure Resolver where
  lookup : String → Option TypeDesc
  demangler : Option Demangler

namespace Resolver

/-- One look-up, labelled with the step it belongs to. -/
def found (lookup : String → Option TypeDesc) (step : ResolveStep) (spelling : String) :
    Option Resolved :=
  (lookup spelling).map fun ty => ⟨ty, step, spelling⟩

/-- The demangler's answer for a name: the remembered one, or else a new one. -/
def consult (d : Demangler) (name : String) (m : ResolverMemory) : Option String × ResolverMemory :=
  match m.answers.lookup name with
  | some answer => (answer, m)
  | none =>
    let answer := d.answer m.asked name
    (answer, ⟨m.asked ++ [name], (name, answer) :: m.answers⟩)

/-- The steps that need no demangler. -/
def resolvePlain (lookup : String → Option TypeDesc) (captured : String) : Option Resolved :=
  match found lookup .direct captured with
  | some r => some r
  | none => (Name.stripLengthPrefix captured).bind (found lookup .lengthPrefix)

/-- Looks up a demangled form, unless it is empty or repeats a spelling that was tried before. -/
def resolveDemangled (lookup : String → Option TypeDesc) (captured : String)
    (output : Option String) : Option Resolved :=
  match output with
  | none => none
  | some output =>
    let text := Text.trimmed output
    if text = "" ∨ text = captured ∨ some text = Name.stripLengthPrefix captured then none
    else found lookup .demangled text

/-- Resolves a captured name and says by which step. -/
def resolve (r : Resolver) (name : String) (m : ResolverMemory) : Option Resolved × ResolverMemory :=
  let captured := Name.stripQuotes name
  if captured = "" then (none, m)
  else
    match resolvePlain r.lookup captured with
    | some found => (some found, m)
    | none =>
      match r.demangler with
      | none => (none, m)
      | some d =>
        let (output, m) := consult d captured m
        (resolveDemangled r.lookup captured output, m)

/-- Resolves a captured name to a type alone. -/
def resolveType (r : Resolver) (name : String) (m : ResolverMemory) :
    Option TypeDesc × ResolverMemory :=
  let (found, m) := r.resolve name m
  (found.map (·.ty), m)

/-- Resolves several names in order, with one memory. -/
def resolveAll (r : Resolver) : List String → ResolverMemory → List (Option Resolved) × ResolverMemory
  | [], m => ([], m)
  | name :: rest, m =>
    let (first, m) := r.resolve name m
    let (others, m) := r.resolveAll rest m
    (first :: others, m)

end Resolver
end ValueInspector
