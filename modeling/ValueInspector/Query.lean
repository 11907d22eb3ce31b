import ValueInspector.Oracle
import ValueInspector.Resolver

/-! # Queries

A query is a finite tree of requests to an oracle and a resolver, with a result at each leaf. What a
decoder may do is exactly what a query may ask, so a decoder reaches the demangler only through the
resolver. The same query can be run against an oracle with a remembering resolver, or evaluated
with any function that answers requests.
-/
namespace ValueInspector

inductive Request where
  | lookupType (name : String)
  | reinterpret (v : RawValue) (ty : TypeDesc)
  | readField (v : RawValue) (field : String)
  | dereference (v : RawValue)
  | readInteger (v : RawValue)
  | formatValue (v : RawValue)
  | fieldNames (v : RawValue)
  | resolve (name : String)

abbrev Request.Answer : Request → Type
  | .lookupType _ => Option TypeDesc
  | .reinterpret _ _ | .readField _ _ | .dereference _ => Except InspectError RawValue
  | .readInteger _ => Except InspectError Int64
  | .formatValue _ => Except InspectError String
  | .fieldNames _ => Except InspectError (List String)
  | .resolve _ => Option Resolved

inductive Query (α : Type) : Type where
  | done (a : α)
  | ask (r : Request) (k : r.Answer → Query α)

namespace Query
variable {α β : Type}

protected def bind : Query α → (α → Query β) → Query β
  | done a, f => f a
  | ask r k, f => ask r fun answer => (k answer).bind f

instance : Monad Query where
  pure := done
  bind := Query.bind

/-- One request. -/
def request (r : Request) : Query r.Answer := ask r done

/-- The result when requests are answered by a function. -/
def eval (host : (r : Request) → r.Answer) : Query α → α
  | done a => a
  | ask r k => (k (host r)).eval host

end Query

/-- Where queries run: an oracle, and a demangler for the resolver over it, if names are demangled
at all. -/
structure Host where
  oracle : Oracle
  demangler : Option Demangler

namespace Host

def resolver (h : Host) : Resolver := ⟨h.oracle.lookupType, h.demangler⟩

/-- The answer to a request, and what the resolver remembers after it. -/
def answer (h : Host) (m : ResolverMemory) : (r : Request) → r.Answer × ResolverMemory
  | .lookupType name => (h.oracle.lookupType name, m)
  | .reinterpret v ty => (h.oracle.reinterpret v ty, m)
  | .readField v field => (h.oracle.readField v field, m)
  | .dereference v => (h.oracle.dereference v, m)
  | .readInteger v => (h.oracle.readInteger v, m)
  | .formatValue v => (h.oracle.formatValue v, m)
  | .fieldNames v => (h.oracle.fieldNames v, m)
  | .resolve name => h.resolver.resolve name m

end Host

namespace Query
variable {α : Type}

/-- The result on a host, and what the resolver remembers at the end. -/
def run (h : Host) : Query α → ResolverMemory → α × ResolverMemory
  | done a, m => (a, m)
  | ask r k, m =>
    let (answer, m) := h.answer m r
    (k answer).run h m

/-- The result with a resolver that remembers nothing yet. -/
def runFresh (h : Host) (q : Query α) : α := (q.run h .fresh).1

end Query

/-- Queries that may fail. -/
abbrev Decode := ExceptT InspectError Query

namespace Decode

def lookupType (name : String) : Decode (Option TypeDesc) := Query.request (.lookupType name)
def resolve (name : String) : Decode (Option Resolved) := Query.request (.resolve name)
def reinterpret (v : RawValue) (ty : TypeDesc) : Decode RawValue :=
  ExceptT.mk (Query.request (.reinterpret v ty))
def readField (v : RawValue) (field : String) : Decode RawValue :=
  ExceptT.mk (Query.request (.readField v field))
def dereference (v : RawValue) : Decode RawValue := ExceptT.mk (Query.request (.dereference v))
def readInteger (v : RawValue) : Decode Int64 := ExceptT.mk (Query.request (.readInteger v))
def formatValue (v : RawValue) : Decode String := ExceptT.mk (Query.request (.formatValue v))
def fieldNames (v : RawValue) : Decode (List String) := ExceptT.mk (Query.request (.fieldNames v))

/-- Follows a chain of member names. -/
def readPath (v : RawValue) : List String → Decode RawValue
  | [] => return v
  | field :: path => do readPath (← readField v field) path

/-- The result, or nothing if the query failed. -/
def toOption {α : Type} (q : Decode α) : Query (Option α) := do
  match ← q.run with
  | .ok a => return some a
  | .error _ => return none

end Decode
end ValueInspector
