/-! # Faults of JSON texts

The text is not in the format, it ends too soon, or a well-formed value in it is of the wrong type,
out of range or repeated.
-/
namespace ValueInspector.Json

inductive Fault where
  | malformed
  | ended
  | mismatched
deriving DecidableEq, Repr

end ValueInspector.Json
