/-! # Alternatives of tagged unions

Each union kind is a closed list of alternatives. An alternative has a discriminant, by which it is
found, and the type its content is stored as.
-/
namespace ValueInspector

/-- The alternatives of one union kind, in discriminant order. -/
class Alternatives (α : Type) where
  /-- Type name of the union itself. -/
  union : String
  all : List α
  /-- The alternative at a discriminant; `none` for any other number. -/
  ofDiscriminant? : Int64 → Option α
  discriminant : α → Int64
  typeName : α → String

/-- A text is held in an owned buffer or seen through a view. -/
inductive TextAlternative where
  | owned | view
deriving DecidableEq, Repr

instance : Alternatives TextAlternative where
  union := "complate::String"
  all := [.owned, .view]
  ofDiscriminant?
    | 0 => some .owned
    | 1 => some .view
    | _ => none
  discriminant
    | .owned => 0
    | .view => 1
  typeName
    | .owned => "std::string"
    | .view => "std::string_view"

inductive NumberAlternative where
  | int32 | uint32 | int64 | double
deriving DecidableEq, Repr

instance : Alternatives NumberAlternative where
  union := "complate::Number"
  all := [.int32, .uint32, .int64, .double]
  ofDiscriminant?
    | 0 => some .int32
    | 1 => some .uint32
    | 2 => some .int64
    | 3 => some .double
    | _ => none
  discriminant
    | .int32 => 0
    | .uint32 => 1
    | .int64 => 2
    | .double => 3
  typeName
    | .int32 => "int32_t"
    | .uint32 => "uint32_t"
    | .int64 => "int64_t"
    | .double => "double"

inductive ValueAlternative where
  | undefined | null | bool | number | text | array | object | function | proxy | proxyWeak
deriving DecidableEq, Repr

instance : Alternatives ValueAlternative where
  union := "complate::Value"
  all := [.undefined, .null, .bool, .number, .text, .array, .object, .function, .proxy, .proxyWeak]
  ofDiscriminant?
    | 0 => some .undefined
    | 1 => some .null
    | 2 => some .bool
    | 3 => some .number
    | 4 => some .text
    | 5 => some .array
    | 6 => some .object
    | 7 => some .function
    | 8 => some .proxy
    | 9 => some .proxyWeak
    | _ => none
  discriminant
    | .undefined => 0
    | .null => 1
    | .bool => 2
    | .number => 3
    | .text => 4
    | .array => 5
    | .object => 6
    | .function => 7
    | .proxy => 8
    | .proxyWeak => 9
  typeName
    | .undefined => "std::monostate"
    | .null => "nullptr_t"
    | .bool => "bool"
    | .number => "complate::Number"
    | .text => "complate::String"
    | .array => "complate::Array"
    | .object => "complate::Object"
    | .function => "complate::Function"
    | .proxy => "complate::Proxy"
    | .proxyWeak => "complate::ProxyWeak"

end ValueInspector
