import ValueInspector.Error
import ValueInspector.Json.Record
import ValueInspector.Json.Render
import ValueInspector.Options.Basic

/-! # Options in JSON

Options are read over the standard ones, at every level: a name that is missing keeps its standard
value. They are written with all names.
-/
namespace ValueInspector
open Json

def DemanglerOptions.fields : List (RecordField DemanglerOptions) :=
  [field "enabled" readBool fun enabled o => { o with enabled },
   field "program" readString fun program o => { o with program },
   field "args" (readList readString) fun args o => { o with args },
   field "timeout_ms" (readBelow UInt64.size) fun n o => { o with timeoutMs := UInt64.ofNat n }]

def StandardLayout.fields : List (RecordField StandardLayout) :=
  [field "variant_field" readString fun variantField o => { o with variantField },
   field "variant_index" readString fun variantIndex o => { o with variantIndex },
   field "pimpl_field" readString fun pimplField o => { o with pimplField },
   field "pimpl_pointer" (readList readString) fun pimplPointer o => { o with pimplPointer },
   field "optional_engaged" (readList readString) fun optionalEngaged o =>
     { o with optionalEngaged }]

def InspectOptions.fields : List (RecordField InspectOptions) :=
  [field "max_depth" (readBelow UInt32.size) fun n o => { o with maxDepth := UInt32.ofNat n },
   field "max_children" (readBelow UInt64.size) fun n o => { o with maxChildren := UInt64.ofNat n },
   field "expand_pointers" (readBelow UInt32.size) fun n o =>
     { o with expandPointers := UInt32.ofNat n },
   field "max_text_len" (readBelow UInt64.size) fun n o => { o with maxTextLen := UInt64.ofNat n },
   field "demangler" (readRecord DemanglerOptions.fields .standard) fun demangler o =>
     { o with demangler },
   field "layout" (readRecord StandardLayout.fields .standard) fun layout o => { o with layout }]

/-- The options a text gives. -/
def InspectOptions.ofText (s : String) : Except InspectError InspectOptions :=
  match readAll (readRecord InspectOptions.fields .standard) s with
  | .ok o => .ok o
  | .error fault => .error (.options fault)

def DemanglerOptions.toJson (o : DemanglerOptions) : Json :=
  .object
    [("enabled", .bool o.enabled), ("program", .string o.program),
     ("args", .array (o.args.map .string)), ("timeout_ms", .nat o.timeoutMs.toNat)]

def StandardLayout.toJson (o : StandardLayout) : Json :=
  .object
    [("variant_field", .string o.variantField), ("variant_index", .string o.variantIndex),
     ("pimpl_field", .string o.pimplField), ("pimpl_pointer", .array (o.pimplPointer.map .string)),
     ("optional_engaged", .array (o.optionalEngaged.map .string))]

def InspectOptions.toJson (o : InspectOptions) : Json :=
  .object
    [("max_depth", .nat o.maxDepth.toNat), ("max_children", .nat o.maxChildren.toNat),
     ("expand_pointers", .nat o.expandPointers.toNat), ("max_text_len", .nat o.maxTextLen.toNat),
     ("demangler", o.demangler.toJson), ("layout", o.layout.toJson)]

end ValueInspector
