import ValueInspector.Printer
import ValueInspector.Proofs.Implementation.Outcomes
import ValueInspector.Proofs.Snapshot.Texts

/-! # Named objects

The implementation of a method or a property has a name, and that of a property a flag for its setter. The
summary shows them as they are stored. If any part on the way to them is missing, there is no summary.
-/
namespace ValueInspector

namespace Snapshot

/-- The name in the implementation of an object. -/
def HasName (s : Snapshot) (layout : StandardLayout) (v : RawValue) (implementation : String)
    (text : String) : Prop :=
  ∃ inner field, s.UnwrapsTo layout v implementation (.ok inner) ∧
    s.MemberAt inner.ty "m_name" field ∧
    s.StoresText ⟨inner.address + .ofNat field.offset,field.ty⟩ text

/-- An object without implementation, or an implementation whose name cannot be read. -/
inductive LacksName (s : Snapshot) (layout : StandardLayout) (v : RawValue)
    (implementation : String) : Prop
  | implementation {e : InspectError} (h : s.UnwrapsTo layout v implementation (.error e)) :
    LacksName s layout v implementation
  | member {inner : RawValue} {e : InspectError}
    (h : s.UnwrapsTo layout v implementation (.ok inner))
    (hname : s.MemberFault inner.ty "m_name" e) : LacksName s layout v implementation
  | text {inner : RawValue} {field : FieldDef}
    (h : s.UnwrapsTo layout v implementation (.ok inner))
    (hname : s.MemberAt inner.ty "m_name" field)
    (htext : s.LacksText ⟨inner.address + .ofNat field.offset,field.ty⟩) :
    LacksName s layout v implementation

/-- The bytes of the flag that tells whether the implementation of an object has a setter. -/
def HasSetterFlag (s : Snapshot) (layout : StandardLayout) (v : RawValue) (implementation : String)
    (bytes : List UInt8) : Prop :=
  ∃ inner offset declared, s.UnwrapsTo layout v implementation (.ok inner) ∧
    s.PathAt inner.ty ("m_setter" :: layout.optionalEngaged) offset declared ∧
    s.IsInteger declared bytes.length ∧ s.memory.Shows (inner.address + .ofNat offset) bytes

/-- An implementation without such a flag, or one where it is not mapped. -/
inductive LacksSetterFlag (s : Snapshot) (layout : StandardLayout) (v : RawValue)
    (implementation : String) : Prop
  | member {inner : RawValue} {e : InspectError}
    (h : s.UnwrapsTo layout v implementation (.ok inner))
    (hpath : s.BreaksOff inner.ty ("m_setter" :: layout.optionalEngaged) e) :
    LacksSetterFlag s layout v implementation
  | flag {inner : RawValue} {declared : TypeDesc} {offset width : Nat}
    (h : s.UnwrapsTo layout v implementation (.ok inner))
    (hpath : s.PathAt inner.ty ("m_setter" :: layout.optionalEngaged) offset declared)
    (hty : s.IsInteger declared width)
    (hnone : s.memory.Unmapped (inner.address + .ofNat offset) width) :
    LacksSetterFlag s layout v implementation

end Snapshot

namespace Printer
variable {s : Snapshot} {demangler : Option Demangler} {layout : StandardLayout}
  {v inner : RawValue} {implementation : String}

theorem exists_eq_error {α : Type} {x : Except InspectError α} (h : ∀ a, x ≠ .ok a) :
    ∃ e, x = .error e := by
  cases x with
  | error e => exact ⟨e,rfl⟩
  | ok a => exact absurd rfl (h a)

theorem asksOnly_formatField (v : RawValue) (field : String) :
    (formatField v field).run.AsksOnly Request.IsRead :=
  Decode.asksOnly_bind (Query.asksOnly_request trivial) fun _ => Query.asksOnly_request trivial

theorem asksOnly_property (layout : StandardLayout) (v : RawValue) :
    (property.summary layout v).run.AsksOnly Request.IsRead :=
  Decode.asksOnly_bind (asksOnly_unwrapImplementation layout v _) fun inner =>
    Decode.asksOnly_bind (asksOnly_formatField inner _) fun _ =>
      Decode.asksOnly_bind (Query.asksOnly_request trivial) fun setter =>
        Decode.asksOnly_bind (Decode.asksOnly_readPath setter _) fun _ =>
          Decode.asksOnly_bind (Query.asksOnly_request trivial) fun _ => trivial

theorem asksOnly_method (layout : StandardLayout) (v : RawValue) :
    (method.summary layout v).run.AsksOnly Request.IsRead :=
  Decode.asksOnly_bind (asksOnly_unwrapImplementation layout v _) fun inner =>
    Decode.asksOnly_bind (asksOnly_formatField inner _) fun _ => trivial

theorem eval_formatField_eq_ok_iff {field text : String} :
    (formatField v field).run.eval (Host.answers ⟨s.oracle,demangler⟩) = .ok text ↔
      ∃ member, s.HasMember v field member ∧ s.formatValue member = .ok text := by
  rw [formatField, Decode.eval_bind_eq_ok_iff]
  exact exists_congr fun member => and_congr_left' Snapshot.readField_eq_ok_iff

/-- All that summing up a method does. -/
theorem eval_method_eq_ok_iff {summary : Option String} :
    (method.summary layout v).run.eval (Host.answers ⟨s.oracle,demangler⟩) = .ok summary ↔
      ∃ inner member text, s.Unwraps layout v "complate::Method::Impl" inner ∧
        s.HasMember inner "m_name" member ∧ s.formatValue member = .ok text ∧
        some text = summary := by
  constructor
  · intro h
    obtain ⟨inner,hinner,h⟩ := (Decode.eval_bind_eq_ok_iff _).mp h
    obtain ⟨text,htext,h⟩ := (Decode.eval_bind_eq_ok_iff _).mp h
    obtain ⟨member,hmember,htext⟩ := eval_formatField_eq_ok_iff.mp htext
    exact ⟨inner,member,text,eval_unwrapImplementation_eq_ok_iff.mp hinner,hmember,htext,
      Except.ok.inj h⟩
  · rintro ⟨inner,member,text,hinner,hmember,htext,rfl⟩
    refine (Decode.eval_bind_eq_ok_iff _).mpr
      ⟨inner,eval_unwrapImplementation_eq_ok_iff.mpr hinner,?_⟩
    exact (Decode.eval_bind_eq_ok_iff _).mpr
      ⟨text,eval_formatField_eq_ok_iff.mpr ⟨member,hmember,htext⟩,rfl⟩

/-- All that summing up a property does. -/
theorem eval_property_eq_ok_iff {summary : Option String} :
    (property.summary layout v).run.eval (Host.answers ⟨s.oracle,demangler⟩) = .ok summary ↔
      ∃ inner member text flag n, s.Unwraps layout v "complate::Property::Impl" inner ∧
        s.HasMember inner "m_name" member ∧ s.formatValue member = .ok text ∧
        s.HasPath inner ("m_setter" :: layout.optionalEngaged) flag ∧ s.readInteger flag = .ok n ∧
        some (text ++ ", " ++ if n ≠ 0 then "writable" else "readonly") = summary := by
  constructor
  · intro h
    obtain ⟨inner,hinner,h⟩ := (Decode.eval_bind_eq_ok_iff _).mp h
    obtain ⟨text,htext,h⟩ := (Decode.eval_bind_eq_ok_iff _).mp h
    obtain ⟨member,hmember,htext⟩ := eval_formatField_eq_ok_iff.mp htext
    obtain ⟨setter,hsetter,h⟩ := (Decode.eval_bind_eq_ok_iff _).mp h
    obtain ⟨flag,hflag,h⟩ := (Decode.eval_bind_eq_ok_iff _).mp h
    obtain ⟨n,hn,h⟩ := (Decode.eval_bind_eq_ok_iff _).mp h
    exact ⟨inner,member,text,flag,n,eval_unwrapImplementation_eq_ok_iff.mp hinner,hmember,htext,
      .cons (Snapshot.readField_eq_ok_iff.mp hsetter) (Decode.eval_readPath_eq_ok_iff.mp hflag),
      hn,Except.ok.inj h⟩
  · rintro ⟨inner,member,text,flag,n,hinner,hmember,htext,hpath,hn,rfl⟩
    cases hpath with
    | cons hsetter hflag =>
      refine (Decode.eval_bind_eq_ok_iff _).mpr
        ⟨inner,eval_unwrapImplementation_eq_ok_iff.mpr hinner,?_⟩
      refine (Decode.eval_bind_eq_ok_iff _).mpr
        ⟨text,eval_formatField_eq_ok_iff.mpr ⟨member,hmember,htext⟩,?_⟩
      refine (Decode.eval_bind_eq_ok_iff _).mpr
        ⟨_,Snapshot.readField_eq_ok_iff.mpr hsetter,?_⟩
      refine (Decode.eval_bind_eq_ok_iff _).mpr ⟨flag,Decode.eval_readPath_eq_ok_iff.mpr hflag,?_⟩
      exact (Decode.eval_bind_eq_ok_iff _).mpr ⟨n,hn,rfl⟩

end Printer

namespace Snapshot
variable {s : Snapshot} {v inner : RawValue} {layout : StandardLayout} {implementation : String}
  (hs : s.memory.Stacked)
  (hlevels : ∀ ty, s.lookupType implementation = some ty → ty.pointers.toNat < 255)
include hs hlevels

theorem HasName.exists_member {text : String} (h : s.HasName layout v implementation text) :
    ∃ inner member, s.Unwraps layout v implementation inner ∧ s.HasMember inner "m_name" member ∧
      s.formatValue member = .ok text := by
  obtain ⟨inner,field,hinner,hname,htext⟩ := h
  exact ⟨inner,_,hinner.unwraps hs hlevels,hasMember_iff.mpr ⟨field,hname,rfl⟩,
    htext.formatValue_eq hs⟩

theorem LacksName.formatValue_ne_ok (h : s.LacksName layout v implementation)
    (hinner : s.Unwraps layout v implementation inner) {member : RawValue}
    (hmember : s.HasMember inner "m_name" member) (text : String) :
    s.formatValue member ≠ .ok text := by
  cases h with
  | implementation h => cases h.eq_ok hs hlevels hinner
  | member h hname =>
    cases h.eq_ok hs hlevels hinner
    cases (readField_eq_error_iff.mpr hname).symm.trans (readField_eq_ok_iff.mpr hmember)
  | text h hname htext =>
    cases h.eq_ok hs hlevels hinner
    have hsame := readField_eq_ok_iff.mpr (hasMember_iff.mpr ⟨_,hname,rfl⟩)
    cases hsame.symm.trans (readField_eq_ok_iff.mpr hmember)
    obtain ⟨e,herror⟩ := htext.exists_formatValue_eq hs
    rw [herror]
    exact nofun

theorem HasSetterFlag.exists_flag {bytes : List UInt8}
    (h : s.HasSetterFlag layout v implementation bytes)
    (hinner : s.Unwraps layout v implementation inner) :
    ∃ flag n, s.HasPath inner ("m_setter" :: layout.optionalEngaged) flag ∧
      s.readInteger flag = .ok n ∧ (n ≠ 0 ↔ ∃ b ∈ bytes, b ≠ 0) := by
  obtain ⟨inner',offset,declared,h,hpath,hty,hshown⟩ := h
  cases h.eq_ok hs hlevels hinner
  obtain ⟨n,hn,hzero⟩ :=
    IsInteger.readInteger_of_shows (v := ⟨_,declared⟩) hs hty rfl hshown
  refine ⟨⟨_,declared⟩,n,hasPath_iff.mpr ⟨offset,hpath,rfl⟩,hn,?_⟩
  rw [Ne, hzero]
  push Not
  exact Iff.rfl

theorem LacksSetterFlag.readInteger_ne_ok (h : s.LacksSetterFlag layout v implementation)
    (hinner : s.Unwraps layout v implementation inner) {flag : RawValue}
    (hflag : s.HasPath inner ("m_setter" :: layout.optionalEngaged) flag) (n : Int64) :
    s.readInteger flag ≠ .ok n := by
  cases h with
  | member h hpath =>
    cases h.eq_ok hs hlevels hinner
    exact absurd hflag (hpath.not_hasPath flag)
  | flag h hpath hty hnone =>
    rename_i inner' declared offset width
    cases h.eq_ok hs hlevels hinner
    have hfound : s.HasPath inner ("m_setter" :: layout.optionalEngaged)
        ⟨inner.address + .ofNat offset,declared⟩ := hasPath_iff.mpr ⟨offset,hpath,rfl⟩
    rw [hflag.unique hfound, IsInteger.readInteger_of_unmapped hs hty hnone]
    exact nofun

end Snapshot

namespace Printer
variable {s : Snapshot} {demangler : Option Demangler} {layout : StandardLayout} {v : RawValue}
  {text : String} (hs : s.memory.Stacked)
include hs

theorem eval_method_of_hasName (h : s.HasName layout v "complate::Method::Impl" text) :
    (method.summary layout v).run.eval (Host.answers ⟨s.oracle,demangler⟩) = .ok (some text) := by
  have hlevels := s.levels_of_lookupType "complate::Method::Impl" (by decide +kernel)
  obtain ⟨inner,member,hinner,hmember,htext⟩ := h.exists_member hs hlevels
  exact eval_method_eq_ok_iff.mpr ⟨inner,member,text,hinner,hmember,htext,rfl⟩

theorem eval_method_of_lacksName (h : s.LacksName layout v "complate::Method::Impl") :
    ∃ e, (method.summary layout v).run.eval (Host.answers ⟨s.oracle,demangler⟩) = .error e := by
  have hlevels := s.levels_of_lookupType "complate::Method::Impl" (by decide +kernel)
  refine exists_eq_error fun summary hsummary => ?_
  obtain ⟨inner,member,text,hinner,hmember,htext,-⟩ := eval_method_eq_ok_iff.mp hsummary
  exact h.formatValue_ne_ok hs hlevels hinner hmember text htext

theorem eval_property_of_hasName {bytes : List UInt8}
    (h : s.HasName layout v "complate::Property::Impl" text)
    (hflag : s.HasSetterFlag layout v "complate::Property::Impl" bytes) :
    (property.summary layout v).run.eval (Host.answers ⟨s.oracle,demangler⟩) =
      .ok (some (text ++ ", " ++ if ∃ b ∈ bytes, b ≠ 0 then "writable" else "readonly")) := by
  have hlevels := s.levels_of_lookupType "complate::Property::Impl" (by decide +kernel)
  obtain ⟨inner,member,hinner,hmember,htext⟩ := h.exists_member hs hlevels
  obtain ⟨flag,n,hpath,hn,hengaged⟩ := hflag.exists_flag hs hlevels hinner
  refine eval_property_eq_ok_iff.mpr ⟨inner,member,text,flag,n,hinner,hmember,htext,hpath,hn,?_⟩
  simp only [hengaged]

theorem eval_property_of_lacks (h : s.LacksName layout v "complate::Property::Impl" ∨
    s.LacksSetterFlag layout v "complate::Property::Impl") :
    ∃ e, (property.summary layout v).run.eval (Host.answers ⟨s.oracle,demangler⟩) = .error e := by
  have hlevels := s.levels_of_lookupType "complate::Property::Impl" (by decide +kernel)
  refine exists_eq_error fun summary hsummary => ?_
  obtain ⟨inner,member,text,flag,n,hinner,hmember,htext,hflag,hn,-⟩ :=
    eval_property_eq_ok_iff.mp hsummary
  rcases h with h | h
  · exact h.formatValue_ne_ok hs hlevels hinner hmember text htext
  · exact h.readInteger_ne_ok hs hlevels hinner hflag n hn

end Printer

namespace Construction

/-- A property is summed up by its name and whether a byte of its flag is set, a method by its name. If
they have no implementation, or no name or flag that can be read, it is an error. -/
theorem summary_named (steps : List BuilderStep) (demangler : Option Demangler)
    (m : ResolverMemory) (layout : StandardLayout) (v : RawValue) :
    (∀ text bytes,
      (ofSteps steps).builder.snapshot.HasName layout v "complate::Property::Impl" text →
      (ofSteps steps).builder.snapshot.HasSetterFlag layout v "complate::Property::Impl" bytes →
        (Printer.property.summary layout v).run.run
            ⟨(ofSteps steps).builder.snapshot.oracle,demangler⟩ m =
          (.ok (some (text ++ ", " ++ if ∃ b ∈ bytes, b ≠ 0 then "writable" else "readonly")),m)) ∧
    ((ofSteps steps).builder.snapshot.LacksName layout v "complate::Property::Impl" ∨
      (ofSteps steps).builder.snapshot.LacksSetterFlag layout v "complate::Property::Impl" →
        ∃ e, (Printer.property.summary layout v).run.run
          ⟨(ofSteps steps).builder.snapshot.oracle,demangler⟩ m = (.error e,m)) ∧
    (∀ text, (ofSteps steps).builder.snapshot.HasName layout v "complate::Method::Impl" text →
      (Printer.method.summary layout v).run.run
        ⟨(ofSteps steps).builder.snapshot.oracle,demangler⟩ m = (.ok (some text),m)) ∧
    ((ofSteps steps).builder.snapshot.LacksName layout v "complate::Method::Impl" →
      ∃ e, (Printer.method.summary layout v).run.run
        ⟨(ofSteps steps).builder.snapshot.oracle,demangler⟩ m = (.error e,m)) := by
  have hs := stacked_ofSteps steps
  rw [Query.run_of_isRead (Printer.asksOnly_property layout v),
    Query.run_of_isRead (Printer.asksOnly_method layout v)]
  refine ⟨fun text bytes hname hflag => ?_,fun hlacks => ?_,fun text hname => ?_,fun hlacks => ?_⟩
  · rw [Printer.eval_property_of_hasName hs hname hflag]
  · obtain ⟨e,he⟩ := Printer.eval_property_of_lacks hs hlacks
    exact ⟨e,congrArg (·,m) he⟩
  · rw [Printer.eval_method_of_hasName hs hname]
  · obtain ⟨e,he⟩ := Printer.eval_method_of_lacksName hs hlacks
    exact ⟨e,congrArg (·,m) he⟩

/-- Types for properties. -/
def propertyTypes : List BuilderStep :=
  [.type (.define "std::string" .text),.type (.primitive "bool" .bool),
    .type (.record "payload" 2 [⟨"_M_engaged",1,.plain 1 "bool"⟩]),
    .type (.record "std::optional" 2 [⟨"_M_payload",0,.plain 2 "payload"⟩]),
    .type (.record "complate::Property::Impl" 18
      [⟨"m_name",0,.plain 0 "std::string"⟩,⟨"m_setter",16,.plain 3 "std::optional"⟩]),
    .type (.record "std::unique_ptr" 8 [⟨"_M_t",0,(TypeDesc.plain 1 "bool").pointer⟩]),
    .type (.record "complate::Property" 8 [⟨"m_impl",0,.plain 5 "std::unique_ptr"⟩])]

/-- A writable property at address 4096, its implementation at address 8192 and its name at some other. -/
def propertySteps (data : UInt64) (name : String) : List BuilderStep :=
  propertyTypes ++ [.memory (.map 4096 #[0,32,0,0,0,0,0,0]),
    .memory (.map 8192
      (textHeader data (.ofNat (Text.Utf8.encode name).length) ++ [0,1]).toArray),
    .memory (.map data (Text.Utf8.encode name).toArray)]

section Property
variable {steps : List BuilderStep} (hsteps : steps.filter (·.isType) = propertyTypes)
include hsteps

theorem entries_of_propertyTypes : (ofSteps steps).builder.snapshot.entries =
    #[⟨"std::string",.text⟩,⟨"bool",.primitive .bool⟩,
      ⟨"payload",.record 2 [⟨"_M_engaged",1,.plain 1 "bool"⟩]⟩,
      ⟨"std::optional",.record 2 [⟨"_M_payload",0,.plain 2 "payload"⟩]⟩,
      ⟨"complate::Property::Impl",.record 18
        [⟨"m_name",0,.plain 0 "std::string"⟩,⟨"m_setter",16,.plain 3 "std::optional"⟩]⟩,
      ⟨"std::unique_ptr",.record 8 [⟨"_M_t",0,(TypeDesc.plain 1 "bool").pointer⟩]⟩,
      ⟨"complate::Property",.record 8 [⟨"m_impl",0,.plain 5 "std::unique_ptr"⟩]⟩] := by
  rw [(mixes_ofSteps steps).builder_eq, hsteps, SnapshotBuilder.overMemory_entries]
  decide +kernel

theorem lookupType_of_propertyTypes :
    (ofSteps steps).builder.snapshot.lookupType "complate::Property::Impl" =
      some (.plain 4 "complate::Property::Impl") := by
  rw [(mixes_ofSteps steps).builder_eq, hsteps, SnapshotBuilder.overMemory_lookupType]
  decide +kernel

/-- The pointer of the property leads to its implementation. -/
theorem unwrapsTo_of_propertyTypes
    (h : (ofSteps steps).builder.snapshot.memory.Shows 4096 [0,32,0,0,0,0,0,0]) :
    (ofSteps steps).builder.snapshot.UnwrapsTo .standard ⟨4096,.plain 6 "complate::Property"⟩
      "complate::Property::Impl" (.ok ⟨8192,.plain 4 "complate::Property::Impl"⟩) := by
  have hentries := entries_of_propertyTypes hsteps
  have hvoid : ¬(ofSteps steps).builder.snapshot.IsVoid (.plain 4 "complate::Property::Impl") := by
    rintro ⟨_,name,hentry⟩
    rw [hentries] at hentry
    cases hentry
  have himpl : (ofSteps steps).builder.snapshot.MemberAt (.plain 6 "complate::Property") "m_impl"
      ⟨"m_impl",0,.plain 5 "std::unique_ptr"⟩ := ⟨rfl,_,_,_,congrArg (·[6]?) hentries,rfl⟩
  have hpointer : (ofSteps steps).builder.snapshot.MemberAt (.plain 5 "std::unique_ptr") "_M_t"
      ⟨"_M_t",0,(TypeDesc.plain 1 "bool").pointer⟩ := ⟨rfl,_,_,_,congrArg (·[5]?) hentries,rfl⟩
  have hbytes : ([0,32,0,0,0,0,0,0] : List UInt8).length = 8 := rfl
  exact .pointer (lookupType_of_propertyTypes hsteps) (.cons himpl (.cons hpointer (.nil _)))
    (.target hvoid hbytes h ⟨32,by decide,by decide⟩)

theorem hasSetterFlag_of_propertyTypes {b : UInt8}
    (h : (ofSteps steps).builder.snapshot.memory.Shows 4096 [0,32,0,0,0,0,0,0])
    (hflag : (ofSteps steps).builder.snapshot.memory.Shows 8209 [b]) :
    (ofSteps steps).builder.snapshot.HasSetterFlag .standard ⟨4096,.plain 6 "complate::Property"⟩
      "complate::Property::Impl" [b] := by
  have hentries := entries_of_propertyTypes hsteps
  have hsetter : (ofSteps steps).builder.snapshot.MemberAt (.plain 4 "complate::Property::Impl")
    "m_setter" ⟨"m_setter",16,.plain 3 "std::optional"⟩ :=
      ⟨rfl,_,_,_,congrArg (·[4]?) hentries,rfl⟩
  have hpayload : (ofSteps steps).builder.snapshot.MemberAt (.plain 3 "std::optional")
    "_M_payload" ⟨"_M_payload",0,.plain 2 "payload"⟩ :=
      ⟨rfl,_,_,_,congrArg (·[3]?) hentries,rfl⟩
  have hengaged : (ofSteps steps).builder.snapshot.MemberAt (.plain 2 "payload")
    "_M_engaged" ⟨"_M_engaged",1,.plain 1 "bool"⟩ :=
      ⟨rfl,_,_,_,congrArg (·[2]?) hentries,rfl⟩
  exact ⟨_,_,_,unwrapsTo_of_propertyTypes hsteps h,
    .cons hsetter (.cons hpayload (.cons hengaged (.nil _))),
    ⟨rfl,_,.bool,congrArg (·[1]?) hentries,trivial,rfl⟩,hflag⟩

theorem memberAt_name_of_propertyTypes :
    (ofSteps steps).builder.snapshot.MemberAt (.plain 4 "complate::Property::Impl") "m_name"
      ⟨"m_name",0,.plain 0 "std::string"⟩ :=
  ⟨rfl,_,_,_,congrArg (·[4]?) (entries_of_propertyTypes hsteps),rfl⟩

theorem isText_of_propertyTypes :
    (ofSteps steps).builder.snapshot.IsText (.plain 0 "std::string") :=
  ⟨rfl,_,congrArg (·[0]?) (entries_of_propertyTypes hsteps)⟩

end Property

/-- The name is read, and that a setter is there. -/
theorem summary_named_writable :
    (Printer.property.summary .standard ⟨4096,.plain 6 "complate::Property"⟩).run.run
      ⟨(ofSteps (propertySteps 12288 "é€")).builder.snapshot.oracle,none⟩ .fresh =
        (.ok (some "é€, writable"),.fresh) := by
  have hsteps : (propertySteps 12288 "é€").filter (·.isType) = propertyTypes := rfl
  have hmemory : (ofSteps (propertySteps 12288 "é€")).builder.snapshot.memory.Shows 4096
        [0,32,0,0,0,0,0,0] ∧
      (ofSteps (propertySteps 12288 "é€")).builder.snapshot.memory.Shows 8192
        (textHeader 12288 5) ∧
      (ofSteps (propertySteps 12288 "é€")).builder.snapshot.memory.Shows 8209 [1] ∧
      (ofSteps (propertySteps 12288 "é€")).builder.snapshot.memory.Shows 12288
        (Text.Utf8.encode "é€") := by decide +kernel
  obtain ⟨hpointer,hheader,hflag,hdata⟩ := hmemory
  exact (summary_named (propertySteps 12288 "é€") none .fresh .standard _).1 "é€" [1]
    ⟨_,_,unwrapsTo_of_propertyTypes hsteps hpointer,memberAt_name_of_propertyTypes hsteps,
      isText_of_propertyTypes hsteps,12288,5,hheader,by decide +kernel,by decide +kernel,
      fun _ => hdata⟩
    (hasSetterFlag_of_propertyTypes hsteps hpointer hflag)

/-- A property whose name is one byte at the last address, where an empty region is mapped after it. -/
def hiddenNameSteps : List BuilderStep :=
  propertySteps 0xffffffffffffffff "a" ++ [.memory (.map 0xffffffffffffffff #[])]

/-- All parts of the property are there, and the byte of its name lies in a region. There is no summary. -/
theorem summary_hidden :
    (ofSteps hiddenNameSteps).builder.snapshot.UnwrapsTo .standard
        ⟨4096,.plain 6 "complate::Property"⟩ "complate::Property::Impl"
        (.ok ⟨8192,.plain 4 "complate::Property::Impl"⟩) ∧
      (ofSteps hiddenNameSteps).builder.snapshot.MemberAt (.plain 4 "complate::Property::Impl")
        "m_name" ⟨"m_name",0,.plain 0 "std::string"⟩ ∧
      (ofSteps hiddenNameSteps).builder.snapshot.IsText (.plain 0 "std::string") ∧
      (ofSteps hiddenNameSteps).builder.snapshot.memory.Shows 8192
        (textHeader 0xffffffffffffffff 1) ∧
      (∃ r ∈ (ofSteps hiddenNameSteps).builder.snapshot.memory.regions.toList,
        r.start.toNat + r.size ≤ UInt64.size ∧
          r.Holds 0xffffffffffffffff (Text.Utf8.encode "a")) ∧
      (ofSteps hiddenNameSteps).builder.snapshot.HasSetterFlag .standard
        ⟨4096,.plain 6 "complate::Property"⟩ "complate::Property::Impl" [1] ∧
      ((Printer.property.summary .standard ⟨4096,.plain 6 "complate::Property"⟩).run.run
        ⟨(ofSteps hiddenNameSteps).builder.snapshot.oracle,none⟩ .fresh).1 =
          .error (.unmapped 0xffffffffffffffff 1) := by
  have hsteps : hiddenNameSteps.filter (·.isType) = propertyTypes := rfl
  have hpointer : (ofSteps hiddenNameSteps).builder.snapshot.memory.Shows 4096
    [0,32,0,0,0,0,0,0] := by decide +kernel
  exact ⟨unwrapsTo_of_propertyTypes hsteps hpointer,memberAt_name_of_propertyTypes hsteps,
    isText_of_propertyTypes hsteps,by decide +kernel,by decide +kernel,
    hasSetterFlag_of_propertyTypes hsteps hpointer (by decide +kernel),by decide +kernel⟩

end Construction
end ValueInspector
