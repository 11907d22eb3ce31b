import ValueInspector.Proofs.Inspector.Outline

/-! # What one visit shows

The visit of a value without a printer, told by what the answers say about it: a record shows its
members, a scalar its text, and a pointer the address it holds. A pointer is followed one level
further, unless it is null or leads back to an address on the trail. Texts within the limit are shown
as they are.
-/
namespace ValueInspector

theorem truncateText_of_length_le {limit : Nat} {text : String}
    (h : text.toList.length ≤ limit) : truncateText limit text = text := if_pos h

namespace Inspector

/-- There are visits below a value or not. -/
theorem exists_outline_eq (host : (r : Request) → r.Answer) (i : Inspector) (levels : Nat) :
    ∃ below, i.outline host levels = i.outlineValue host below := by
  cases levels with
  | zero => exact ⟨none,rfl⟩
  | succ levels => exact ⟨some (i.outline host levels),rfl⟩

section Recorded
variable (host : (r : Request) → r.Answer) (v : RawValue)

/-- Completing the survey of a pointer adds to it what is found, and leaves the rest alone. -/
theorem outlinePointer_eq (below : Option Look) (s : Survey) :
    ∃ error truncated followed children,
      outlinePointer host below v s = { s with error, truncated, followed, children } := by
  cases s
  unfold outlinePointer
  repeat' split
  all_goals exact ⟨_,_,_,_,rfl⟩

theorem outlineMembers_eq (i : Inspector) (below : Option Look) (s : Survey) :
    ∃ error truncated children,
      i.outlineMembers host below v s = { s with error, truncated, children } := by
  cases s
  unfold outlineMembers
  repeat' split
  all_goals exact ⟨_,_,_,rfl⟩

/-- A visit records its label, its frame and its value. -/
theorem outlineValue_eq (i : Inspector) (below : Option Look) (f : Frame) (label : String) :
    ∃ summary error truncated followed children, i.outlineValue host below f label v =
      ⟨label,f,some v,summary,error,truncated,followed,children⟩ := by
  rw [outlineValue]
  cases (i.summarize v).run.eval host with
  | error e => exact ⟨_,_,_,_,_,rfl⟩
  | ok summary =>
    dsimp only
    split
    · obtain ⟨_,_,_,_,h⟩ := outlinePointer_eq host v below _
      exact ⟨_,_,_,_,_,h⟩
    · obtain ⟨_,_,_,h⟩ := outlineMembers_eq host v i below _
      exact ⟨_,_,_,_,_,h⟩

theorem label_outline (i : Inspector) (levels : Nat) (f : Frame) (label : String) :
    (i.outline host levels f label v).label = label := by
  obtain ⟨below,hbelow⟩ := exists_outline_eq host i levels
  obtain ⟨_,_,_,_,_,h⟩ := outlineValue_eq host v i below f label
  rw [hbelow, h]

theorem value_outline (i : Inspector) (levels : Nat) (f : Frame) (label : String) :
    (i.outline host levels f label v).value = some v := by
  obtain ⟨below,hbelow⟩ := exists_outline_eq host i levels
  obtain ⟨_,_,_,_,_,h⟩ := outlineValue_eq host v i below f label
  rw [hbelow, h]

end Recorded

section Stages
variable {host : (r : Request) → r.Answer} {i : Inspector} {below : Option Look} {f : Frame}
  {label : String} {v : RawValue}

/-- A value that cannot be summarized shows nothing but the failure. -/
theorem outlineValue_error {e : InspectError} (h : (i.summarize v).run.eval host = .error e) :
    i.outlineValue host below f label v =
      { Survey.start label f (some v) with error := some e } := by
  rw [outlineValue, h]

section Summarized
variable {said : Option String} (h : (i.summarize v).run.eval host = .ok said)
include h

theorem summary_outlineValue :
    (i.outlineValue host below f label v).summary =
      said.map (truncateText i.options.maxTextLen.toNat) := by
  rw [outlineValue, h]
  dsimp only
  split
  · obtain ⟨_,_,_,_,hcompleted⟩ := outlinePointer_eq host v below
      { Survey.start label f (some v) with
        summary := said.map (truncateText i.options.maxTextLen.toNat) }
    rw [hcompleted]
  · obtain ⟨_,_,_,hcompleted⟩ := outlineMembers_eq host v i below
      { Survey.start label f (some v) with
        summary := said.map (truncateText i.options.maxTextLen.toNat) }
    rw [hcompleted]

theorem outlineValue_members (hv : v.ty.isPointer = false) :
    i.outlineValue host below f label v =
      i.outlineMembers host below v { Survey.start label f (some v) with
        summary := said.map (truncateText i.options.maxTextLen.toNat) } := by
  rw [outlineValue, h]
  dsimp only
  rw [hv, if_neg Bool.false_ne_true]

end Summarized

section Pointed
variable {s : Survey}

theorem outlinePointer_error {e : InspectError} (h : host (.readInteger v) = .error e) :
    outlinePointer host below v s = { s with error := some e } := by
  rw [outlinePointer, h]

variable {n : Int64} (hn : host (.readInteger v) = .ok n)
include hn

theorem outlinePointer_stop (hstop : n.toUInt64 = 0 ∨ s.frame.pointersLeft = 0) :
    outlinePointer host below v s = s := by
  rw [outlinePointer, hn]
  exact if_pos hstop

variable (hgo : ¬(n.toUInt64 = 0 ∨ s.frame.pointersLeft = 0))
include hgo

theorem outlinePointer_none :
    outlinePointer host none v s = { s with truncated := some .depth } := by
  rw [outlinePointer, hn]
  exact if_neg hgo

variable {look : Look}

theorem outlinePointer_cycle (htrail : n.toUInt64 ∈ s.frame.trail) :
    outlinePointer host (some look) v s = { s with truncated := some .cycle } := by
  rw [outlinePointer, hn]
  exact (if_neg hgo).trans (if_pos htrail)

variable (htrail : n.toUInt64 ∉ s.frame.trail)
include htrail

variable (s look) in
/-- A pointer without a target is marked, unless the target is of an incomplete type. -/
theorem outlinePointer_untargeted {e : InspectError} (h : host (.dereference v) = .error e) :
    ∃ mark, (mark = s.truncated ∨ mark = some .unresolved) ∧
      outlinePointer host (some look) v s = { s with truncated := mark } := by
  cases s
  rw [outlinePointer, hn, h]
  simp only [if_neg hgo, if_neg htrail]
  cases e with
  | incompleteType _ => exact ⟨_,.inl rfl,rfl⟩
  | _ => exact ⟨_,.inr rfl,rfl⟩

theorem outlinePointer_follow {target : RawValue} (h : host (.dereference v) = .ok target) :
    outlinePointer host (some look) v s = { s with
      followed := some n.toUInt64
      children := [look (s.frame.across n.toUInt64) "*" target] } := by
  rw [outlinePointer, hn, h]
  exact (if_neg hgo).trans (if_neg htrail)

end Pointed

section Listed
variable {s : Survey}

theorem outlineMembers_error {e : InspectError} (h : (i.children v).run.eval host = .error e) :
    i.outlineMembers host below v s = { s with error := some e } := by
  rw [outlineMembers, h]

variable {cs : List Child} (h : (i.children v).run.eval host = .ok cs)
include h

/-- A list of children that was found is no cause of failure, whether it is shown or not. -/
theorem error_outlineMembers : (i.outlineMembers host below v s).error = s.error := by
  rw [outlineMembers, h]
  dsimp only
  repeat' split
  all_goals rfl

theorem outlineMembers_nil (hnone : cs = []) : i.outlineMembers host below v s = s := by
  rw [outlineMembers, h, hnone]
  rfl

theorem outlineMembers_none (hsome : cs ≠ []) :
    i.outlineMembers host none v s = { s with truncated := some .depth } := by
  rw [outlineMembers, h]
  dsimp only
  rw [if_neg (mt List.isEmpty_iff.mp hsome)]

theorem outlineMembers_some {look : Look} (hsome : cs ≠ []) :
    i.outlineMembers host (some look) v s = { s with
      truncated := if cs.length - i.options.maxChildren.toNat = 0 then none
        else some (.moreChildren (cs.length - i.options.maxChildren.toNat))
      children := (cs.take i.options.maxChildren.toNat).map
        (outlineChild look s.frame.deeper) } := by
  rw [outlineMembers, h]
  dsimp only
  rw [if_neg (mt List.isEmpty_iff.mp hsome)]

end Listed

/-- A child is shown under its own label, whoever visits it. -/
theorem label_outlineChild (levels : Nat) (f : Frame) (c : Child) :
    (outlineChild (i.outline host levels) f c).label = c.label := by
  unfold outlineChild
  cases c.value with
  | some v => exact label_outline host v i levels f c.label
  | none => rfl

end Stages

section Answered
variable {host : (r : Request) → r.Answer} {v : RawValue}

theorem eval_membersOf {names : List String} {member : String → RawValue}
    (h : ∀ name ∈ names, host (.readField v name) = .ok (member name)) :
    (membersOf v names).run.eval host = .ok (names.map fun name => ⟨name,some (member name)⟩) := by
  induction names with
  | nil => rfl
  | cons name rest ih =>
    have hrest := ih fun other hother => h other (List.mem_cons_of_mem name hother)
    simp only [membersOf, Decode.eval_bind, Decode.eval_readField, h name List.mem_cons_self, hrest,
      Decode.eval_pure, List.map_cons]

variable {i : Inspector} {levels : Nat} {f : Frame} {label : String}

section Printerless
variable (hprinter : i.registry.lookup v.ty = none)
include hprinter

/-- A value without a printer has a text, unless it is a record with members. -/
theorem eval_summarize_text {text : String}
    (hnames : v.ty.isPointer = true ∨ host (.fieldNames v) = .ok [])
    (htext : host (.formatValue v) = .ok text) :
    (i.summarize v).run.eval host = .ok (some text) := by
  rw [summarize, hprinter]
  cases hv : v.ty.isPointer with
  | true => simp [htext, Except.map]
  | false =>
    rw [hv] at hnames
    simp [hnames.resolve_left Bool.false_ne_true, htext, Except.map]

theorem eval_summarize_record (hv : v.ty.isPointer = false) {names : List String}
    (hnames : host (.fieldNames v) = .ok names) (hsome : names ≠ []) :
    (i.summarize v).run.eval host = .ok none := by
  rw [summarize, hprinter]
  simp [hv, hnames, hsome]

theorem eval_children {names : List String} {member : String → RawValue}
    (hnames : host (.fieldNames v) = .ok names)
    (hmember : ∀ name ∈ names, host (.readField v name) = .ok (member name)) :
    (i.children v).run.eval host = .ok (names.map fun name => ⟨name,some (member name)⟩) := by
  rw [children, hprinter]
  simp [hnames, eval_membersOf hmember]

section Plain
variable (hv : v.ty.isPointer = false)
include hv

/-- A record shows its members and no text. -/
theorem outline_record {names : List String} {member : String → RawValue}
    (hnames : host (.fieldNames v) = .ok names) (hsome : names ≠ [])
    (hlimit : names.length ≤ i.options.maxChildren.toNat)
    (hmember : ∀ name ∈ names, host (.readField v name) = .ok (member name)) :
    i.outline host (levels + 1) f label v =
      { Survey.start label f (some v) with
        children := names.map fun name => i.outline host levels f.deeper name (member name) } := by
  have hshown : (names.map fun name => (⟨name,some (member name)⟩ : Child)).take
      i.options.maxChildren.toNat = names.map fun name => ⟨name,some (member name)⟩ :=
    List.take_of_length_le (by rwa [List.length_map])
  rw [outline, outlineValue, eval_summarize_record hprinter hv hnames hsome]
  simp only [hv, outlineMembers, eval_children hprinter hnames hmember, hshown]
  simp [hsome, Nat.sub_eq_zero_of_le hlimit, outlineChild]

/-- A scalar shows its text, at any depth. -/
theorem outline_scalar {text : String} (hnames : host (.fieldNames v) = .ok [])
    (htext : host (.formatValue v) = .ok text)
    (hlimit : text.toList.length ≤ i.options.maxTextLen.toNat) :
    i.outline host levels f label v =
      { Survey.start label f (some v) with summary := some text } := by
  obtain ⟨below,hbelow⟩ := exists_outline_eq host i levels
  have hnone : (i.children v).run.eval host = .ok [] :=
    eval_children hprinter hnames (show ∀ name ∈ [], host (.readField v name) = .ok v from nofun)
  rw [hbelow, outlineValue, eval_summarize_text hprinter (.inr hnames) htext]
  simp [hv, outlineMembers, hnone, truncateText_of_length_le hlimit]

end Plain
end Printerless

section Pointer
variable {text : String} (hv : v.ty.isPointer = true) (htext : host (.formatValue v) = .ok text)
  (hlimit : text.toList.length ≤ i.options.maxTextLen.toNat)
include hv htext hlimit

/-- A pointer shows its text and is completed by what lies below. -/
theorem outlineValue_pointer (below : Option Look) :
    i.outlineValue host below f label v =
      outlinePointer host below v
        { Survey.start label f (some v) with summary := some text } := by
  have hprinter : i.registry.lookup v.ty = none := by rw [Registry.lookup, if_pos hv]
  rw [outlineValue, eval_summarize_text hprinter (.inl hv) htext]
  simp [hv, truncateText_of_length_le hlimit]

variable {address : UInt64} (haddress : host (.readInteger v) = .ok address.toInt64)
include haddress

/-- A null pointer is shown and not followed. -/
theorem outline_null (hnull : address = 0) :
    i.outline host levels f label v =
      { Survey.start label f (some v) with summary := some text } := by
  obtain ⟨below,hbelow⟩ := exists_outline_eq host i levels
  rw [hbelow, outlineValue_pointer hv htext hlimit, outlinePointer, haddress]
  simp only [UInt64.toUInt64_toInt64, if_pos (Or.inl hnull)]

section Hop
variable (hnull : address ≠ 0) (hleft : f.pointersLeft ≠ 0)
include hnull hleft

/-- A pointer back to an address on the trail is cut. -/
theorem outline_cycle (htrail : address ∈ f.trail) :
    i.outline host (levels + 1) f label v =
      { Survey.start label f (some v) with summary := some text, truncated := some .cycle } := by
  rw [outline, outlineValue_pointer hv htext hlimit, outlinePointer, haddress]
  simp [hnull, hleft, htrail]

theorem outline_follow {target : RawValue} (htrail : address ∉ f.trail)
    (htarget : host (.dereference v) = .ok target) :
    i.outline host (levels + 1) f label v =
      { Survey.start label f (some v) with
        summary := some text, followed := some address
        children := [i.outline host levels (f.across address) "*" target] } := by
  rw [outline, outlineValue_pointer hv htext hlimit, outlinePointer, haddress]
  simp [hnull, hleft, htrail, htarget]

end Hop
end Pointer
end Answered
end Inspector
end ValueInspector
