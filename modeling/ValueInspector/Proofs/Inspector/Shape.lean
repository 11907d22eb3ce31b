import ValueInspector.Proofs.Inspector.Display
import ValueInspector.Proofs.Inspector.Members

/-! # The shape of display trees

A node never shows an error together with children or a mark, and a mark says why children are missing:
none is listed at the depth limit, on a cycle or behind an unresolved pointer, and exactly as many as
allowed where more are announced. This holds of each way a visit can end, and so of every node of every
tree. In a snapshot a record with members has no error of its own, whatever becomes of its members.
-/
namespace ValueInspector

/-- What holds of a displayed node, given the value it displays, if it has one. -/
structure Node.Shaped (limit : Nat) (value : Option RawValue) (n : Node) : Prop where
  typeName : n.typeName = value.map (·.typeName)
  failed : n.error ≠ none → n.children = [] ∧ n.truncated = none
  cut : n.truncated = some .depth ∨ n.truncated = some .cycle ∨ n.truncated = some .unresolved →
    n.children = []
  omitted : ∀ k, n.truncated = some (.moreChildren k) → 1 ≤ k ∧ n.children.length = limit ∧
    ∃ v ∈ value, v.ty.isPointer = false
  unfollowed : n.truncated = some .cycle ∨ n.truncated = some .unresolved →
    ∃ v ∈ value, v.ty.isPointer = true
  untyped : n.typeName = none → n.summary = some Union.noInterpretation ∧ n.children = [] ∧
    n.error = none ∧ n.truncated = none
  target : ∀ v ∈ value, v.ty.isPointer = true →
    n.children.length ≤ 1 ∧ ∀ c ∈ n.children, c.label = "*"

/-- A node without children is in shape if it has no mark beside an error, and only such marks as its
value admits. -/
theorem Node.shaped_leaf {limit : Nat} {v : RawValue} {n : Node}
    (htype : n.typeName = some v.typeName) (hc : n.children = [])
    (herror : n.error ≠ none → n.truncated = none)
    (hmark : ∀ mark ∈ n.truncated,
      mark = .depth ∨ v.ty.isPointer = true ∧ (mark = .cycle ∨ mark = .unresolved)) :
    n.Shaped limit (some v) where
  typeName := htype
  failed he := ⟨hc,herror he⟩
  cut _ := hc
  omitted k hk := by simpa using hmark _ hk
  unfollowed h := by
    rcases h with h | h
    · simpa using hmark _ h
    · simpa using hmark _ h
  untyped h := by
    rw [htype] at h
    cases h
  target _ _ _ := by simp [hc]

namespace Survey

/-- Every way a visit can end is displayed in this shape. -/
theorem Possible.shaped {o : InspectOptions} {s : Survey} (h : s.Possible o) :
    s.toNode.Shaped o.maxChildren.toNat s.value := by
  cases h with
  | uninterpreted =>
    rw [toNode_mk]
    exact
      { typeName := rfl
        failed := nofun
        cut := fun _ => rfl
        omitted := nofun
        unfollowed := nofun
        untyped := fun _ => ⟨rfl,rfl,rfl,rfl⟩
        target := nofun }
  | failed =>
    rw [toNode_mk]
    exact Node.shaped_leaf rfl rfl (fun _ => rfl) nofun
  | bare =>
    rw [toNode_mk]
    exact Node.shaped_leaf rfl rfl (fun _ => rfl) nofun
  | cut hmark =>
    rw [toNode_mk]
    refine Node.shaped_leaf rfl rfl (fun herror => absurd rfl herror) fun mark h => ?_
    cases h
    exact hmark
  | followed _ _ _ _ _ _ hlabel _ =>
    rw [toNode_mk]
    refine
      { typeName := rfl
        failed := nofun
        cut := nofun
        omitted := nofun
        unfollowed := nofun
        untyped := nofun
        target := fun _ _ _ => ⟨Nat.le_refl 1,fun c hc => ?_⟩ }
    rw [List.mem_singleton.mp hc, label_toNode, hlabel]
  | @listed _ _ v _ truncated _ hv _ _ _ homitted _ =>
    -- a count is the only mark of a node with a list
    have hmark : ∀ mark, truncated = some mark → ∃ k, mark = .moreChildren k := fun mark h => by
      obtain ⟨_,k,_,hk⟩ := homitted mark h
      exact ⟨k,hk⟩
    rw [toNode_mk]
    refine
      { typeName := rfl
        failed := nofun
        cut := fun hcut => ?_
        omitted := fun k hk => ?_
        unfollowed := fun hcut => ?_
        untyped := nofun
        target := fun w hw hpointer => ?_ }
    · rcases hcut with hcut | hcut | hcut <;> simpa using hmark _ hcut
    · obtain ⟨hlength,j,hj,heq⟩ := homitted _ hk
      cases heq
      exact ⟨hj,by rw [List.length_map, hlength],v,rfl,hv⟩
    · rcases hcut with hcut | hcut <;> simpa using hmark _ hcut
    · cases hw
      rw [hv] at hpointer
      cases hpointer

end Survey

namespace Inspector

section Outline
variable {host : (r : Request) → r.Answer} {i : Inspector} {P : Survey → Prop}

/-- What a visit of a value hands down to the level below: the target of a pointer or a member. -/
inductive HandsDown (host : (r : Request) → r.Answer) (i : Inspector) (v : RawValue) : Child → Prop
  | target {w : RawValue} (h : host (.dereference v) = .ok w) : HandsDown host i v ⟨"*",some w⟩
  | member {cs : List Child} {c : Child} (h : (i.children v).run.eval host = .ok cs) (hc : c ∈ cs) :
    HandsDown host i v c

theorem mem_children_outlinePointer {below : Option Look} {v : RawValue} {s c : Survey}
    (hs : s.children = []) (hc : c ∈ (outlinePointer host below v s).children) :
    ∃ look ∈ below, ∃ f child, HandsDown host i v child ∧ c = outlineChild look f child := by
  have hleaf : c ∉ s.children := hs ▸ List.not_mem_nil
  unfold outlinePointer at hc
  repeat' split at hc
  all_goals first
    | exact absurd hc hleaf
    | exact ⟨_,rfl,_,_,.target ‹_›,List.mem_singleton.mp hc⟩

theorem mem_children_outlineMembers {below : Option Look} {v : RawValue} {s c : Survey}
    (hs : s.children = []) (hc : c ∈ (i.outlineMembers host below v s).children) :
    ∃ look ∈ below, ∃ f child, HandsDown host i v child ∧ c = outlineChild look f child := by
  have hleaf : c ∉ s.children := hs ▸ List.not_mem_nil
  unfold outlineMembers at hc
  repeat' split at hc
  all_goals first
    | exact absurd hc hleaf
    | obtain ⟨child,hchild,rfl⟩ := List.mem_map.mp hc
      exact ⟨_,rfl,_,child,.member ‹_› (List.mem_of_mem_take hchild),rfl⟩

/-- Below a value there are only visits of what it hands down. -/
theorem mem_children_outlineValue {below : Option Look} {f : Frame} {label : String} {v : RawValue}
    {c : Survey} (hc : c ∈ (i.outlineValue host below f label v).children) :
    ∃ look ∈ below, ∃ g child, HandsDown host i v child ∧ c = outlineChild look g child := by
  unfold outlineValue at hc
  split at hc
  · cases hc
  · dsimp only at hc
    split at hc
    · exact mem_children_outlinePointer rfl hc
    · exact mem_children_outlineMembers rfl hc

/-- The visits below record the values they are given. -/
def RecordsValues (below : Option Look) : Prop :=
  ∀ look ∈ below, ∀ f label v, (look f label v).value = some v

section Handed
variable {Q : Child → Prop}
  (hdown : ∀ label v c, Q ⟨label,some v⟩ → HandsDown host i v c → Q c)
  (hleaf : ∀ label f, Q ⟨label,none⟩ →
    P { Survey.start label f none with summary := some Union.noInterpretation })
include hdown hleaf

theorem all_outlineValue {below : Option Look}
    (hvalue : ∀ f label v, Q ⟨label,some v⟩ → P (i.outlineValue host below f label v))
    (hbelow : ∀ look ∈ below, ∀ f label v, Q ⟨label,some v⟩ → (look f label v).All P) (f : Frame)
    {label : String} {v : RawValue} (hq : Q ⟨label,some v⟩) :
    (i.outlineValue host below f label v).All P := by
  refine .mk (hvalue f label v hq) fun c hc => ?_
  obtain ⟨look,hlook,g,⟨name,_ | w⟩,hchild,rfl⟩ := mem_children_outlineValue hc
  · exact .mk (hleaf name g (hdown label v _ hq hchild)) nofun
  · exact hbelow look hlook g name w (hdown label v _ hq hchild)

/-- What holds of the visits of all values with a property that is handed down, where the visits below
record their values, holds throughout. -/
theorem all_outline_of_handsDown
    (hvalue : ∀ below, RecordsValues below → ∀ f label v, Q ⟨label,some v⟩ →
      P (i.outlineValue host below f label v))
    (levels : Nat) (f : Frame) {label : String} {v : RawValue} (hq : Q ⟨label,some v⟩) :
    (i.outline host levels f label v).All P := by
  induction levels generalizing f label v with
  | zero =>
    refine all_outlineValue hdown hleaf (hvalue none ?_) ?_ f hq
    · exact fun look hlook => (Option.not_mem_none look hlook).elim
    · exact fun look hlook => (Option.not_mem_none look hlook).elim
  | succ levels ih =>
    refine all_outlineValue hdown hleaf (hvalue _ ?_) ?_ f hq
    · intro look hlook f label v
      cases hlook
      exact value_outline host v i levels f label
    · intro look hlook f label v hq
      cases hlook
      exact ih f hq

end Handed

/-- What holds of the visits of all values, with visits below that record theirs, holds throughout. -/
theorem all_outline_of_recordsValues
    (hleaf : ∀ label f, P { Survey.start label f none with summary := some Union.noInterpretation })
    (hvalue : ∀ below, RecordsValues below → ∀ f label v, P (i.outlineValue host below f label v))
    (levels : Nat) (f : Frame) (label : String) (v : RawValue) :
    (i.outline host levels f label v).All P :=
  all_outline_of_handsDown (Q := fun _ => True) (fun _ _ _ _ _ => trivial)
    (fun label f _ => hleaf label f) (fun below hb f label v _ => hvalue below hb f label v) levels f
    trivial

/-- What holds of the visits of all values, with any visits below, holds throughout. -/
theorem all_outline (hnone : ∀ s : Survey, s.value = none → P s)
    (hvalue : ∀ below f label v, P (i.outlineValue host below f label v)) (levels : Nat) (f : Frame)
    (label : String) (v : RawValue) : (i.outline host levels f label v).All P :=
  all_outline_of_recordsValues (fun _ _ => hnone _ rfl) (fun below _ => hvalue below) levels f label v

end Outline

/-- A value of a record with at least one field, and without a printer. -/
structure ShowsMembers (i : Inspector) (s : Snapshot) (v : RawValue) : Prop where
  printerless : i.registry.lookup v.ty = none
  isPointer : v.ty.isPointer = false
  entry : ∃ typeName size fields,
    s.entries[v.ty.id.toNat]? = some ⟨typeName,.record size fields⟩ ∧ fields ≠ []

/-- A record in a snapshot fails neither for its summary nor for its children. -/
theorem error_outlineValue {i : Inspector} {s : Snapshot} {v : RawValue} (h : i.ShowsMembers s v)
    (demangler : Option Demangler) (below : Option Look) (f : Frame) (label : String) :
    (i.outlineValue (Host.answers ⟨s.oracle,demangler⟩) below f label v).error = none := by
  obtain ⟨typeName,size,fields,hentry,hfields⟩ := h.entry
  have hnames : (Host.answers ⟨s.oracle,demangler⟩) (.fieldNames v) =
      .ok (fields.map (·.name)) := Snapshot.fieldNames_of_record h.isPointer hentry
  rw [outlineValue_members (eval_summarize_record h.printerless h.isPointer hnames
      (mt List.map_eq_nil_iff.mp hfields)) h.isPointer,
    error_outlineMembers (eval_children_record h.printerless h.isPointer hentry demangler)]

/-- Whatever is inspected, every node of the tree is in shape. In a snapshot, a node of a record with
members and without a printer shows no error. -/
theorem inspect_shapes_nodes (i : Inspector) (label : String) (v : RawValue) :
    (i.inspect label v).Always
      (Survey.All fun t => t.toNode.Shaped i.options.maxChildren.toNat t.value) ∧
    ∀ (s : Snapshot) (demangler : Demangler),
      ((i.inspect label v).runFresh (i.host s.oracle demangler)).All fun t =>
        ∀ w ∈ t.value, i.ShowsMembers s w → t.toNode.error = none := by
  constructor
  · exact Query.Always.mono (inspect_ends i label v) fun root hroot =>
      hroot.possible.all fun t ht => ht.shaped
  · intro s demangler
    obtain ⟨f,hf⟩ := Query.exists_function_runFresh s.oracle
      (if i.options.demangler.enabled then some demangler else none) (i.inspect label v)
    rw [host, hf, eval_inspect]
    refine all_outline (fun t ht w hw => ?_) (fun below f label v w hw hmembers => ?_) ..
    · rw [ht] at hw
      cases hw
    · obtain ⟨summary,error,truncated,followed,children,heq⟩ := outlineValue_eq
        (Host.answers ⟨s.oracle,_⟩) v i below f label
      rw [heq] at hw
      cases hw
      rw [Survey.error_toNode, error_outlineValue hmembers]
      rfl

/-- A record none of whose bytes are mapped. It shows no error, but each of its members does. -/
theorem inspect_shapes_nodes_unmapped :
    let s := (Construction.ofSteps recordSteps).builder.snapshot
    let i : Inspector := ⟨.standard,.standard⟩
    let root := (i.inspect "pair" ⟨4096,.plain 1 "Pair"⟩).runFresh (i.host s.oracle .silent)
    i.ShowsMembers s ⟨4096,.plain 1 "Pair"⟩ ∧ root.toNode.error = none ∧
      root.children.map (·.error) = [some (.unmapped 4096 4),some (.unmapped 4096 4)] := by
  dsimp only
  have hmembers : (⟨.standard,.standard⟩ : Inspector).ShowsMembers
      (Construction.ofSteps recordSteps).builder.snapshot ⟨4096,.plain 1 "Pair"⟩ :=
    ⟨by decide +kernel,rfl,"Pair",8,[⟨"x",0,.plain 0 "int"⟩,⟨"x",4,.plain 0 "int"⟩],
      by decide +kernel,List.cons_ne_nil _ _⟩
  have hall := (inspect_shapes_nodes ⟨.standard,.standard⟩ "pair" ⟨4096,.plain 1 "Pair"⟩).2
    (Construction.ofSteps recordSteps).builder.snapshot .silent
  have houtline : (inspect ⟨.standard,.standard⟩ "pair" ⟨4096,.plain 1 "Pair"⟩).runFresh
      (host ⟨.standard,.standard⟩ (Construction.ofSteps recordSteps).builder.snapshot.oracle
        .silent) = outline _ _ _ _ "pair" ⟨4096,.plain 1 "Pair"⟩ :=
    (runFresh_eq_answers ⟨.standard,.standard⟩ _ (fun _ => none) _).trans (eval_inspect ..)
  rw [houtline] at hall ⊢
  refine ⟨hmembers,?_,by decide +kernel⟩
  cases hall with
  | mk here _ => exact here _ (by decide +kernel) hmembers

end Inspector
end ValueInspector
