import ValueInspector.Proofs.FirstOccurrences
import ValueInspector.Proofs.Snapshot.Construction

/-! # The type table as a history of steps

Each name is absent, declared or defined. What the table and its index hold is told by the type steps
that succeeded: names stand in the order of their first success, and the index has the place of each in
thirty-two bits. As long as there are enough ids, each name has the layout of the one step that defined
it, and the index finds a name exactly where the table has it. Past that, two names share an id.
-/
namespace ValueInspector

/-- What a name has come to. -/
inductive NameState where
  | absent
  | declared
  | defined
deriving DecidableEq

namespace NameState

/-- A defined name stays so; any other is declared or defined by a step about it. -/
def after (name : String) (state : NameState) : BuilderStep → NameState
  | .type s =>
    if s.name = name ∧ state ≠ .defined then if s.layout?.isSome then .defined else .declared
    else state
  | .memory _ => state

/-- The state of a name after some steps, whatever they came to. -/
def track (name : String) (steps : List BuilderStep) : NameState := steps.foldl (after name) .absent

end NameState

/-- The state of a name as a builder has it: its index and its set of reserved entries. -/
def SnapshotBuilder.nameState (b : SnapshotBuilder) (name : String) : NameState :=
  match b.snapshot.byName.lookup name with
  | none => .absent
  | some id => if id ∈ b.declared then .declared else .defined

section Granted
variable (granted : List (TypeStep × TypeDesc))

/-- The names of steps that succeeded, in order of their first success. -/
def namesOf : List String := (granted.map (·.1.name)).eraseDups

/-- The layouts that steps defined a name with. -/
def layoutsOf (name : String) : List Layout :=
  granted.filterMap fun p => if p.1.name = name then p.1.layout? else none

/-- The entry a name has then: of unknown layout, unless a step defined it. -/
def entryOf (name : String) : TypeDef := ⟨name,(layoutsOf granted name).head?.getD (.blob 0)⟩

variable {granted}

theorem mem_namesOf {name : String} : name ∈ namesOf granted ↔ ∃ p ∈ granted, p.1.name = name := by
  rw [namesOf, List.mem_eraseDups, List.mem_map]

theorem layoutsOf_eq_nil {name : String} (h : name ∉ namesOf granted) :
    layoutsOf granted name = [] := by
  rw [layoutsOf, List.filterMap_eq_nil_iff]
  intro p hp
  rw [if_neg fun hname => h (mem_namesOf.mpr ⟨p,hp,hname⟩)]

section Concat
variable (s : TypeStep) (ty : TypeDesc)

theorem namesOf_concat_of_mem (h : s.name ∈ namesOf granted) :
    namesOf (granted ++ [(s,ty)]) = namesOf granted := by
  rw [namesOf, List.map_append]
  exact eraseDups_concat_of_mem (List.mem_eraseDups.mp h)

theorem namesOf_concat_of_not_mem (h : s.name ∉ namesOf granted) :
    namesOf (granted ++ [(s,ty)]) = namesOf granted ++ [s.name] := by
  rw [namesOf, List.map_append]
  exact eraseDups_concat_of_not_mem fun hmem => h (List.mem_eraseDups.mpr hmem)

theorem mem_namesOf_concat_of_ne {name : String} (h : s.name ≠ name) :
    name ∈ namesOf (granted ++ [(s,ty)]) ↔ name ∈ namesOf granted := by
  rw [mem_namesOf, mem_namesOf]
  simp [or_and_right, exists_or, h]

theorem layoutsOf_concat_of_ne {name : String} (h : s.name ≠ name) :
    layoutsOf (granted ++ [(s,ty)]) name = layoutsOf granted name := by
  simp [layoutsOf, h]

theorem layoutsOf_concat_self (h : layoutsOf granted s.name = []) :
    layoutsOf (granted ++ [(s,ty)]) s.name = s.layout?.toList := by
  rw [layoutsOf, List.filterMap_append, ← layoutsOf, h, List.nil_append]
  cases hlayout : s.layout? <;> simp [hlayout]

theorem layoutsOf_concat_self_eq_nil_iff (h : layoutsOf granted s.name = []) :
    layoutsOf (granted ++ [(s,ty)]) s.name = [] ↔ s.layout? = none := by
  rw [layoutsOf_concat_self s ty h, Option.toList_eq_nil_iff]

theorem entryOf_concat_of_ne {name : String} (h : s.name ≠ name) :
    entryOf (granted ++ [(s,ty)]) name = entryOf granted name := by
  rw [entryOf, layoutsOf_concat_of_ne s ty h, entryOf]

theorem entryOf_concat_self (h : layoutsOf granted s.name = []) :
    entryOf (granted ++ [(s,ty)]) s.name = ⟨s.name,s.layout?.getD (.blob 0)⟩ := by
  rw [entryOf, layoutsOf_concat_self s ty h]
  cases s.layout? <;> rfl

theorem length_layoutsOf_concat (h : layoutsOf granted s.name = [])
    (hlength : ∀ name, (layoutsOf granted name).length ≤ 1) (name : String) :
    (layoutsOf (granted ++ [(s,ty)]) name).length ≤ 1 := by
  by_cases hname : s.name = name
  · subst hname
    rw [layoutsOf_concat_self s ty h]
    cases s.layout? <;> simp
  · rw [layoutsOf_concat_of_ne s ty hname]
    exact hlength name

end Concat
end Granted

/-- There are enough ids for all names. -/
def Snapshot.IdsSuffice (s : Snapshot) : Prop := s.entries.size ≤ UInt32.size

instance (s : Snapshot) : Decidable s.IdsSuffice := inferInstanceAs (Decidable (_ ≤ _))

/-- A type that is found is the entry at the id of the base, with a level for each star. -/
theorem Snapshot.lookupType_eq_some_iff {s : Snapshot} {spelling : String} {ty : TypeDesc} :
    s.lookupType spelling = some ty ↔ ∃ id entry,
      s.byName.lookup (String.ofList (splitStars spelling.toList).1) = some id ∧
        s.entries[id.toNat]? = some entry ∧
        ty = (TypeDesc.plain id entry.name).pointerTimes (splitStars spelling.toList).2 := by
  constructor
  · intro h
    obtain ⟨id,hid,h⟩ := Option.bind_eq_some_iff.mp h
    obtain ⟨entry,hentry,h⟩ := Option.bind_eq_some_iff.mp h
    exact ⟨id,entry,hid,hentry,(Option.some.inj h).symm⟩
  · rintro ⟨id,entry,hid,hentry,rfl⟩
    simp [lookupType, hid, hentry]

namespace SnapshotBuilder
variable {b : SnapshotBuilder} {granted : List (TypeStep × TypeDesc)}

/-- The names and their ids are told by the type steps that succeeded, however many there are: the id
of a name is its place, as far as an id can say it. -/
structure Names (b : SnapshotBuilder) (granted : List (TypeStep × TypeDesc)) : Prop where
  names_eq : b.snapshot.entries.toList.map (·.name) = namesOf granted
  lookup_eq : ∀ name, b.snapshot.byName.lookup name =
    if name ∈ namesOf granted then some (.ofNat ((namesOf granted).idxOf name)) else none
  returned : ∀ p ∈ granted, b.snapshot.byName.lookup p.1.name = some p.2.id ∧
    p.2 = .plain p.2.id p.1.name

theorem names_empty : empty.Names [] where
  names_eq := rfl
  lookup_eq _ := rfl
  returned _ h := by cases h

namespace Names

theorem size_eq (h : b.Names granted) : b.snapshot.entries.size = (namesOf granted).length := by
  rw [← Array.length_toList, ← h.names_eq, List.length_map]

theorem lookup_eq_none_iff (h : b.Names granted) {name : String} :
    b.snapshot.byName.lookup name = none ↔ name ∉ namesOf granted := by
  rw [h.lookup_eq, ite_eq_right_iff]
  exact ⟨fun hnone hmem => Option.some_ne_none _ (hnone hmem),fun hmem hmem' => absurd hmem' hmem⟩

theorem mem_of_lookup (h : b.Names granted) {name : String} {id : UInt32}
    (hid : b.snapshot.byName.lookup name = some id) :
    name ∈ namesOf granted ∧ id = .ofNat ((namesOf granted).idxOf name) := by
  rw [h.lookup_eq] at hid
  split at hid
  next hmem => exact ⟨hmem,(Option.some.inj hid).symm⟩
  · cases hid

/-- No id of the index is out of range, even of those that two names share. -/
theorem toNat_lt (h : b.Names granted) {name : String} {id : UInt32}
    (hid : b.snapshot.byName.lookup name = some id) : id.toNat < b.snapshot.entries.size := by
  obtain ⟨hmem,rfl⟩ := h.mem_of_lookup hid
  have hplace := List.idxOf_lt_length_of_mem hmem
  rw [h.size_eq, UInt32.toNat_ofNat']
  exact Nat.lt_of_le_of_lt (Nat.mod_le _ _) hplace

/-- Steps about one name that succeed return one descriptor. -/
theorem returned_eq (h : b.Names granted) {p : TypeStep × TypeDesc} (hp : p ∈ granted) :
    p.2 = .plain (.ofNat ((namesOf granted).idxOf p.1.name)) p.1.name := by
  obtain ⟨hid,heq⟩ := h.returned p hp
  rw [heq, (h.mem_of_lookup hid).2]

/-- A new name gets the next id. -/
theorem added (h : b.Names granted) {s : TypeStep}
    (hs : b.snapshot.byName.lookup s.name = none) :
    (b.added s.name s.layout?).Names (granted ++ [(s,.plain b.nextId s.name)]) := by
  have hnew := h.lookup_eq_none_iff.mp hs
  have hplace : (namesOf granted ++ [s.name]).idxOf s.name = b.snapshot.entries.size := by
    rw [List.idxOf_append, if_neg hnew, List.idxOf_cons_self, h.size_eq, Nat.zero_add]
  refine ⟨?_,fun name => ?_,fun p hp => ?_⟩
  · rw [namesOf_concat_of_not_mem s _ hnew, SnapshotBuilder.added, Array.toList_push,
      List.map_append, h.names_eq]
    rfl
  · rw [namesOf_concat_of_not_mem s _ hnew, SnapshotBuilder.added, List.lookup_cons]
    by_cases hname : name = s.name
    · subst hname
      rw [hplace, beq_self_eq_true, if_pos (List.mem_append_right _ List.mem_cons_self)]
      rfl
    · rw [beq_false_of_ne hname, h.lookup_eq]
      by_cases hmem : name ∈ namesOf granted
      · rw [if_pos hmem, if_pos (List.mem_append_left _ hmem), List.idxOf_append,
          if_pos hmem]
      · rw [if_neg hmem, if_neg (by simp [hmem, hname])]
  · rw [SnapshotBuilder.added, List.lookup_cons]
    rcases List.mem_append.mp hp with hp | hp
    · have hne : p.1.name ≠ s.name := fun hname =>
        hnew (hname ▸ (h.mem_of_lookup (h.returned p hp).1).1)
      rw [beq_false_of_ne hne]
      exact h.returned p hp
    · obtain rfl := List.mem_singleton.mp hp
      rw [beq_self_eq_true]
      exact ⟨rfl,rfl⟩

/-- A reserved name keeps its id. -/
theorem completed (h : b.Names granted) {s : TypeStep} {id : UInt32}
    (hs : b.snapshot.byName.lookup s.name = some id) :
    (b.completed id s.layout?).Names (granted ++ [(s,.plain id s.name)]) := by
  have hmem := (h.mem_of_lookup hs).1
  refine ⟨?_,fun name => ?_,fun p hp => ?_⟩
  · rw [namesOf_concat_of_mem s _ hmem, SnapshotBuilder.completed, Array.toList_modify, ← h.names_eq]
    refine List.ext_getElem? fun i => ?_
    rw [List.getElem?_map, List.getElem?_map, List.getElem?_modify]
    cases b.snapshot.entries.toList[i]? with
    | none => rfl
    | some entry => by_cases hi : id.toNat = i <;> simp [hi]
  · rw [namesOf_concat_of_mem s _ hmem]
    exact h.lookup_eq name
  · rcases List.mem_append.mp hp with hp | hp
    · exact h.returned p hp
    · obtain rfl := List.mem_singleton.mp hp
      exact ⟨hs,rfl⟩

end Names

theorem nodup_namesOf : (namesOf granted).Nodup := nodup_eraseDups _

/-- The type table, its index and the reserved entries are told by the type steps that succeeded, if
there are enough ids. -/
structure Records (b : SnapshotBuilder) (granted : List (TypeStep × TypeDesc)) : Prop
    extends b.Names granted where
  few : (namesOf granted).length ≤ UInt32.size
  entries_eq : b.snapshot.entries.toList = (namesOf granted).map (entryOf granted)
  declared_iff : ∀ {name id}, b.snapshot.byName.lookup name = some id →
    (id ∈ b.declared ↔ layoutsOf granted name = [])
  declared_lt : ∀ id ∈ b.declared, id.toNat < (namesOf granted).length
  layouts_length : ∀ name, (layoutsOf granted name).length ≤ 1

theorem records_empty : empty.Records [] where
  toNames := names_empty
  few := Nat.zero_le _
  entries_eq := rfl
  declared_iff h := by cases h
  declared_lt _ h := by cases h
  layouts_length _ := Nat.zero_le _

namespace Records

/-- Two names do not share an id. -/
theorem index_iff (h : b.Records granted) (name : String) (id : UInt32) :
    b.snapshot.byName.lookup name = some id ↔ (namesOf granted)[id.toNat]? = some name := by
  constructor
  · intro hid
    obtain ⟨hmem,rfl⟩ := h.mem_of_lookup hid
    have hplace := List.idxOf_lt_length_of_mem hmem
    rw [UInt32.toNat_ofNat_of_lt' (Nat.lt_of_lt_of_le hplace h.few),
      List.getElem?_eq_getElem hplace, List.getElem_idxOf]
  · intro hname
    obtain ⟨hlt,rfl⟩ := List.getElem?_eq_some_iff.mp hname
    rw [h.lookup_eq, if_pos (List.getElem_mem hlt), nodup_namesOf.idxOf_getElem _ hlt,
      UInt32.ofNat_toNat]

theorem eq_of_lookup (h : b.Records granted) {name other : String} {id : UInt32}
    (hname : b.snapshot.byName.lookup name = some id)
    (hother : b.snapshot.byName.lookup other = some id) : name = other :=
  Option.some.inj (((h.index_iff _ _).mp hname).symm.trans ((h.index_iff _ _).mp hother))

/-- The index and the table are inverse to each other. -/
theorem lookup_iff (h : b.Records granted) (name : String) (id : UInt32) :
    b.snapshot.byName.lookup name = some id ↔
      ∃ entry, b.snapshot.entries[id.toNat]? = some entry ∧ entry.name = name := by
  rw [h.index_iff, ← Array.getElem?_toList, h.entries_eq, List.getElem?_map]
  cases (namesOf granted)[id.toNat]? <;> simp [entryOf]

/-- No entry is missing when a spelling is looked up, and it has the name that was looked for. -/
theorem lookupType_eq (h : b.Records granted) (spelling : String) :
    b.snapshot.lookupType spelling =
      let base := String.ofList (splitStars spelling.toList).1
      (b.snapshot.byName.lookup base).map fun id =>
        (TypeDesc.plain id base).pointerTimes (splitStars spelling.toList).2 := by
  rw [Snapshot.lookupType]
  cases hid : b.snapshot.byName.lookup (String.ofList (splitStars spelling.toList).1) with
  | none => simp [hid]
  | some id =>
    obtain ⟨entry,hentry,hname⟩ := (h.lookup_iff _ id).mp hid
    simp [hid, hentry, hname]

theorem toNat_returned (h : b.Records granted) {p : TypeStep × TypeDesc} (hp : p ∈ granted) :
    p.2.id.toNat = (namesOf granted).idxOf p.1.name := by
  obtain ⟨hmem,hid⟩ := h.mem_of_lookup (h.returned p hp).1
  rw [hid, UInt32.toNat_ofNat_of_lt' (Nat.lt_of_lt_of_le (List.idxOf_lt_length_of_mem hmem) h.few)]

/-- The next id is the number of names. -/
theorem toNat_nextId (h : b.Records granted) (hfew : (namesOf granted).length < UInt32.size) :
    b.nextId.toNat = (namesOf granted).length := by
  rw [nextId, h.size_eq, UInt32.toNat_ofNat_of_lt' hfew]

/-- As long as there is an id for it, a new name joins the others. -/
theorem added (h : b.Records granted) {s : TypeStep}
    (hs : b.snapshot.byName.lookup s.name = none)
    (hfew : (namesOf granted).length < UInt32.size) :
    (b.added s.name s.layout?).Records (granted ++ [(s,.plain b.nextId s.name)]) := by
  have hnew := h.lookup_eq_none_iff.mp hs
  have hnil := layoutsOf_eq_nil hnew
  have hnext := h.toNat_nextId hfew
  have hfree : b.nextId ∉ b.declared := fun hid =>
    Nat.lt_irrefl _ (hnext ▸ h.declared_lt _ hid)
  refine ⟨h.toNames.added hs,?_,?_,fun {name id} hname => ?_,fun id hid => ?_,
    length_layoutsOf_concat s _ hnil h.layouts_length⟩
  · rw [namesOf_concat_of_not_mem s _ hnew, List.length_append]
    exact hfew
  -- the entries: no name before the new one is the new one, so theirs stay
  · rw [namesOf_concat_of_not_mem s _ hnew, List.map_append, List.map_singleton,
      entryOf_concat_self s _ hnil, SnapshotBuilder.added, Array.toList_push, h.entries_eq]
    congr 1
    refine List.map_congr_left fun name hname => (entryOf_concat_of_ne s _ ?_).symm
    rintro rfl
    exact hnew hname
  -- the reserved ids: the new one is among them unless the step came with a layout
  · rw [SnapshotBuilder.added, List.lookup_cons] at hname
    rw [mem_declared_added]
    by_cases heq : name = s.name
    · subst heq
      rw [beq_self_eq_true] at hname
      obtain rfl := Option.some.inj hname
      simp [layoutsOf_concat_self_eq_nil_iff s _ hnil, hfree]
    · rw [beq_false_of_ne heq] at hname
      have hlt := h.toNat_lt hname
      have hne : id ≠ b.nextId := by
        rintro rfl
        rw [hnext, h.size_eq] at hlt
        exact Nat.lt_irrefl _ hlt
      rw [layoutsOf_concat_of_ne s _ (Ne.symm heq), ← h.declared_iff hname]
      simp [hne]
  · rw [namesOf_concat_of_not_mem s _ hnew, List.length_append]
    rcases mem_declared_added.mp hid with hid | ⟨rfl,_⟩
    · exact Nat.lt_succ_of_lt (h.declared_lt id hid)
    · exact hnext ▸ Nat.lt_succ_self _

/-- A name that is still reserved was not defined by any step. -/
theorem layoutsOf_eq_nil_of_declared (h : b.Records granted) {name : String} {id : UInt32}
    (hname : b.snapshot.byName.lookup name = some id) (hid : id ∈ b.declared) :
    layoutsOf granted name = [] :=
  (h.declared_iff hname).mp hid

/-- A reserved name gets its layout, and no other name is touched. -/
theorem completed (h : b.Records granted) {s : TypeStep} {id : UInt32}
    (hs : b.snapshot.byName.lookup s.name = some id) (hid : id ∈ b.declared) :
    (b.completed id s.layout?).Records (granted ++ [(s,.plain id s.name)]) := by
  have hplace := (h.index_iff _ _).mp hs
  have hmem : s.name ∈ namesOf granted := List.mem_of_getElem? hplace
  have hnil := h.layoutsOf_eq_nil_of_declared hs hid
  have hne : ∀ {name} {other : Nat}, (namesOf granted)[other]? = some name → other ≠ id.toNat →
      s.name ≠ name := by
    rintro name other hother hne rfl
    exact hne ((List.getElem?_inj (List.getElem?_eq_some_iff.mp hother).1 nodup_namesOf).mp
      (hother.trans hplace.symm))
  refine ⟨h.toNames.completed hs,?_,?_,fun {name other} hname => ?_,fun other hother => ?_,
    length_layoutsOf_concat s _ hnil h.layouts_length⟩
  · rw [namesOf_concat_of_mem s _ hmem]
    exact h.few
  -- the entries: only the one at the id of the name changes
  · rw [namesOf_concat_of_mem s _ hmem, SnapshotBuilder.completed, Array.toList_modify,
      h.entries_eq]
    refine List.ext_getElem? fun other => ?_
    rw [List.getElem?_modify, List.getElem?_map, List.getElem?_map]
    cases hother : (namesOf granted)[other]? with
    | none => rfl
    | some name =>
      by_cases heq : id.toNat = other
      · subst heq
        obtain rfl := Option.some.inj (hplace.symm.trans hother)
        simp only [Option.map_some, entryOf_concat_self s _ hnil]
        simp [entryOf]
      · simp [heq, entryOf_concat_of_ne s _ (hne hother (Ne.symm heq))]
  -- the reserved ids: the one of the name is taken out, and put back by a step without a layout
  · change b.snapshot.byName.lookup name = some other at hname
    rw [mem_declared_completed]
    by_cases hother : other = id
    · subst hother
      obtain rfl := h.eq_of_lookup hname hs
      simp [layoutsOf_concat_self_eq_nil_iff s _ hnil]
    · have hdiffers : s.name ≠ name := by
        rintro rfl
        exact hother (Option.some.inj (hname.symm.trans hs))
      rw [layoutsOf_concat_of_ne s _ hdiffers, ← h.declared_iff hname]
      simp [hother]
  · rw [namesOf_concat_of_mem s _ hmem]
    rcases mem_declared_completed.mp hother with ⟨hother,_⟩ | ⟨rfl,_⟩
    · exact h.declared_lt other hother
    · exact h.declared_lt other hid

theorem nameState_eq (h : b.Records granted) (name : String) :
    b.nameState name =
      if name ∈ namesOf granted then
        if layoutsOf granted name = [] then .declared else .defined
      else .absent := by
  unfold nameState
  cases hname : b.snapshot.byName.lookup name with
  | none => rw [if_neg (h.lookup_eq_none_iff.mp hname)]
  | some id => simp only [h.declared_iff hname, if_pos (h.mem_of_lookup hname).1]

theorem length_layoutsOf_eq (h : b.Records granted) (name : String) :
    (layoutsOf granted name).length = if b.nameState name = .defined then 1 else 0 := by
  have hlength := h.layouts_length name
  rw [h.nameState_eq]
  by_cases hname : name ∈ namesOf granted
  · by_cases hlayouts : layoutsOf granted name = []
    · simp [hname, hlayouts]
    · have hpos := List.length_pos_iff.mpr hlayouts
      rw [if_pos hname, if_neg hlayouts, if_pos rfl]
      omega
  · simp [hname, layoutsOf_eq_nil hname]

/-- A name that no step defined yet is declared or defined by a step that succeeds. -/
theorem nameState_concat {b' : SnapshotBuilder} {s : TypeStep} {ty : TypeDesc}
    (h : b.Records granted) (h' : b'.Records (granted ++ [(s,ty)]))
    (hnil : layoutsOf granted s.name = []) (name : String) :
    b'.nameState name = (b.nameState name).after name (.type s) := by
  have hmem : s.name ∈ namesOf (granted ++ [(s,ty)]) :=
    mem_namesOf.mpr ⟨(s,ty),List.mem_append_right _ List.mem_cons_self,rfl⟩
  rw [h'.nameState_eq, h.nameState_eq]
  by_cases hname : s.name = name
  · subst hname
    rw [if_pos hmem, layoutsOf_concat_self s ty hnil, if_pos hnil]
    cases hlayout : s.layout? <;> by_cases hold : s.name ∈ namesOf granted <;>
      simp [NameState.after, hold, hlayout]
  · have hafter : ∀ state : NameState, state.after name (.type s) = state :=
      fun _ => if_neg fun hand => hname hand.1
    rw [hafter, layoutsOf_concat_of_ne s ty hname]
    simp only [mem_namesOf_concat_of_ne s ty hname]

end Records
end SnapshotBuilder

namespace Construction

/-- A type step adds a name, completes a reserved one, or is refused. -/
theorem next_type_cases (c : Construction) (s : TypeStep) :
    (c.builder.snapshot.byName.lookup s.name = none ∧
      (c.next (.type s)).builder = c.builder.added s.name s.layout? ∧
      (c.next (.type s)).granted =
        c.granted ++ [(s,.plain c.builder.nextId s.name)]) ∨
    (∃ id, c.builder.snapshot.byName.lookup s.name = some id ∧ id ∈ c.builder.declared ∧
      (c.next (.type s)).builder = c.builder.completed id s.layout? ∧
      (c.next (.type s)).granted = c.granted ++ [(s,.plain id s.name)]) ∨
    (∃ id, c.builder.snapshot.byName.lookup s.name = some id ∧ id ∉ c.builder.declared ∧
      (c.next (.type s)).builder = c.builder ∧ (c.next (.type s)).granted = c.granted) := by
  simp only [next, BuilderStep.apply, EStateM.run_bind, s.apply_eq c.builder]
  cases hl : c.builder.snapshot.byName.lookup s.name with
  | none => exact .inl ⟨rfl,rfl,by simp [granted]⟩
  | some id =>
    right
    by_cases hid : id ∈ c.builder.declared
    · exact .inl ⟨id,rfl,hid,by simp [hid],by simp [granted, hid]⟩
    · exact .inr ⟨id,rfl,hid,by simp [hid],by simp [granted, hid]⟩

theorem next_memory_cases (c : Construction) (s : MemoryStep) :
    (∃ m, (c.next (.memory s)).builder = c.builder.overMemory m) ∧
      (c.next (.memory s)).granted = c.granted := by
  simp only [next, BuilderStep.apply, EStateM.run_bind, s.run_apply c.builder]
  cases s.onMemory.run c.builder.snapshot.memory with
  | error e m => exact ⟨⟨m,rfl⟩,by simp [granted, Change.mapState]⟩
  | ok _ m => exact ⟨⟨m,rfl⟩,by simp [granted, Change.mapState]⟩

/-- Every step keeps the names and the granted steps in agreement. -/
theorem names_next {c : Construction} (h : c.builder.Names c.granted) (s : BuilderStep) :
    (c.next s).builder.Names (c.next s).granted := by
  cases s with
  | type s =>
    rcases c.next_type_cases s with ⟨hs,hb,hg⟩ | ⟨id,hs,_,hb,hg⟩ | ⟨_,_,_,hb,hg⟩
    · rw [hb, hg]
      exact h.added hs
    · rw [hb, hg]
      exact h.completed hs
    · rw [hb, hg]
      exact h
  | memory s =>
    obtain ⟨⟨m,hb⟩,hg⟩ := c.next_memory_cases s
    rw [hb, hg]
    exact ⟨h.names_eq,h.lookup_eq,h.returned⟩

theorem names_ofSteps (steps : List BuilderStep) :
    (ofSteps steps).builder.Names (ofSteps steps).granted :=
  List.foldlRecOn (motive := fun c => c.builder.Names c.granted) steps next
    SnapshotBuilder.names_empty fun _ h s _ => names_next h s

/-- No step takes a name back. -/
theorem size_le_next (c : Construction) (s : BuilderStep) :
    c.builder.snapshot.entries.size ≤ (c.next s).builder.snapshot.entries.size := by
  cases s with
  | type s =>
    rcases c.next_type_cases s with ⟨_,hb,_⟩ | ⟨_,_,_,hb,_⟩ | ⟨_,_,_,hb,_⟩
    · rw [hb, SnapshotBuilder.added, Array.size_push]
      exact Nat.le_succ _
    · have hsize : (c.next (.type s)).builder.snapshot.entries.size =
          c.builder.snapshot.entries.size := by rw [hb, SnapshotBuilder.completed, Array.size_modify]
      exact Nat.le_of_eq hsize.symm
    · exact hb ▸ Nat.le_refl _
  | memory s =>
    obtain ⟨⟨m,hb⟩,_⟩ := c.next_memory_cases s
    exact hb ▸ Nat.le_refl _

/-- As long as there are enough ids, every step keeps the table and the granted steps in agreement. -/
theorem records_next {c : Construction} (h : c.builder.Records c.granted) (s : BuilderStep)
    (hids : (c.next s).builder.snapshot.IdsSuffice) :
    (c.next s).builder.Records (c.next s).granted := by
  cases s with
  | type s =>
    rcases c.next_type_cases s with ⟨hs,hb,hg⟩ | ⟨id,hs,hid,hb,hg⟩ | ⟨id,hs,hid,hb,hg⟩
    · rw [hb, Snapshot.IdsSuffice, SnapshotBuilder.added, Array.size_push, h.size_eq] at hids
      rw [hb, hg]
      exact h.added hs hids
    · rw [hb, hg]
      exact h.completed hs hid
    · rw [hb, hg]
      exact h
  | memory s =>
    have hnames := names_next h.toNames (.memory s)
    obtain ⟨⟨m,hb⟩,hg⟩ := c.next_memory_cases s
    rw [hb, hg] at hnames ⊢
    exact ⟨hnames,h.few,h.entries_eq,h.declared_iff,h.declared_lt,h.layouts_length⟩

/-- A step moves the state of a name as the history of calls says. -/
theorem nameState_next {c : Construction} (h : c.builder.Records c.granted) (s : BuilderStep)
    (hids : (c.next s).builder.snapshot.IdsSuffice) (name : String) :
    (c.next s).builder.nameState name = (c.builder.nameState name).after name s := by
  have h' := records_next h s hids
  cases s with
  | type s =>
    rcases c.next_type_cases s with ⟨hs,_,hg⟩ | ⟨id,hs,hid,_,hg⟩ | ⟨id,hs,hid,hb,_⟩
    · rw [hg] at h'
      exact h.nameState_concat h' (layoutsOf_eq_nil (h.lookup_eq_none_iff.mp hs)) name
    · rw [hg] at h'
      exact h.nameState_concat h' (h.layoutsOf_eq_nil_of_declared hs hid) name
    -- a refused step is about a defined name, which stays as it is
    · rw [hb, NameState.after, if_neg]
      rintro ⟨rfl,hne⟩
      simp [SnapshotBuilder.nameState, hs, hid] at hne
  | memory s =>
    obtain ⟨⟨m,hb⟩,_⟩ := c.next_memory_cases s
    rw [hb]
    rfl

section Suffice
variable {steps : List BuilderStep} (hids : (ofSteps steps).builder.snapshot.IdsSuffice)
include hids

theorem records_ofSteps : (ofSteps steps).builder.Records (ofSteps steps).granted := by
  induction steps using List.reverseRecOn with
  | nil => exact SnapshotBuilder.records_empty
  | append_singleton steps s ih =>
    rw [ofSteps_concat] at hids ⊢
    exact records_next (ih (Nat.le_trans (size_le_next _ s) hids)) s hids

theorem nameState_ofSteps (name : String) :
    (ofSteps steps).builder.nameState name = NameState.track name steps := by
  induction steps using List.reverseRecOn with
  | nil => rfl
  | append_singleton steps s ih =>
    rw [ofSteps_concat] at hids ⊢
    have hprefix := Nat.le_trans (size_le_next _ s) hids
    rw [nameState_next (records_ofSteps hprefix) s hids, ih hprefix, NameState.track,
      NameState.track, List.foldl_append]
    rfl

/-- A type step is refused exactly if its name is defined, and then it changes nothing. -/
theorem apply_ofSteps (s : TypeStep) :
    if NameState.track s.name steps = .defined then
      s.apply.run (ofSteps steps).builder = .error (.duplicateType s.name) (ofSteps steps).builder
    else ∃ ty b, s.apply.run (ofSteps steps).builder = .ok ty b := by
  rw [← nameState_ofSteps hids, SnapshotBuilder.nameState, s.apply_eq]
  cases (ofSteps steps).builder.snapshot.byName.lookup s.name with
  | none => exact ⟨_,_,rfl⟩
  | some id => by_cases hid : id ∈ (ofSteps steps).builder.declared <;> simp [hid]

end Suffice

theorem size_le_length (steps : List BuilderStep) :
    (ofSteps steps).builder.snapshot.entries.size ≤ steps.length :=
  calc (ofSteps steps).builder.snapshot.entries.size
      = (namesOf (ofSteps steps).granted).length := (names_ofSteps steps).size_eq
    _ ≤ ((ofSteps steps).granted.map (·.1.name)).length := length_eraseDups_le _
    _ = (ofSteps steps).granted.length := List.length_map _
    _ ≤ (ofSteps steps).results.length := List.length_filterMap_le _ _
    _ = ((ofSteps steps).results.map (·.1)).length := (List.length_map _).symm
    _ = steps.length := congrArg List.length (map_results steps)

/-- After any steps, whatever they came to: a type step that fails does so for its name, and changes
nothing. The steps that succeed return one descriptor a name, the table holds the names in the order of
first success, and no id of the index is out of range. Type steps and memory steps do not see each other.
As long as there are enough ids, each name is in the state the calls about it put it in, and a type step
is refused exactly at a defined name; ids are the places of the names, each entry has the layout of the
one step that defined its name, and the index is the inverse of the table. -/
theorem type_table_states (steps : List BuilderStep) :
    let c := ofSteps steps
    (∀ (s : TypeStep) e b, s.apply.run c.builder = .error e b →
      e = .duplicateType s.name ∧ b = c.builder) ∧
    (∀ p ∈ c.granted, ∀ q ∈ c.granted, p.1.name = q.1.name → p.2 = q.2) ∧
    c.builder.snapshot.entries.toList.map (·.name) = namesOf c.granted ∧
    (∀ name id, c.builder.snapshot.byName.lookup name = some id →
      id.toNat < c.builder.snapshot.entries.size) ∧
    Mixes c (ofSteps (steps.filter (·.isType))) (ofSteps (steps.filter (!·.isType))) ∧
    c.builder.snapshot.entries.size ≤ steps.length ∧
    (c.builder.snapshot.IdsSuffice →
      (∀ s : TypeStep,
        if NameState.track s.name steps = .defined then
          s.apply.run c.builder = .error (.duplicateType s.name) c.builder
        else ∃ ty b, s.apply.run c.builder = .ok ty b) ∧
      (∀ name, c.builder.nameState name = NameState.track name steps) ∧
      (∀ p ∈ c.granted, p.2 = .plain p.2.id p.1.name ∧
        p.2.id.toNat = (namesOf c.granted).idxOf p.1.name) ∧
      c.builder.snapshot.entries.toList = (namesOf c.granted).map (entryOf c.granted) ∧
      (∀ name, (layoutsOf c.granted name).length =
        if NameState.track name steps = .defined then 1 else 0) ∧
      (∀ name id, c.builder.snapshot.byName.lookup name = some id ↔
        ∃ entry, c.builder.snapshot.entries[id.toNat]? = some entry ∧ entry.name = name) ∧
      ∀ spelling, c.builder.snapshot.lookupType spelling =
        let base := String.ofList (splitStars spelling.toList).1
        (c.builder.snapshot.byName.lookup base).map fun id =>
          (TypeDesc.plain id base).pointerTimes (splitStars spelling.toList).2) := by
  have hnames := names_ofSteps steps
  refine ⟨fun s e b he => TypeStep.apply_eq_error he,fun p hp q hq hname => ?_,
    hnames.names_eq,fun name id => hnames.toNat_lt,mixes_ofSteps steps,size_le_length steps,
    fun hids => ?_⟩
  · rw [hnames.returned_eq hp, hnames.returned_eq hq, hname]
  · have h := records_ofSteps hids
    refine ⟨apply_ofSteps hids,nameState_ofSteps hids,
      fun p hp => ⟨(h.returned p hp).2,h.toNat_returned hp⟩,h.entries_eq,fun name => ?_,
      h.lookup_iff,h.lookupType_eq⟩
    rw [← nameState_ofSteps hids]
    exact h.length_layoutsOf_eq name

/-- A name that is declared, defined after another one, and then refused. -/
def completedSteps : List BuilderStep :=
  [.type (.declare " Node "),.memory (.mapZeroed 16 8),.type (.primitive "int" .i32),
    .type (.record "Node" 8 []),.type (.declare "Node")]

/-- Both steps about the first name that succeed return its first id, and the last one is refused. -/
theorem type_table_states_completed :
    (TypeStep.record "Node" 8 [],TypeDesc.plain 0 "Node") ∈ (ofSteps completedSteps).granted ∧
      (TypeDesc.plain 0 "Node").id.toNat =
        (namesOf (ofSteps completedSteps).granted).idxOf "Node" ∧
      (ofSteps completedSteps).builder.snapshot.entries.toList =
        [⟨"Node",.record 8 []⟩,⟨"int",.primitive .i32⟩] ∧
      NameState.track "Node" completedSteps = .defined ∧
      (TypeStep.declare "Node").apply.run (ofSteps completedSteps).builder =
        .error (.duplicateType "Node") (ofSteps completedSteps).builder := by
  obtain ⟨_,_,_,_,_,hsize,hstates⟩ := type_table_states completedSteps
  obtain ⟨happly,_,hreturned,hentries,_⟩ := hstates (Nat.le_trans hsize (by decide))
  have hmem : (TypeStep.record "Node" 8 [],TypeDesc.plain 0 "Node") ∈
      (ofSteps completedSteps).granted := by decide +kernel
  have hname : (TypeStep.declare "Node").name = "Node" := by decide +kernel
  have hstate : NameState.track "Node" completedSteps = .defined := by decide +kernel
  have hrefused := happly (.declare "Node")
  rw [hname, if_pos hstate] at hrefused
  exact ⟨hmem,(hreturned _ hmem).2,hentries.trans (by decide +kernel),hstate,hrefused⟩

end Construction
end ValueInspector
