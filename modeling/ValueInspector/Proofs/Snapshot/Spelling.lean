import ValueInspector.Proofs.Snapshot.TypeTable
import ValueInspector.Proofs.Text.Trimming

/-! # Spellings of registered types

A name is registered as it is, less the blanks at both ends; a lookup takes the trailing stars of a
spelling for pointer levels. So a descriptor is found by its spelling exactly if its name does not
end in a star, and two types can share a spelling only if the name of one of them does.
-/
namespace ValueInspector

theorem Text.Tight.append_stars {cs : List Char} (h : Tight cs) (n : Nat) :
    Tight (cs ++ List.replicate n '*') where
  head c hc := by
    rw [List.head?_append, Option.mem_def, Option.or_eq_some_iff] at hc
    rcases hc with hc | ⟨_,hc⟩
    · exact h.head c hc
    · rw [List.eq_of_mem_replicate (List.mem_of_mem_head? hc)]
      decide
  last c hc := by
    rw [List.getLast?_append, Option.mem_def, Option.or_eq_some_iff] at hc
    rcases hc with hc | ⟨_,hc⟩
    · rw [List.eq_of_mem_replicate (List.mem_of_mem_getLast? hc)]
      decide
    · exact h.last c hc

/-- All stars at the end of a spelling count, whether they are pointer levels or part of the name. -/
theorem splitStars_append_stars {cs : List Char} (h : Text.Tight cs) (n : Nat) :
    splitStars (cs ++ List.replicate n '*') =
      (Text.dropEndWhile isSuffixChar cs,n + (cs.reverse.takeWhile isSuffixChar).count '*') := by
  have hstars : ∀ c ∈ List.replicate n '*', isSuffixChar c = true := fun c hc => by
    rw [List.eq_of_mem_replicate hc]
    decide
  rw [splitStars, (h.append_stars n).trim_eq, Text.dropEndWhile_append_of_pos hstars,
    List.reverse_append, List.reverse_replicate, List.takeWhile_append_of_pos hstars,
    List.count_append, List.count_replicate_self]

def EndsInStar (name : String) : Prop := name.toList.getLast? = some '*'

instance (name : String) : Decidable (EndsInStar name) := inferInstanceAs (Decidable (_ = _))

theorem Text.Tight.last_ne_star_iff {cs : List Char} (h : Tight cs) :
    cs.getLast? ≠ some '*' ↔ ∀ c ∈ cs.getLast?, isSuffixChar c = false := by
  constructor
  · intro hstar c hc
    have hne : c ≠ '*' := by
      rintro rfl
      exact hstar hc
    simp [isSuffixChar, hne, h.last c hc]
  · intro hlast hstar
    exact absurd (hlast '*' hstar) (by decide)

theorem not_endsInStar_iff {name : String} (h : Text.Tight name.toList) :
    ¬EndsInStar name ↔ Text.dropEndWhile isSuffixChar name.toList = name.toList := by
  rw [Text.dropEndWhile_eq_self_iff]
  exact h.last_ne_star_iff

namespace TypeDesc

theorem pointerTimes_plain (id : UInt32) (base : String) (n : Nat) :
    (plain id base).pointerTimes n = ⟨id,UInt8.ofNat (min n 255),base⟩ := by
  induction n with
  | zero => rfl
  | succ n ih =>
    rw [pointerTimes, ih, pointer]
    rcases Nat.lt_or_ge n 255 with hlt | hge
    · have hne : UInt8.ofNat n ≠ 255 := by
        rw [Ne, ← UInt8.toNat_inj, UInt8.toNat_ofNat', Nat.mod_eq_of_lt (by omega)]
        exact Nat.ne_of_lt hlt
      rw [Nat.min_eq_left (Nat.le_of_lt hlt), Nat.min_eq_left hlt, if_neg hne]
      exact congrArg (TypeDesc.mk id · base) (UInt8.ofNat_add n 1).symm
    · rw [Nat.min_eq_right hge, Nat.min_eq_right (Nat.le_succ_of_le hge)]
      rfl

theorem toList_spelling (ty : TypeDesc) :
    ty.spelling.toList = ty.base.toList ++ List.replicate ty.pointers.toNat '*' := by
  rw [spelling, String.toList_append, String.toList_ofList]

/-- A spelling that does not end in a star is that of its base alone. -/
theorem spelling_eq_iff {ty : TypeDesc} {name : String} (h : ¬EndsInStar name) :
    ty.spelling = name ↔ ty.isPointer = false ∧ ty.base = name := by
  rw [← String.toList_inj, toList_spelling]
  cases hn : ty.pointers.toNat with
  | zero =>
    have hplain : ty.pointers = 0 := UInt8.toNat_inj.mp hn
    simp [isPointer, hplain, String.toList_inj]
  | succ n =>
    have hpointer : ty.pointers ≠ 0 := fun hzero => by simp [hzero] at hn
    refine iff_of_false (fun hname => h ?_) (by simp [isPointer, hpointer])
    rw [EndsInStar, ← hname, List.replicate_succ', ← List.append_assoc, List.getLast?_concat]

end TypeDesc

theorem TypeStep.tight_name (s : TypeStep) : Text.Tight s.name.toList := by
  cases s <;> exact String.toList_ofList ▸ Text.tight_trim _

/-- The spelling of a descriptor that a type step returned is split behind its name, if that does not
end in a star. -/
theorem SnapshotBuilder.Names.splitStars_spelling {b : SnapshotBuilder}
    {granted : List (TypeStep × TypeDesc)} (h : b.Names granted) {p : TypeStep × TypeDesc}
    (hp : p ∈ granted) (hstar : ¬EndsInStar p.1.name) (n : Nat) :
    (splitStars (p.2.pointerTimes n).spelling.toList).1 = p.1.name.toList := by
  rw [(h.returned p hp).2, TypeDesc.pointerTimes_plain, TypeDesc.toList_spelling,
    splitStars_append_stars p.1.tight_name]
  exact (not_endsInStar_iff p.1.tight_name).mp hstar

/-- A descriptor that a type step returned is found by its spelling, unless its name ends in a star:
then the spelling is taken for a pointer to a type of a shorter name. -/
theorem SnapshotBuilder.Records.lookupType_spelling_iff {b : SnapshotBuilder}
    {granted : List (TypeStep × TypeDesc)} (h : b.Records granted) {p : TypeStep × TypeDesc}
    (hp : p ∈ granted) (n : Nat) :
    b.snapshot.lookupType (p.2.pointerTimes n).spelling = some (p.2.pointerTimes n) ↔
      ¬EndsInStar p.1.name := by
  obtain ⟨hlookup,hplain⟩ := h.returned p hp
  have htight := p.1.tight_name
  rw [not_endsInStar_iff htight, h.lookupType_eq, hplain, TypeDesc.pointerTimes_plain,
    TypeDesc.toList_spelling, splitStars_append_stars htight]
  dsimp only
  constructor
  -- whatever is found has the base that was looked up for its name
  · intro hfound
    obtain ⟨id,_,hid⟩ := Option.map_eq_some_iff.mp hfound
    rw [TypeDesc.pointerTimes_plain] at hid
    have hbase := congrArg (·.base.toList) hid
    rwa [String.toList_ofList] at hbase
  · intro hbase
    have hcap : min (UInt8.ofNat (min n 255)).toNat 255 = (UInt8.ofNat (min n 255)).toNat :=
      Nat.min_eq_left (Nat.le_of_lt_succ (UInt8.toNat_lt_size _))
    rw [hbase, Text.takeWhile_reverse_eq_nil hbase, List.count_nil, Nat.add_zero,
      String.ofList_toList, hlookup, Option.map_some, TypeDesc.pointerTimes_plain, hcap,
      UInt8.ofNat_toNat]

namespace Construction

/-- As long as there are enough ids, a descriptor that a type step returned is found by its spelling, at
any pointer depth, exactly if its name does not end in a star. Two types with such names share no
spelling, at any depths. -/
theorem lookupType_spelling (steps : List BuilderStep) :
    ((ofSteps steps).builder.snapshot.IdsSuffice → ∀ p ∈ (ofSteps steps).granted, ∀ depth : Nat,
      (ofSteps steps).builder.snapshot.lookupType (p.2.pointerTimes depth).spelling =
        some (p.2.pointerTimes depth) ↔ ¬EndsInStar p.1.name) ∧
    ∀ p ∈ (ofSteps steps).granted, ∀ q ∈ (ofSteps steps).granted, p.2.id ≠ q.2.id →
      ¬EndsInStar p.1.name → ¬EndsInStar q.1.name → ∀ depth depth' : Nat,
        (p.2.pointerTimes depth).spelling ≠ (q.2.pointerTimes depth').spelling := by
  refine ⟨fun hids p hp depth => (records_ofSteps hids).lookupType_spelling_iff hp depth,?_⟩
  intro p hp q hq hid hpstar hqstar depth depth' hspelling
  have h := names_ofSteps steps
  have hname : p.1.name.toList = q.1.name.toList := by
    rw [← h.splitStars_spelling hp hpstar depth, hspelling, h.splitStars_spelling hq hqstar]
  have hlookup := (h.returned p hp).1
  rw [String.toList_inj.mp hname, (h.returned q hq).1] at hlookup
  exact hid (Option.some.inj hlookup).symm

/-- A type that is still reserved, and two whose names differ by a star in front. -/
def pointedSteps : List BuilderStep :=
  [.type (.declare " Node "),.type (.primitive "*int" .i32),.type (.primitive "int" .i32)]

theorem lookupType_spelling_pointed :
    (ofSteps pointedSteps).builder.snapshot.lookupType "Node**" = some ⟨0,2,"Node"⟩ ∧
      (∀ depth, (ofSteps pointedSteps).builder.snapshot.lookupType
        ((TypeDesc.plain 1 "*int").pointerTimes depth).spelling =
          some ((TypeDesc.plain 1 "*int").pointerTimes depth)) ∧
      ∀ depth depth', ((TypeDesc.plain 1 "*int").pointerTimes depth).spelling ≠
        ((TypeDesc.plain 2 "int").pointerTimes depth').spelling := by
  obtain ⟨hall,hapart⟩ := lookupType_spelling pointedSteps
  have hfound := hall (by decide +kernel)
  have hgranted : (ofSteps pointedSteps).granted =
      [(.declare " Node ",.plain 0 "Node"),(.primitive "*int" .i32,.plain 1 "*int"),
        (.primitive "int" .i32,.plain 2 "int")] := by rfl
  rw [hgranted] at hfound hapart
  exact ⟨(hfound (.declare " Node ",.plain 0 "Node") (by simp) 2).mpr (by decide +kernel),
    fun depth => (hfound (.primitive "*int" .i32,.plain 1 "*int") (by simp) depth).mpr
      (by decide +kernel),
    fun depth depth' => hapart (.primitive "*int" .i32,.plain 1 "*int") (by simp)
      (.primitive "int" .i32,.plain 2 "int") (by simp) (by decide) (by decide +kernel)
      (by decide +kernel) depth depth'⟩

/-- A type whose name ends in a star, and one whose name is the same without it. -/
def starredSteps : List BuilderStep :=
  [.type (.define "int*" (.blob 4)),.type (.primitive "int" .i32)]

/-- The first type is not found by its spelling. Once both are registered, a pointer to the second one
is found instead, as it has the same spelling. -/
theorem starred_name_not_found :
    (ofSteps starredSteps).granted.map (·.2) = [.plain 0 "int*",.plain 1 "int"] ∧
      (TypeDesc.plain 0 "int*").spelling = "int*" ∧
      (TypeDesc.plain 1 "int").pointer.spelling = "int*" ∧
      (ofSteps (starredSteps.take 1)).builder.snapshot.lookupType "int*" = none ∧
      (ofSteps starredSteps).builder.snapshot.lookupType "int*" =
        some (TypeDesc.plain 1 "int").pointer := by
  decide +kernel

end Construction
end ValueInspector
