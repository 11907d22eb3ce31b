import ValueInspector.Proofs.Snapshot.Spelling

/-! # The grammar of spellings

A spelling is a base and some stars, with blanks at both ends and before each star. Every text
spells exactly one base that has no blank at either end and no star at its end, and that is how a
lookup splits it. So a type whose name does not end in a star is found under the spellings of its
name, and no other type is found.
-/
namespace ValueInspector
open Text

theorem Text.Blanks.count_star {cs : List Char} (h : Blanks cs) : cs.count '*' = 0 :=
  List.count_eq_zero.mpr fun hstar => absurd (h '*' hstar) (by decide)

theorem isSuffixChar_of_isBlank {c : Char} (h : isBlank c = true) : isSuffixChar c = true := by
  rw [isSuffixChar, h, Bool.or_true]

/-- The stars of some pointer levels, with blanks before each. -/
inductive Levels : Nat → List Char → Prop
  | none : Levels 0 []
  | star {k : Nat} {gap rest : List Char} (hgap : Blanks gap) (hrest : Levels k rest) :
    Levels (k + 1) (gap ++ '*' :: rest)

namespace Levels
variable {k : Nat} {suffix : List Char}

theorem count_star (h : Levels k suffix) : suffix.count '*' = k := by
  induction h with
  | none => rfl
  | star hgap _ ih =>
    rw [List.count_append, hgap.count_star, List.count_cons_self, ih, Nat.zero_add]

theorem isSuffixChar_of_mem (h : Levels k suffix) : ∀ c ∈ suffix, isSuffixChar c = true := by
  induction h with
  | none => exact List.forall_mem_nil _
  | star hgap _ ih =>
    refine List.forall_mem_append.mpr ⟨fun c hc => ?_,List.forall_mem_cons.mpr ⟨by decide,ih⟩⟩
    exact isSuffixChar_of_isBlank (hgap c hc)

/-- A blank in front belongs to the first star, if there is one. -/
theorem exists_cons_blank (h : Levels k suffix) {c : Char} (hc : isBlank c = true)
    {back : List Char} (hback : Blanks back) :
    ∃ suffix' back', c :: (suffix ++ back) = suffix' ++ back' ∧ Levels k suffix' ∧
      Blanks back' := by
  cases h with
  | none => exact ⟨[],c :: back,rfl,.none,List.forall_mem_cons.mpr ⟨hc,hback⟩⟩
  | star hgap hrest => exact ⟨_,back,rfl,.star (List.forall_mem_cons.mpr ⟨hc,hgap⟩) hrest,hback⟩

/-- Stars and blanks in any order are pointer levels, and blanks behind them. -/
theorem exists_of_run {run : List Char} (h : ∀ c ∈ run, isSuffixChar c = true) :
    ∃ suffix back, run = suffix ++ back ∧ Levels (run.count '*') suffix ∧ Blanks back := by
  induction run with
  | nil => exact ⟨[],[],rfl,.none,List.forall_mem_nil _⟩
  | cons c rest ih =>
    obtain ⟨hc,hrest⟩ := List.forall_mem_cons.mp h
    obtain ⟨suffix,back,hsplit,hlevels,hback⟩ := ih hrest
    by_cases hstar : c = '*'
    · subst hstar
      rw [List.count_cons_self]
      exact ⟨'*' :: suffix,back,congrArg _ hsplit,.star (List.forall_mem_nil _) hlevels,hback⟩
    · have hblank : isBlank c = true := by simpa [isSuffixChar, hstar] using hc
      rw [List.count_cons_of_ne hstar]
      nth_rewrite 1 [hsplit]
      exact hlevels.exists_cons_blank hblank hback

end Levels

/-- Nothing can be split off: no blank stands at either end, and no star at the end. -/
structure Bare (base : List Char) : Prop extends Tight base where
  unstarred : base.getLast? ≠ some '*'

/-- The text is the base with some pointer levels, and blanks around. -/
def Spells (text base : List Char) (k : Nat) : Prop :=
  ∃ front suffix back, text = front ++ base ++ suffix ++ back ∧ Blanks front ∧ Levels k suffix ∧
    Blanks back

namespace Spells
variable {text base base' : List Char} {k k' : Nat}

theorem count_star (h : Spells text base k) : text.count '*' = base.count '*' + k := by
  obtain ⟨front,suffix,back,rfl,hfront,hsuffix,hback⟩ := h
  rw [List.count_append, List.count_append, List.count_append, hfront.count_star,
    hsuffix.count_star, hback.count_star, Nat.zero_add, Nat.add_zero]

theorem base_eq (h : Spells text base k) (hbare : Bare base) :
    (dropEndWhile isSuffixChar text).dropWhile isBlank = base := by
  obtain ⟨front,suffix,back,rfl,hfront,hsuffix,hback⟩ := h
  have hfrontRun : ∀ c ∈ front, isSuffixChar c = true :=
    fun c hc => isSuffixChar_of_isBlank (hfront c hc)
  have hrun : ∀ c ∈ suffix ++ back, isSuffixChar c = true :=
    List.forall_mem_append.mpr
      ⟨hsuffix.isSuffixChar_of_mem,fun c hc => isSuffixChar_of_isBlank (hback c hc)⟩
  rw [List.append_assoc, dropEndWhile_append_of_pos hrun]
  cases base with
  | nil =>
    rw [List.append_nil, ← List.nil_append front, dropEndWhile_append_of_pos hfrontRun]
    rfl
  | cons c rest =>
    have hkept : dropEndWhile isSuffixChar (front ++ c :: rest) = front ++ c :: rest := by
      have hlast := hbare.last_ne_star_iff.mp hbare.unstarred
      rw [List.getLast?_cons] at hlast
      rwa [dropEndWhile_eq_self_iff, List.getLast?_append, List.getLast?_cons, Option.some_or]
    rw [hkept, List.dropWhile_append_of_pos hfront,
      List.dropWhile_cons_of_neg (by simp [hbare.head c rfl])]

/-- A text spells one base that nothing can be split off from, with one number of levels. -/
theorem unique (h : Spells text base k) (h' : Spells text base' k') (hbare : Bare base)
    (hbare' : Bare base') : base = base' ∧ k = k' := by
  have hbase : base = base' := (h.base_eq hbare).symm.trans (h'.base_eq hbare')
  subst hbase
  exact ⟨rfl,Nat.add_left_cancel (h.count_star.symm.trans h'.count_star)⟩

end Spells

section Split
variable (text : List Char)

theorem bare_splitStars : Bare (splitStars text).1 := by
  have hlast : ∀ c ∈ (splitStars text).1.getLast?, isSuffixChar c = false :=
    dropEndWhile_eq_self_iff.mp (List.rdropWhile_idempotent _ _)
  have htight : Tight (splitStars text).1 := by
    refine (tight_trim text).of_isPrefix (List.rdropWhile_prefix _ _) fun c hc => ?_
    exact (Bool.or_eq_false_iff.mp (hlast c hc)).2
  exact ⟨htight,htight.last_ne_star_iff.mpr hlast⟩

theorem spells_splitStars : Spells text (splitStars text).1 (splitStars text).2 := by
  obtain ⟨front,back,hfront,hback,htext⟩ := exists_blanks_around_trim text
  have hrun : ∀ c ∈ ((trim text).reverse.takeWhile isSuffixChar).reverse, isSuffixChar c = true :=
    fun c hc => List.mem_takeWhile_imp (List.mem_reverse.mp hc)
  obtain ⟨suffix,gap,hsplit,hlevels,hgap⟩ := Levels.exists_of_run hrun
  rw [List.count_reverse] at hlevels
  refine ⟨front,suffix,gap ++ back,?_,hfront,hlevels,List.forall_mem_append.mpr ⟨hgap,hback⟩⟩
  calc text
      = front ++ trim text ++ back := htext
    _ = front ++ ((splitStars text).1 ++ (suffix ++ gap)) ++ back := by
        rw [← hsplit, splitStars, dropEndWhile_append_run]
    _ = front ++ (splitStars text).1 ++ suffix ++ (gap ++ back) := by simp only [List.append_assoc]

end Split

/-- A lookup splits a text in the one way in which it can be spelled. -/
theorem splitStars_eq_iff {text base : List Char} {k : Nat} :
    splitStars text = (base,k) ↔ Bare base ∧ Spells text base k := by
  constructor
  · intro h
    have hbare := bare_splitStars text
    have hspells := spells_splitStars text
    rw [h] at hbare hspells
    exact ⟨hbare,hspells⟩
  · rintro ⟨hbare,hspells⟩
    obtain ⟨hbase,hlevels⟩ := (spells_splitStars text).unique hspells (bare_splitStars text) hbare
    exact Prod.ext hbase hlevels

namespace SnapshotBuilder
variable {b : SnapshotBuilder} {granted : List (TypeStep × TypeDesc)} {spelling : String}
  {ty : TypeDesc}

/-- What a text is split into is a registered name if it spells one. -/
theorem Names.splitStars_of_spells {p : TypeStep × TypeDesc} {k : Nat} (h : b.Names granted)
    (hp : p ∈ granted) (hstar : ¬EndsInStar p.1.name)
    (hspells : Spells spelling.toList p.1.name.toList k) :
    splitStars spelling.toList = (p.1.name.toList,k) ∧
      b.snapshot.byName.lookup (String.ofList p.1.name.toList) = some p.2.id := by
  rw [String.ofList_toList]
  exact ⟨splitStars_eq_iff.mpr ⟨⟨p.1.tight_name,hstar⟩,hspells⟩,(h.returned p hp).1⟩

/-- A text whose base is in the index spells a registered name. -/
theorem Names.exists_spells (h : b.Names granted) {id : UInt32}
    (hid : b.snapshot.byName.lookup (String.ofList (splitStars spelling.toList).1) = some id) :
    ∃ p ∈ granted, p.1.name = String.ofList (splitStars spelling.toList).1 ∧ p.2.id = id ∧
      ¬EndsInStar p.1.name ∧
      Spells spelling.toList p.1.name.toList (splitStars spelling.toList).2 := by
  obtain ⟨p,hp,hname⟩ := mem_namesOf.mp (h.mem_of_lookup hid).1
  have hbase : p.1.name.toList = (splitStars spelling.toList).1 := by
    rw [hname, String.toList_ofList]
  rw [← hname, (h.returned p hp).1] at hid
  refine ⟨p,hp,hname,Option.some.inj hid,?_,?_⟩
  · rw [EndsInStar, hbase]
    exact (bare_splitStars _).unstarred
  · rw [hbase]
    exact spells_splitStars _

/-- Under a spelling of a name that does not end in a star there is a type with the id of the name, at
the depth that the stars say, and nothing is found under other texts. -/
theorem Names.exists_lookupType_iff (h : b.Names granted) {id : UInt32} {depth : UInt8} :
    (∃ base, b.snapshot.lookupType spelling = some ⟨id,depth,base⟩) ↔
      ∃ p ∈ granted, ∃ k, ¬EndsInStar p.1.name ∧ Spells spelling.toList p.1.name.toList k ∧
        id = p.2.id ∧ depth = .ofNat (min k 255) := by
  simp only [Snapshot.lookupType_eq_some_iff, TypeDesc.pointerTimes_plain, TypeDesc.mk.injEq]
  constructor
  · rintro ⟨base,id,entry,hid,-,rfl,rfl,-⟩
    obtain ⟨p,hp,-,rfl,hstar,hspells⟩ := h.exists_spells hid
    exact ⟨p,hp,_,hstar,hspells,rfl,rfl⟩
  · rintro ⟨p,hp,k,hstar,hspells,rfl,rfl⟩
    obtain ⟨hsplit,hid⟩ := h.splitStars_of_spells hp hstar hspells
    rw [hsplit]
    exact ⟨_,p.2.id,_,hid,Array.getElem?_eq_getElem (h.toNat_lt hid),rfl,rfl,rfl⟩

/-- A type is found under a spelling of its name, at the depth that the stars say, unless its name
ends in a star. -/
theorem Records.lookupType_eq_some_iff (h : b.Records granted) :
    b.snapshot.lookupType spelling = some ty ↔
      ∃ p ∈ granted, ∃ k, ¬EndsInStar p.1.name ∧ Spells spelling.toList p.1.name.toList k ∧
        ty = ⟨p.2.id,.ofNat (min k 255),p.1.name⟩ := by
  rw [h.lookupType_eq]
  dsimp only
  rw [Option.map_eq_some_iff]
  constructor
  · rintro ⟨id,hlookup,rfl⟩
    obtain ⟨p,hp,hname,rfl,hstar,hspells⟩ := h.exists_spells hlookup
    refine ⟨p,hp,(splitStars spelling.toList).2,hstar,hspells,?_⟩
    rw [← hname]
    exact TypeDesc.pointerTimes_plain _ _ _
  · rintro ⟨p,hp,k,hstar,hspells,rfl⟩
    obtain ⟨hsplit,hid⟩ := h.splitStars_of_spells hp hstar hspells
    rw [hsplit]
    refine ⟨p.2.id,hid,?_⟩
    rw [String.ofList_toList]
    exact TypeDesc.pointerTimes_plain _ _ _

end SnapshotBuilder

namespace Construction

/-- A lookup takes a text exactly if it is a registered name that does not end in a star, with a
star for each pointer level, and blanks at both ends and before the stars. It gives the id of the name,
at that depth or at the greatest one, and with the name as its base, as long as there are enough ids. The
text says which name and how many stars. -/
theorem lookupType_iff_spells (steps : List BuilderStep) (spelling : String) :
    let c := ofSteps steps
    (∀ id depth, (∃ base, c.builder.snapshot.lookupType spelling = some ⟨id,depth,base⟩) ↔
      ∃ p ∈ c.granted, ∃ k, ¬EndsInStar p.1.name ∧ Spells spelling.toList p.1.name.toList k ∧
        id = p.2.id ∧ depth = .ofNat (min k 255)) ∧
    (∀ p ∈ c.granted, ∀ q ∈ c.granted, ¬EndsInStar p.1.name → ¬EndsInStar q.1.name →
      ∀ k k', Spells spelling.toList p.1.name.toList k → Spells spelling.toList q.1.name.toList k' →
        p.1.name = q.1.name ∧ k = k') ∧
    (c.builder.snapshot.IdsSuffice → ∀ ty, c.builder.snapshot.lookupType spelling = some ty ↔
      ∃ p ∈ c.granted, ∃ k, ¬EndsInStar p.1.name ∧ Spells spelling.toList p.1.name.toList k ∧
        ty = ⟨p.2.id,.ofNat (min k 255),p.1.name⟩) := by
  intro c
  refine ⟨fun _ _ => (names_ofSteps steps).exists_lookupType_iff,?_,
    fun hids ty => (records_ofSteps hids).lookupType_eq_some_iff⟩
  intro p _ q _ hpstar hqstar k k' hp hq
  obtain ⟨hname,hlevels⟩ := hp.unique hq ⟨p.1.tight_name,hpstar⟩ ⟨q.1.tight_name,hqstar⟩
  exact ⟨String.toList_inj.mp hname,hlevels⟩

/-- A name with a blank and a star inside, and one without any character. -/
def spelledSteps : List BuilderStep :=
  [.type (.define " a *b\t" (.blob 4)),.type (.declare "  ")]

/-- The name without any character is found under stars and blanks alone. -/
theorem lookupType_iff_spells_inner :
    (ofSteps spelledSteps).builder.snapshot.lookupType " a *b * *\u00A0" =
        some ⟨0,2,"a *b"⟩ ∧
      (ofSteps spelledSteps).builder.snapshot.lookupType " * " = some ⟨1,1,""⟩ := by
  have hgap : Blanks [' '] := List.forall_mem_singleton.mpr (by decide)
  have hback : Blanks ['\u00A0'] := List.forall_mem_singleton.mpr (by decide)
  have hfirst : (.define " a *b\t" (.blob 4),.plain 0 "a *b") ∈ (ofSteps spelledSteps).granted := by
    decide +kernel
  have hsecond : (.declare "  ",.plain 1 "") ∈ (ofSteps spelledSteps).granted := by
    decide +kernel
  have hinner :
      Spells " a *b * *\u00A0".toList (TypeStep.define " a *b\t" (.blob 4)).name.toList 2 :=
    ⟨[' '],[' ','*',' ','*'],['\u00A0'],by decide +kernel,hgap,.star hgap (.star hgap .none),hback⟩
  have hempty : Spells " * ".toList (TypeStep.declare "  ").name.toList 1 :=
    ⟨[' '],['*'],[' '],by decide +kernel,hgap,.star (List.forall_mem_nil _) .none,hgap⟩
  have hids : (ofSteps spelledSteps).builder.snapshot.IdsSuffice := by decide +kernel
  exact ⟨((lookupType_iff_spells spelledSteps _).2.2 hids _).mpr
      ⟨_,hfirst,2,by decide +kernel,hinner,by decide +kernel⟩,
    ((lookupType_iff_spells spelledSteps _).2.2 hids _).mpr
      ⟨_,hsecond,1,by decide +kernel,hempty,by decide +kernel⟩⟩

end Construction
end ValueInspector
