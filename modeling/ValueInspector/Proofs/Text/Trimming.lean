import Mathlib.Data.List.DropRight
import ValueInspector.Text.Blank

/-! # Texts without blanks at the ends

What is removed at one end of a list does not depend on what is removed at the other. A text keeps its
ends when it is trimmed exactly if no blank stands there, and around a trimmed text there were blanks.
-/
namespace ValueInspector.Text

section Sides
variable {α : Type} {p : α → Bool} {l : List α}

theorem dropEndWhile_eq_self_iff : dropEndWhile p l = l ↔ ∀ c ∈ l.getLast?, p c = false := by
  change l.rdropWhile p = l ↔ _
  rw [List.rdropWhile_eq_self_iff]
  rcases l.eq_nil_or_concat with rfl | ⟨init,c,rfl⟩ <;> simp

theorem dropWhile_eq_self (h : ∀ c ∈ l.head?, p c = false) : l.dropWhile p = l := by
  cases l with
  | nil => rfl
  | cons c rest => rw [List.dropWhile_cons_of_neg (by simp [h c rfl])]

theorem stripWhile_eq_self (hhead : ∀ c ∈ l.head?, p c = false)
    (hlast : ∀ c ∈ l.getLast?, p c = false) : stripWhile p l = l := by
  rw [stripWhile, dropWhile_eq_self hhead]
  exact dropEndWhile_eq_self_iff.mpr hlast

theorem dropEndWhile_append_of_pos {run : List α} (h : ∀ c ∈ run, p c = true) :
    dropEndWhile p (l ++ run) = dropEndWhile p l := by
  rw [dropEndWhile, List.reverse_append, List.dropWhile_append_of_pos, dropEndWhile]
  exact fun c hc => h c (List.mem_reverse.mp hc)

theorem takeWhile_reverse_eq_nil (h : dropEndWhile p l = l) : l.reverse.takeWhile p = [] := by
  have hrun := @List.takeWhile_append_dropWhile _ p l.reverse
  rwa [List.reverse_eq_iff.mp h, List.append_left_eq_self] at hrun

theorem dropEndWhile_append_run (p : α → Bool) (l : List α) :
    dropEndWhile p l ++ (l.reverse.takeWhile p).reverse = l := by
  rw [dropEndWhile, ← List.reverse_append, List.takeWhile_append_dropWhile, List.reverse_reverse]

theorem dropEndWhile_cons (c : α) :
    dropEndWhile p (c :: l) =
      if dropEndWhile p l = [] then if p c then [] else [c] else c :: dropEndWhile p l := by
  rw [dropEndWhile, List.reverse_cons, List.dropWhile_append, dropEndWhile]
  cases hrest : l.reverse.dropWhile p with
  | nil => by_cases hc : p c <;> simp [hc]
  | cons d rest => simp

/-- What is removed at one end does not depend on what is removed at the other. -/
theorem dropWhile_dropEndWhile (q : α → Bool) :
    (dropEndWhile q l).dropWhile p = dropEndWhile q (l.dropWhile p) := by
  induction l with
  | nil => rfl
  | cons c rest ih =>
    rw [dropEndWhile_cons]
    by_cases hc : p c = true
    · rw [List.dropWhile_cons_of_pos hc, ← ih]
      split
      next hrest =>
        rw [hrest]
        split <;> simp [hc]
      · rw [List.dropWhile_cons_of_pos hc]
    · rw [List.dropWhile_cons_of_neg hc, dropEndWhile_cons]
      split_ifs <;> simp [hc]

theorem stripWhile_sublist : (stripWhile p l).Sublist l :=
  (List.rdropWhile_prefix p _).sublist.trans (List.dropWhile_sublist p)

theorem stripWhile_eq_self_iff :
    stripWhile p l = l ↔ (∀ c ∈ l.head?, p c = false) ∧ ∀ c ∈ l.getLast?, p c = false := by
  refine ⟨fun h => ?_,fun h => stripWhile_eq_self h.1 h.2⟩
  have hstart : l.dropWhile p = l := by
    refine (List.dropWhile_sublist p).antisymm ?_
    nth_rewrite 1 [← h]
    exact (List.rdropWhile_prefix p _).sublist
  rw [stripWhile, hstart, dropEndWhile_eq_self_iff] at h
  refine ⟨fun c hc => ?_,h⟩
  have hnot := List.head?_dropWhile_not p l
  rwa [hstart, hc] at hnot

end Sides

/-- No blank stands at either end. -/
structure Tight (cs : List Char) : Prop where
  head : ∀ c ∈ cs.head?, isBlank c = false
  last : ∀ c ∈ cs.getLast?, isBlank c = false

theorem tight_trim (cs : List Char) : Tight (trim cs) where
  head c hc := by
    have hprefix : trim cs <+: cs.dropWhile isBlank := List.rdropWhile_prefix _ _
    have hdrop : (cs.dropWhile isBlank).head? = some c := by
      obtain ⟨rest,hrest⟩ := hprefix
      rw [← hrest, List.head?_append, hc, Option.some_or]
    have hnot := List.head?_dropWhile_not isBlank cs
    rwa [hdrop] at hnot
  last := dropEndWhile_eq_self_iff.mp (List.rdropWhile_idempotent _ _)

theorem Tight.trim_eq {cs : List Char} (h : Tight cs) : trim cs = cs :=
  stripWhile_eq_self h.head h.last

def Blanks (cs : List Char) : Prop := ∀ c ∈ cs, isBlank c = true

theorem exists_blanks_around_trim (cs : List Char) :
    ∃ front back, Blanks front ∧ Blanks back ∧ cs = front ++ trim cs ++ back := by
  refine ⟨cs.takeWhile isBlank,((cs.dropWhile isBlank).reverse.takeWhile isBlank).reverse,?_,?_,?_⟩
  · exact fun c hc => List.mem_takeWhile_imp hc
  · exact fun c hc => List.mem_takeWhile_imp (List.mem_reverse.mp hc)
  · rw [trim, stripWhile, List.append_assoc, dropEndWhile_append_run,
      List.takeWhile_append_dropWhile]

theorem trim_eq_nil_iff {cs : List Char} : trim cs = [] ↔ Blanks cs := by
  constructor
  · intro htrim
    obtain ⟨front,back,hfront,hback,hcs⟩ := exists_blanks_around_trim cs
    rw [hcs, htrim, List.append_nil]
    exact fun c hc => (List.mem_append.mp hc).elim (hfront c) (hback c)
  · intro hblanks
    have hdrop : cs.dropWhile isBlank = [] := List.dropWhile_eq_nil_iff.mpr hblanks
    rw [trim, stripWhile, hdrop]
    rfl

theorem trimmed_ofList_trim (cs : List Char) :
    trimmed (.ofList (trim cs)) = .ofList (trim cs) := by
  rw [trimmed, String.toList_ofList, (tight_trim cs).trim_eq]

theorem Tight.of_isPrefix {cs base : List Char} (h : Tight cs) (hbase : base <+: cs)
    (hlast : ∀ c ∈ base.getLast?, isBlank c = false) : Tight base where
  head c hc := by
    obtain ⟨rest,rfl⟩ := hbase
    refine h.head c ?_
    rw [List.head?_append, hc, Option.some_or]
    exact rfl
  last := hlast

end ValueInspector.Text
