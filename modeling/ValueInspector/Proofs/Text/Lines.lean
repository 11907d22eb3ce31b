/-! # Texts in lines

A text whose lines are each ended by a line feed can be taken apart at the line feeds, as long as no
line has one of its own.
-/
namespace ValueInspector.Text

/-- The text of some lines, each ended by a line feed. -/
def ofLines (ls : List (List Char)) : List Char := ls.flatMap (· ++ ['\n'])

/-- What stands before each line feed, up to the one before it. -/
def lines (text : String) : List (List Char) := (text.toList.splitOn '\n').dropLast

theorem ofLines_cons (l : List Char) (ls : List (List Char)) :
    ofLines (l :: ls) = l ++ '\n' :: ofLines ls := by
  rw [ofLines, List.flatMap_cons, List.append_assoc, List.singleton_append, ofLines]

theorem ofLines_append (ls ls' : List (List Char)) :
    ofLines (ls ++ ls') = ofLines ls ++ ofLines ls' := List.flatMap_append

theorem splitOn_ofLines {ls : List (List Char)} (h : ∀ l ∈ ls, '\n' ∉ l) :
    (ofLines ls).splitOn '\n' = ls ++ [[]] := by
  induction ls with
  | nil => exact List.splitOn_nil _
  | cons l ls ih =>
    obtain ⟨hl,hls⟩ := List.forall_mem_cons.mp h
    rw [ofLines_cons, List.splitOn_append_cons_self_of_not_mem hl, ih hls, List.cons_append]

theorem lines_ofLines {ls : List (List Char)} (h : ∀ l ∈ ls, '\n' ∉ l) :
    lines (.ofList (ofLines ls)) = ls := by
  rw [lines, String.toList_ofList, splitOn_ofLines h, List.dropLast_concat]

end ValueInspector.Text
