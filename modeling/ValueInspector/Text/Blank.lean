/-! # Blanks and trimming

A blank is a character with the Unicode property White_Space (25 code points, stable since
version 6.3). Trimming is done on lists of characters; the functions on strings wrap it.
-/
namespace ValueInspector.Text

/-- Closed ranges of code points, ascending and apart. -/
def blankRanges : List (Nat × Nat) :=
  [(0x09, 0x0D), (0x20, 0x20), (0x85, 0x85), (0xA0, 0xA0), (0x1680, 0x1680), (0x2000, 0x200A),
   (0x2028, 0x2029), (0x202F, 0x202F), (0x205F, 0x205F), (0x3000, 0x3000)]

def isBlank (c : Char) : Bool := blankRanges.any fun r => r.1 ≤ c.toNat && c.toNat ≤ r.2

/-- Every character core calls white space is blank. -/
theorem isBlank_of_isWhitespace (c : Char) (h : c.isWhitespace = true) : isBlank c = true := by
  simp only [Char.isWhitespace, Bool.or_eq_true, decide_eq_true_eq] at h
  rcases h with ((h | h) | h) | h <;> subst h <;> decide

section Sides
variable {α : Type} (p : α → Bool)

/-- Removes the longest run at the end whose elements satisfy the test. -/
def dropEndWhile (l : List α) : List α := (l.reverse.dropWhile p).reverse

/-- Removes such a run at both ends. -/
def stripWhile (l : List α) : List α := dropEndWhile p (l.dropWhile p)

end Sides

def trimEnd (cs : List Char) : List Char := dropEndWhile isBlank cs
def trimStart (cs : List Char) : List Char := cs.dropWhile isBlank
def trim (cs : List Char) : List Char := stripWhile isBlank cs

/-- The string without the blanks at both ends. -/
def trimmed (s : String) : String := String.ofList (trim s.toList)

end ValueInspector.Text
