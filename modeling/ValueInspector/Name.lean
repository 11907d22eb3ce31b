import ValueInspector.Text.Blank

/-! # Captured type names

Functions that reduce a type name as captured at run time to a spelling a table may hold: without
the quotes of a printed string, without the length prefix of an encoded name, and without leading
qualifiers.
-/
namespace ValueInspector.Name
open Text

/-- Removes blanks, then quotes, then blanks again at both ends. Each is done once. -/
def stripQuotesChars (name : List Char) : List Char := trim (stripWhile (· = '"') (trim name))

def stripQuotes (name : String) : String := String.ofList (stripQuotesChars name.toList)

/-- Removes a leading run of ASCII digits, if there is one and something follows it. -/
def stripLengthPrefix (name : String) : Option String :=
  let rest := name.toList.dropWhile Char.isDigit
  if rest.length = name.toList.length || rest.isEmpty then none else some (String.ofList rest)

/-- The text after a given start, if it starts so. -/
def afterStart? : List Char → List Char → Option (List Char)
  | [], cs => some cs
  | _ :: _, [] => none
  | w :: word, c :: cs => if w = c then afterStart? word cs else none

def qualifiers : List (List Char) := ["const ".toList, "volatile ".toList]

/-- The text after one leading qualifier and its space. -/
def afterQualifier? (name : List Char) : Option (List Char) :=
  qualifiers.findSome? (afterStart? · name)

theorem length_of_afterStart? {word cs rest : List Char} (h : afterStart? word cs = some rest) :
    cs.length = word.length + rest.length := by
  induction word generalizing cs with
  | nil => simp_all [afterStart?]
  | cons w word ih =>
    cases cs with
    | nil => simp [afterStart?] at h
    | cons c cs =>
      simp only [afterStart?] at h
      split at h
      · have := ih h
        simp only [List.length_cons]
        omega
      · cases h

theorem length_lt_of_afterQualifier? {name rest : List Char} (h : afterQualifier? name = some rest) :
    rest.length < name.length := by
  obtain ⟨word, hw, hr⟩ := List.exists_of_findSome?_eq_some h
  have hl := length_of_afterStart? hr
  have : 0 < word.length := by
    simp only [qualifiers, List.mem_cons, List.not_mem_nil, or_false] at hw
    rcases hw with hw | hw <;> subst hw <;> decide
  omega

/-- Removes qualifiers and the blanks after each, as long as the text starts with one. -/
def dropQualifiers (name : List Char) : List Char :=
  match _h : afterQualifier? name with
  | none => name
  | some rest => dropQualifiers (trimStart rest)
termination_by name.length
decreasing_by
  have h1 := length_lt_of_afterQualifier? _h
  have h2 : (trimStart rest).length ≤ rest.length := (List.dropWhile_sublist _).length_le
  omega

/-- The name a printer is registered under. -/
def normalize (name : String) : String := String.ofList (dropQualifiers (trim name.toList))

end ValueInspector.Name
