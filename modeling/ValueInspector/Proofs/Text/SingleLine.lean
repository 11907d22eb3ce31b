import Mathlib.Data.List.Basic
import ValueInspector.Decimal.Shortest
import ValueInspector.Error
import ValueInspector.Proofs.Text.Hexadecimal

/-! # Texts on one line

A text is on one line if it has no line feed. Numerals are, and so are the messages of all failures
about names that are.
-/
namespace ValueInspector

/-- A text without a line feed. -/
def SingleLine (text : String) : Prop := '\n' ∉ text.toList

instance (text : String) : Decidable (SingleLine text) :=
  inferInstanceAs (Decidable ('\n' ∉ text.toList))

section Texts
variable {a b : String} {cs : List Char}

@[simp] theorem singleLine_append : SingleLine (a ++ b) ↔ SingleLine a ∧ SingleLine b := by
  rw [SingleLine, String.toList_append, List.mem_append, not_or]
  exact Iff.rfl

@[simp] theorem singleLine_ofList : SingleLine (String.ofList cs) ↔ '\n' ∉ cs := by
  rw [SingleLine, String.toList_ofList]

theorem lineFeed_not_mem_toDigits (n : Nat) : '\n' ∉ Nat.toDigits 10 n := by
  intro h
  have hdigit := Nat.isDigit_of_mem_toDigits (by decide) (by decide) h
  exact absurd hdigit (by decide)

theorem singleLine_toString_nat (n : Nat) : SingleLine (toString n) := by
  rw [Nat.toString_eq_ofList_toDigits, singleLine_ofList]
  exact lineFeed_not_mem_toDigits n

theorem singleLine_toString_int (n : Int) : SingleLine (toString n) := by
  cases n with
  | ofNat n => exact singleLine_toString_nat n
  | negSucc n => exact singleLine_append.mpr ⟨by decide,singleLine_toString_nat (n + 1)⟩

theorem hexDigit_ne_lineFeed : ∀ n < 16, Text.hexDigit n ≠ '\n' := by decide

theorem singleLine_hexWord (w : UInt64) : SingleLine (Text.hexWord w) := by
  refine singleLine_append.mpr ⟨by decide,singleLine_ofList.mpr fun hmem => ?_⟩
  obtain ⟨d,hd,hfeed⟩ := Text.mem_hexDigits hmem
  exact hexDigit_ne_lineFeed d hd hfeed.symm

namespace Decimal

/-- The layout of a numeral has only digits and a point. -/
theorem lineFeed_not_mem_layout (d : Numeral) : '\n' ∉ d.layout := by
  have hzeros : ∀ n, '\n' ∉ List.replicate n '0' := fun n h =>
    absurd (List.eq_of_mem_replicate h) (by decide)
  have hpadded : ∀ n, '\n' ∉ List.replicate n '0' ++ Nat.toDigits 10 d.digits := fun n h =>
    (List.mem_append.mp h).elim (hzeros n) (lineFeed_not_mem_toDigits d.digits)
  unfold Numeral.layout
  dsimp only
  split
  · intro h
    exact (List.mem_append.mp h).elim (lineFeed_not_mem_toDigits d.digits) (hzeros _)
  · split
    · exact fun h => hpadded _ (List.mem_of_mem_take h)
    · intro h
      rcases List.mem_append.mp h with h | h
      · exact hpadded _ (List.mem_of_mem_take h)
      · rcases List.mem_cons.mp h with h | h
        · exact absurd h (by decide)
        · have hmem := (List.dropWhile_sublist _).subset (List.mem_reverse.mp h)
          exact hpadded _ (List.mem_of_mem_drop (List.mem_reverse.mp hmem))

theorem singleLine_textOfBits (bits : UInt64) : SingleLine (textOfBits bits) := by
  unfold textOfBits
  dsimp only
  split
  · decide
  · rw [singleLine_ofList]
    have hlayout := lineFeed_not_mem_layout (Binary.ofBits bits).shortest
    split_ifs <;> simp [hlayout]

end Decimal
end Texts

theorem ExitStatus.singleLine_text (status : ExitStatus) : SingleLine status.text := by
  have hname : ∀ n, ∀ name ∈ signalName? n, SingleLine name := by
    intro n name hname
    unfold signalName? at hname
    split at hname <;> cases hname <;> decide
  cases status with
  | code n => exact singleLine_append.mpr ⟨by decide,singleLine_toString_nat n⟩
  | signal n =>
    have hsignal : SingleLine ("signal: " ++ toString n) :=
      singleLine_append.mpr ⟨by decide,singleLine_toString_nat n⟩
    rw [text]
    cases h : signalName? n with
    | none => exact hsignal
    | some name =>
      simp only [singleLine_append] at hsignal ⊢
      exact ⟨⟨⟨hsignal,by decide⟩,hname n name h⟩,by decide⟩

namespace InspectError

/-- The names that a message quotes. -/
def quoted : InspectError → List String
  | .missingImplementation name | .duplicateType name | .demanglerSpawn name => [name]
  | .unknownTypeId _ spelling => [spelling]
  | .missingField type field => [field,type]
  | .notAStruct type | .nullDereference type | .notAPointer type | .incompleteType type
  | .notAnInteger type => [type]
  | .unmapped .. | .regionOverlap .. | .demanglerExit _ | .demanglerTimeout _ | .demanglerOutput
  | .options _ => []

/-- A message is on one line exactly if the names it quotes are. -/
theorem singleLine_message_iff (e : InspectError) :
    SingleLine e.message ↔ ∀ name ∈ e.quoted, SingleLine name := by
  have hword : ∀ w, '\n' ∉ (Text.hexWord w).toList := singleLine_hexWord
  have hstatus : ∀ s : ExitStatus, '\n' ∉ s.text.toList := ExitStatus.singleLine_text
  -- the wording of a message is uncovered by computation, as its equations are slow to derive
  cases e with
  | missingImplementation name =>
    change SingleLine ("implementation type not found: " ++ name) ↔ _
    simp [quoted, SingleLine]
  | unknownTypeId id spelling =>
    have hid : '\n' ∉ (toString id.toNat).toList := singleLine_toString_nat id.toNat
    change SingleLine ("unknown type id " ++ toString id.toNat ++ " (" ++ spelling ++ ")") ↔ _
    generalize toString id.toNat = digits at hid ⊢
    simp [quoted, SingleLine, hid]
  | missingField type field =>
    change SingleLine ("missing field " ++ field ++ " on " ++ type) ↔ _
    simp [quoted, SingleLine]
  | notAStruct type =>
    change SingleLine (type ++ " has no fields") ↔ _
    simp [quoted, SingleLine]
  | unmapped address length =>
    change SingleLine ("unmapped read at " ++ Text.hexWord address ++ ", need " ++ toString length ++ " bytes") ↔ _
    simp [quoted, SingleLine, lineFeed_not_mem_toDigits, hword]
  | nullDereference type =>
    change SingleLine ("null dereference of " ++ type) ↔ _
    simp [quoted, SingleLine]
  | notAPointer type =>
    change SingleLine (type ++ " is not a pointer") ↔ _
    simp [quoted, SingleLine]
  | incompleteType type =>
    change SingleLine ("cannot dereference " ++ type ++ ": pointee type is incomplete") ↔ _
    simp [quoted, SingleLine]
  | notAnInteger type =>
    change SingleLine (type ++ " is not an integer") ↔ _
    simp [quoted, SingleLine]
  | duplicateType name =>
    change SingleLine ("duplicate type name " ++ name) ↔ _
    simp [quoted, SingleLine]
  | regionOverlap start length =>
    change SingleLine ("region at " ++ Text.hexWord start ++ " (len " ++ toString length ++
      ") overlaps an existing region") ↔ _
    simp [quoted, SingleLine, lineFeed_not_mem_toDigits, hword]
  | demanglerSpawn reason =>
    change SingleLine ("demangler spawn failed: " ++ reason) ↔ _
    simp [quoted, SingleLine]
  | demanglerExit status =>
    change SingleLine ("demangler exited with " ++ status.text) ↔ _
    simp [quoted, SingleLine, hstatus]
  | demanglerTimeout milliseconds =>
    change SingleLine ("demangler timed out after " ++ toString milliseconds.toNat ++ " ms") ↔ _
    simp [quoted, SingleLine, lineFeed_not_mem_toDigits]
  | demanglerOutput => exact iff_of_true (by decide) nofun
  | options fault => cases fault <;> exact iff_of_true (by decide) nofun

end InspectError
end ValueInspector
