import ValueInspector.Text.Numeral

/-! # Hexadecimal numerals

A numeral with a fixed number of digits has just these digits, all in lower case, and reads back as the
number it was made of, if that fits.
-/
namespace ValueInspector.Text

theorem length_hexDigits (width n : Nat) : (hexDigits width n).length = width := by
  induction width generalizing n with
  | zero => rfl
  | succ width ih => rw [hexDigits, List.length_append, ih, List.length_singleton]

theorem mem_hexDigits {width n : Nat} {c : Char} (h : c ∈ hexDigits width n) :
    ∃ d < 16, c = hexDigit d := by
  induction width generalizing n with
  | zero => cases h
  | succ width ih =>
    rcases List.mem_append.mp h with h | h
    · exact ih h
    · exact ⟨n % 16,Nat.mod_lt _ (by decide),List.mem_singleton.mp h⟩

theorem length_hexWord (w : UInt64) : (hexWord w).toList.length = 18 := by
  simp [hexWord, length_hexDigits]

theorem digitValue?_hexDigit : ∀ n < 16, digitValue? 16 (hexDigit n) = some n := by decide

theorem readDigits?_hexDigits {width n : Nat} (h : n < Nat.pow 16 width) (hwidth : 0 < width) :
    readDigits? 16 (hexDigits width n) = some n := by
  have hfold : ∀ (width n : Nat), n < Nat.pow 16 width →
      (hexDigits width n).foldl
        (fun acc c => acc.bind fun n => (digitValue? 16 c).map (16 * n + ·)) (some 0) = some n := by
    intro width
    induction width with
    | zero => exact fun n h => congrArg some (Nat.lt_one_iff.mp h).symm
    | succ width ih =>
      intro n h
      have hfront : n / 16 < Nat.pow 16 width := Nat.div_lt_of_lt_mul (by rwa [Nat.mul_comm])
      rw [hexDigits, List.foldl_append, ih _ hfront, List.foldl_cons, List.foldl_nil,
        Option.bind_some, digitValue?_hexDigit _ (Nat.mod_lt _ (by decide)), Option.map_some,
        Nat.div_add_mod]
  have hdigits : (hexDigits width n).isEmpty = false := by
    rw [List.isEmpty_eq_false_iff, ← List.length_pos_iff, length_hexDigits]
    exact hwidth
  rw [readDigits?, hdigits]
  exact hfold width n h

/-- The hexadecimal digits in lower case. -/
def lowerHexDigits : List Char := "0123456789abcdef".toList

theorem hexDigit_mem_lowerHexDigits : ∀ n < 16, hexDigit n ∈ lowerHexDigits := by decide

/-- The text is `0x` with sixteen lower-case digits behind it that stand for a number. -/
def IsHexWord (text : String) (n : Nat) : Prop :=
  ∃ digits, text = "0x" ++ String.ofList digits ∧ digits.length = 16 ∧
    (∀ c ∈ digits, c ∈ lowerHexDigits) ∧ readDigits? 16 digits = some n

theorem isHexWord_hexWord (w : UInt64) : IsHexWord (hexWord w) w.toNat := by
  refine ⟨hexDigits 16 w.toNat,rfl,length_hexDigits _ _,fun c hc => ?_,
    readDigits?_hexDigits w.toNat_lt_size (by decide)⟩
  obtain ⟨d,hd,rfl⟩ := mem_hexDigits hc
  exact hexDigit_mem_lowerHexDigits d hd

end ValueInspector.Text
