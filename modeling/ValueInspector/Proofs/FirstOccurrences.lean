import Mathlib.Data.List.Induction

/-! # Lists without their repetitions

`List.eraseDups` keeps the first occurrence of each element, so a log that grows at its end gets one
more entry exactly when the new element is not in it yet.
-/
namespace ValueInspector
variable {α : Type} [BEq α] [LawfulBEq α]

theorem eraseDups_concat_of_mem {l : List α} {a : α} (h : a ∈ l) :
    (l ++ [a]).eraseDups = l.eraseDups := by
  rw [List.eraseDups_append]
  simp [List.removeAll, h]

theorem eraseDups_concat_of_not_mem {l : List α} {a : α} (h : a ∉ l) :
    (l ++ [a]).eraseDups = l.eraseDups ++ [a] := by
  rw [List.eraseDups_append]
  simp [List.removeAll, h, List.eraseDups_cons]

theorem length_eraseDups_le (l : List α) : l.eraseDups.length ≤ l.length := by
  induction l using List.reverseRecOn with
  | nil => exact Nat.le_refl _
  | append_singleton l a ih =>
    rw [List.length_append, List.length_singleton]
    by_cases h : a ∈ l
    · rw [eraseDups_concat_of_mem h]
      omega
    · rw [eraseDups_concat_of_not_mem h, List.length_append, List.length_singleton]
      omega

theorem nodup_eraseDups (l : List α) : l.eraseDups.Nodup := by
  induction l using List.reverseRecOn with
  | nil => exact List.Pairwise.nil
  | append_singleton l a ih =>
    by_cases h : a ∈ l
    · rw [eraseDups_concat_of_mem h]
      exact ih
    · rw [eraseDups_concat_of_not_mem h]
      refine List.nodup_append.mpr ⟨ih,List.pairwise_singleton _ a,?_⟩
      rintro b hb _ ha rfl
      rw [List.mem_singleton] at ha
      exact h (ha ▸ List.mem_eraseDups.mp hb)

end ValueInspector
