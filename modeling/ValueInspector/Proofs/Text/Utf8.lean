import Mathlib.Data.List.Basic
import ValueInspector.Text.Utf8

/-! # Line feeds in lenient readings

A step of a reading takes one byte and, if that leads a sequence, continuation bytes after it. Only the
byte of a line feed is read as one, and no step passes it over. So the text of a byte string has a line
feed exactly if the byte string has.
-/
namespace ValueInspector.Text.Utf8

/-- The bytes after a step. -/
def Step.rest : Step → List UInt8
  | .char _ rest | .illFormed rest => rest

/-- What a lenient reading shows of a step. -/
def Step.shown : Step → Char
  | .char c _ => c
  | .illFormed _ => '\uFFFD'

theorem lossyLoop_cons (count : Nat) (b : UInt8) (rest : List UInt8) (acc : List Char) :
    lossyLoop (count + 1) (b :: rest) acc =
      lossyLoop count (step b rest).rest ((step b rest).shown :: acc) := by
  rw [lossyLoop]
  cases step b rest <;> rfl

/-- Continuation bytes are taken from the front, and nothing else. -/
theorem exists_append_continuation {low high : UInt8} (hlow : 0x80 ≤ low) (value follow : Nat)
    (rest : List UInt8) :
    ∃ taken, rest = taken ++ (continuation low high value follow rest).rest ∧
      ∀ b ∈ taken, 0x80 ≤ b := by
  induction follow generalizing low high value rest with
  | zero => exact ⟨[],rfl,nofun⟩
  | succ follow ih =>
    cases rest with
    | nil => exact ⟨[],rfl,nofun⟩
    | cons b tail =>
      rw [continuation]
      split
      next hb =>
        obtain ⟨taken,htaken,hall⟩ := @ih 0x80 0xBF (UInt8.le_refl _) _ tail
        refine ⟨b :: taken,by rw [List.cons_append, ← htaken],?_⟩
        exact List.forall_mem_cons.mpr ⟨UInt8.le_trans hlow hb.1,hall⟩
      · exact ⟨[],rfl,nofun⟩

/-- A sequence stands for at least the least that its next byte admits. -/
theorem le_of_continuation {low high : UInt8} {value follow : Nat} {rest tail : List UInt8}
    {c : Char} (h : continuation low high value (follow + 1) rest = .char c tail) :
    ∃ n, c = Char.ofNat n ∧ 64 * value + (low.toNat - 0x80) ≤ n := by
  induction follow generalizing low high value rest with
  | zero =>
    cases rest with
    | nil => cases h
    | cons b rest =>
      rw [continuation] at h
      split at h
      next hb =>
        have hle := UInt8.le_iff_toNat_le.mp hb.1
        exact ⟨_,(Step.char.inj h).1.symm,by omega⟩
      · cases h
  | succ follow ih =>
    cases rest with
    | nil => cases h
    | cons b rest =>
      rw [continuation] at h
      split at h
      next hb =>
        have hle := UInt8.le_iff_toNat_le.mp hb.1
        obtain ⟨n,hc,hn⟩ := ih h
        have hgrows : 64 * value + (low.toNat - 0x80) ≤ 64 * (64 * value + (b.toNat - 0x80)) := by
          omega
        exact ⟨n,hc,Nat.le_trans hgrows (Nat.le_trans (Nat.le_add_right _ _) hn)⟩
      · cases h

/-- A lead byte stands for itself, or announces bytes that make up no control character. -/
theorem lead?_cases (b : UInt8) :
    lead? b = some ⟨0,0,0,b.toNat⟩ ∨ 0x80 ≤ b ∧ ∀ l ∈ lead? b,
      (∃ follow, l.follow = follow + 1) ∧ 0x80 ≤ l.low ∧
        16 ≤ 64 * l.bits + (l.low.toNat - 0x80) := by
  unfold lead?
  dsimp only
  split
  · exact .inl rfl
  next hb =>
    refine .inr ⟨UInt8.le_iff_toNat_le.mpr (Nat.not_lt.mp hb),fun l hl => ?_⟩
    split at hl
    · cases hl
    · repeat' split at hl
      all_goals cases hl
      all_goals refine ⟨⟨_,rfl⟩,UInt8.le_iff_toNat_le.mpr (by simp),?_⟩
      all_goals simp
      all_goals omega

theorem ofNat_eq_lineFeed_iff (n : Nat) : Char.ofNat n = '\n' ↔ n = 10 := by
  refine ⟨fun h => ?_,fun h => h ▸ rfl⟩
  have hn := congrArg Char.toNat h
  by_cases hvalid : n.isValidChar
  · rwa [Char.ofNat, dif_pos hvalid] at hn
  · rw [Char.ofNat, dif_neg hvalid] at hn
    cases hn

theorem ne_lineFeed_of_le {b : UInt8} (hb : 0x80 ≤ b) : b ≠ 10 := by
  rintro rfl
  exact absurd hb (by decide)

/-- A step shows a line feed exactly at the byte of one, and passes none over. -/
theorem step_spec (b : UInt8) (rest : List UInt8) :
    ((step b rest).shown = '\n' ↔ b = 10) ∧
      ∃ taken, rest = taken ++ (step b rest).rest ∧ ∀ b ∈ taken, 0x80 ≤ b := by
  have hreplaced : '\uFFFD' ≠ '\n' := by decide
  rw [step]
  rcases lead?_cases b with hb | ⟨hb,hl⟩
  · rw [hb]
    have hbyte : b.toNat = (10 : UInt8).toNat ↔ b = 10 := UInt8.toNat_inj
    exact ⟨(ofNat_eq_lineFeed_iff b.toNat).trans hbyte,[],rfl,nofun⟩
  · cases h : lead? b with
    | none => exact ⟨iff_of_false hreplaced (ne_lineFeed_of_le hb),[],rfl,nofun⟩
    | some l =>
      obtain ⟨⟨follow,hfollow⟩,hlow,hleast⟩ := hl l h
      refine ⟨iff_of_false ?_ (ne_lineFeed_of_le hb),exists_append_continuation hlow _ _ rest⟩
      dsimp only
      rw [hfollow]
      cases hstep : continuation l.low l.high l.bits (follow + 1) rest with
      | illFormed tail => exact hreplaced
      | char c tail =>
        obtain ⟨n,rfl,hn⟩ := le_of_continuation hstep
        intro hshown
        have hten := (ofNat_eq_lineFeed_iff n).mp hshown
        omega

theorem lineFeed_mem_lossyLoop_iff {count : Nat} {bytes : List UInt8} (h : bytes.length ≤ count)
    (acc : List Char) : '\n' ∈ lossyLoop count bytes acc ↔ '\n' ∈ acc ∨ 10 ∈ bytes := by
  induction count generalizing bytes acc with
  | zero =>
    rw [List.eq_nil_of_length_eq_zero (Nat.le_zero.mp h)]
    simp [lossyLoop]
  | succ count ih =>
    cases bytes with
    | nil => simp [lossyLoop]
    | cons b rest =>
      obtain ⟨hshown,taken,htaken,hhigh⟩ := step_spec b rest
      have hrest : (10 : UInt8) ∈ rest ↔ 10 ∈ (step b rest).rest := by
        conv_lhs => rw [htaken]
        rw [List.mem_append, or_iff_right fun hmem => ne_lineFeed_of_le (hhigh 10 hmem) rfl]
      have hlength : (step b rest).rest.length ≤ count := by
        have := congrArg List.length htaken
        rw [List.length_append] at this
        rw [List.length_cons] at h
        omega
      rw [lossyLoop_cons, ih hlength, List.mem_cons, List.mem_cons, hrest, eq_comm, hshown,
        eq_comm (a := b), or_assoc, or_left_comm]

theorem lineFeed_mem_decodeLossy_iff (bytes : List UInt8) :
    '\n' ∈ (decodeLossy bytes).toList ↔ 10 ∈ bytes := by
  rw [decodeLossy, String.toList_ofList, lineFeed_mem_lossyLoop_iff (Nat.le_refl _)]
  simp

end ValueInspector.Text.Utf8
