import ValueInspector.Json.Lexer
import ValueInspector.Proofs.Json.Grammar

/-! # Blanks and strings as the grammar has them

Blanks are passed over, and a string is read, or skipped, to its closing quote, in whatever way its
characters are written.
-/
namespace ValueInspector.Json

theorem bind_eq_ok_iff {α β : Type} {x : Except Fault α} {f : α → Except Fault β} {b : β} :
    x >>= f = .ok b ↔ ∃ a, x = .ok a ∧ f a = .ok b := by
  cases x with
  | error fault => exact ⟨nofun,nofun⟩
  | ok a => exact ⟨fun h => ⟨a,rfl,h⟩,fun ⟨_,ha,h⟩ => Except.ok.inj ha ▸ h⟩

section Blanks
variable {cs rest : List Char} {c m : Char}

theorem isBlank_iff : isBlank c = true ↔ c ∈ [' ','\t','\n','\r'] := by
  simp [isBlank, or_assoc]

theorem skipBlanks_cons (h : isBlank c = false) : skipBlanks (c :: rest) = c :: rest :=
  List.dropWhile_cons_of_neg (by simp [h])

theorem gap_skipBlanks (cs : List Char) : Gap cs (skipBlanks cs) := by
  induction cs with
  | nil => exact .none
  | cons c cs ih =>
    cases hblank : isBlank c with
    | false =>
      rw [skipBlanks_cons hblank]
      exact .none
    | true =>
      rw [skipBlanks, List.dropWhile_cons_of_pos hblank]
      exact .blank (isBlank_iff.mp hblank) ih

theorem Gap.skipBlanks_eq (h : Gap cs rest) : skipBlanks cs = skipBlanks rest := by
  induction h with
  | none => rfl
  | blank hc _ ih => rw [skipBlanks, List.dropWhile_cons_of_pos (isBlank_iff.mpr hc), ← skipBlanks, ih]

/-- What is looked for behind blanks is found there. -/
theorem Gap.skipBlanks_eq_cons (h : Gap cs (m :: rest)) (hm : isBlank m = false) :
    skipBlanks cs = m :: rest := by
  rw [h.skipBlanks_eq, skipBlanks_cons hm]

theorem Gap.length_le (h : Gap cs rest) : rest.length ≤ cs.length := by
  induction h with
  | none => exact Nat.le_refl _
  | blank _ _ ih => exact Nat.le_succ_of_le ih

theorem length_skipBlanks_le (cs : List Char) : (skipBlanks cs).length ≤ cs.length :=
  (List.dropWhile_sublist isBlank).length_le

theorem Gap.mark_eq (h : Gap cs (m :: rest)) (hm : isBlank m = false) : mark m cs = .ok rest := by
  rw [mark, h.skipBlanks_eq_cons hm]
  exact if_pos rfl

theorem follows_nil : Follows [] := fun _ hc => by cases hc

theorem follows_mark (hm : m ∈ [',',']','\x7d']) : Follows (m :: rest) := by
  have hmarks : ∀ m ∈ [',',']','\x7d'], m.isDigit = false ∧ m ∉ ['.','e','E'] := by simp
  intro c hc
  exact Option.some.inj hc ▸ hmarks m hm

theorem Gap.follows (h : Gap cs rest) (hrest : Follows rest) : Follows cs := by
  cases h with
  | none => exact hrest
  | blank hc _ =>
    have hblanks : ∀ c ∈ [' ','\t','\n','\r'], c.isDigit = false ∧ c ∉ ['.','e','E'] := by simp
    intro d hd
    exact Option.some.inj hd ▸ hblanks _ hc

end Blanks

section Strings
variable {cs mid rest text : List Char} {c : Char} {n : Nat}

theorem CodeUnit.hex4_eq (h : CodeUnit n cs rest) : hex4 cs = .ok (n,rest) := by
  obtain ⟨digits,rfl,hlength,hn⟩ := h
  obtain ⟨a,b,c,d,rfl⟩ := List.length_eq_four.mp hlength
  simp [hex4, hn]

theorem unescape?_of_mem : ∀ p ∈ shortEscapes, unescape? p.1 = some p.2 ∧ p.1 ≠ 'u' := by decide

theorem escaped_short {e : Char} (h : (e,c) ∈ shortEscapes) : escaped (e :: rest) = .ok (c,rest) := by
  obtain ⟨hc,hu⟩ := unescape?_of_mem _ h
  rw [escaped, if_neg hu, hc]

theorem numericEscape_unit (h : hex4 cs = .ok (n,rest)) (hlow : isLowSurrogate n = false)
    (hhigh : isHighSurrogate n = false) : numericEscape cs = .ok (Char.ofNat n,rest) := by
  simp [numericEscape, h, hlow, hhigh, bind, Except.bind, pure, Except.pure]

theorem numericEscape_pair {low : Nat} (hn : hex4 cs = .ok (n,'\\' :: 'u' :: mid))
    (hlow : hex4 mid = .ok (low,rest)) (hnlow : isLowSurrogate n = false)
    (hnhigh : isHighSurrogate n = true) (hlowlow : isLowSurrogate low = true) :
    numericEscape cs = .ok (Char.ofNat (0x10000 + (n - 0xD800) * 0x400 + (low - 0xDC00)),rest) := by
  simp [numericEscape, hn, hlow, hnlow, hnhigh, hlowlow, word, bind, Except.bind, pure, Except.pure]

/-- The character is no surrogate itself. -/
theorem toNat_cases (c : Char) : c.toNat < 0xD800 ∨ 0xDFFF < c.toNat ∧ c.toNat < 0x110000 := c.valid

theorem isLowSurrogate_eq_false_iff : isLowSurrogate n = false ↔ n < 0xDC00 ∨ 0xE000 ≤ n := by
  rw [isLowSurrogate, Bool.and_eq_false_iff, decide_eq_false_iff_not, decide_eq_false_iff_not]
  omega

theorem isHighSurrogate_eq_false_iff : isHighSurrogate n = false ↔ n < 0xD800 ∨ 0xDC00 ≤ n := by
  rw [isHighSurrogate, Bool.and_eq_false_iff, decide_eq_false_iff_not, decide_eq_false_iff_not]
  omega

theorem escaped_unit (h : CodeUnit c.toNat cs rest) : escaped ('u' :: cs) = .ok (c,rest) := by
  have hvalid := toNat_cases c
  rw [escaped, if_pos rfl, numericEscape_unit h.hex4_eq, Char.ofNat_toNat]
  · rw [isLowSurrogate_eq_false_iff]
    omega
  · rw [isHighSurrogate_eq_false_iff]
    omega

theorem escaped_pair (hc : 0x10000 ≤ c.toNat)
    (hhigh : CodeUnit (0xD800 + (c.toNat - 0x10000) / 0x400) cs ('\\' :: 'u' :: mid))
    (hlow : CodeUnit (0xDC00 + (c.toNat - 0x10000) % 0x400) mid rest) :
    escaped ('u' :: cs) = .ok (c,rest) := by
  have hvalid := toNat_cases c
  have hchar : 0x10000 + (0xD800 + (c.toNat - 0x10000) / 0x400 - 0xD800) * 0x400 +
      (0xDC00 + (c.toNat - 0x10000) % 0x400 - 0xDC00) = c.toNat := by
    omega
  rw [escaped, if_pos rfl, numericEscape_pair hhigh.hex4_eq hlow.hex4_eq, hchar, Char.ofNat_toNat]
  · rw [isLowSurrogate_eq_false_iff]
    omega
  · rw [← Bool.not_eq_false, isHighSurrogate_eq_false_iff]
    omega
  · rw [← Bool.not_eq_false, isLowSurrogate_eq_false_iff]
    omega

theorem stringFrom_escape {acc : List Char} (h : escaped cs = .ok (c,rest)) :
    stringFrom acc ('\\' :: cs) = stringFrom (c :: acc) rest := by
  rw [stringFrom, if_neg (by decide), if_pos rfl]
  split
  next hfault => cases h.symm.trans hfault
  next hok => cases h.symm.trans hok; rfl

theorem Written.stringFrom_eq (h : Written c cs rest) (acc : List Char) :
    stringFrom acc cs = stringFrom (c :: acc) rest := by
  cases h with
  | plain hc =>
    obtain ⟨hquote,hslash,hcontrol⟩ := hc
    rw [stringFrom, if_neg hquote, if_neg hslash, if_neg (Nat.not_lt.mpr hcontrol)]
  | short he => exact stringFrom_escape (escaped_short he)
  | unit h => exact stringFrom_escape (escaped_unit h)
  | pair hc hhigh hlow => exact stringFrom_escape (escaped_pair hc hhigh hlow)

theorem StringBody.stringFrom_eq (h : StringBody text cs rest) (acc : List Char) :
    stringFrom acc cs = .ok (String.ofList (acc.reverse ++ text),rest) := by
  induction h generalizing acc with
  | close => rw [stringFrom, if_pos rfl, List.append_nil]
  | char hc _ ih => rw [hc.stringFrom_eq, ih, List.reverse_cons, List.append_assoc, List.singleton_append]

theorem StringBody.stringBody_eq (h : StringBody text cs rest) :
    stringBody cs = .ok (String.ofList text,rest) := h.stringFrom_eq []

theorem skipStringBody_escape (h : skipEscaped cs = .ok rest) :
    skipStringBody ('\\' :: cs) = skipStringBody rest := by
  rw [skipStringBody, if_neg (by decide), if_pos rfl]
  split
  next hfault => cases h.symm.trans hfault
  next hok => cases h.symm.trans hok; rfl

theorem LooseBody.skipStringBody_eq (h : LooseBody cs rest) : skipStringBody cs = .ok rest := by
  induction h with
  | close => rw [skipStringBody, if_pos rfl]
  | plain hc _ ih =>
    obtain ⟨hquote,hslash,hcontrol⟩ := hc
    rw [skipStringBody, if_neg hquote, if_neg hslash, if_neg (Nat.not_lt.mpr hcontrol), ih]
  | short he _ ih =>
    obtain ⟨hc,hu⟩ := unescape?_of_mem _ he
    rw [skipStringBody_escape, ih]
    rw [skipEscaped, if_neg hu, hc, Option.isSome_some, if_pos rfl]
  | unit hn _ ih =>
    rw [skipStringBody_escape, ih]
    rw [skipEscaped, if_pos rfl, hn.hex4_eq]
    rfl

theorem StringBody.loose (h : StringBody text cs rest) : LooseBody cs rest := by
  induction h with
  | close => exact .close
  | char hc _ ih =>
    cases hc with
    | plain hc => exact .plain hc ih
    | short he => exact .short he ih
    | unit h => exact .unit h ih
    | pair _ hhigh hlow => exact .unit hhigh (.unit hlow ih)

end Strings

/-! Where a string that is kept ends, the same string ends when it is skipped. -/

section Ends
variable {ws cs rest : List Char} {c : Char} {s : String}

theorem word_eq (h : word ws cs = .ok rest) : cs = ws ++ rest := by
  induction ws generalizing cs with
  | nil => exact Except.ok.inj h
  | cons w ws ih =>
    cases cs with
    | nil => cases h
    | cons c cs =>
      rw [word] at h
      split at h
      next hw => rw [hw, ih h, List.cons_append]
      · cases h

theorem skipEscaped_unit {n : Nat} (h : hex4 cs = .ok (n,rest)) : skipEscaped ('u' :: cs) = .ok rest := by
  rw [skipEscaped, if_pos rfl, h]
  rfl

/-- A pair of code units is two escapes to what does not keep it. -/
theorem skipStringBody_of_numericEscape (h : numericEscape cs = .ok (c,rest)) :
    skipStringBody ('\\' :: 'u' :: cs) = skipStringBody rest := by
  obtain ⟨⟨high,mid⟩,hhigh,h⟩ := bind_eq_ok_iff.mp h
  rw [skipStringBody_escape (skipEscaped_unit hhigh)]
  dsimp only at h
  split at h
  · cases h
  split at h
  · cases h
    rfl
  obtain ⟨tail,hword,h⟩ := bind_eq_ok_iff.mp h
  obtain ⟨⟨low,left⟩,hlow,h⟩ := bind_eq_ok_iff.mp h
  dsimp only at h
  split at h
  · cases h
  obtain rfl : left = rest := (Prod.mk.inj (Except.ok.inj h)).2
  rw [word_eq hword]
  exact skipStringBody_escape (skipEscaped_unit hlow)

theorem skipStringBody_of_escaped (h : escaped cs = .ok (c,rest)) :
    skipStringBody ('\\' :: cs) = skipStringBody rest := by
  cases cs with
  | nil => cases h
  | cons e cs =>
    rw [escaped] at h
    split at h
    next hu => exact hu ▸ skipStringBody_of_numericEscape h
    next hu =>
      split at h
      next hc =>
        cases h
        exact skipStringBody_escape (by rw [skipEscaped, if_neg hu, hc, Option.isSome_some, if_pos rfl])
      · cases h

theorem skipStringBody_of_stringFrom {acc : List Char} (h : stringFrom acc cs = .ok (s,rest)) :
    skipStringBody cs = .ok rest := by
  fun_induction stringFrom acc cs with
  | case1 => cases h
  | case2 =>
    cases h
    rw [skipStringBody, if_pos rfl]
  | case3 => cases h
  | case4 acc rest d after hescaped _ ih => exact (skipStringBody_of_escaped hescaped).trans (ih h)
  | case5 => cases h
  | case6 acc c rest hquote hslash hcontrol ih =>
    rw [skipStringBody, if_neg hquote, if_neg hslash, if_neg hcontrol, ih h]

theorem length_of_skipStringBody (h : skipStringBody cs = .ok rest) : rest.length < cs.length := by
  fun_induction skipStringBody cs with
  | case1 => cases h
  | case2 =>
    cases h
    exact Nat.lt_succ_self _
  | case3 => cases h
  | case4 rest after hescaped _ ih =>
    exact Nat.lt_succ_of_lt (Nat.lt_trans (ih h) (length_of_skipEscaped hescaped))
  | case5 => cases h
  | case6 c rest hquote hslash hcontrol ih => exact Nat.lt_succ_of_lt (ih h)

end Ends
end ValueInspector.Json
