import ValueInspector.Json.Parse
import ValueInspector.Json.Skip
import ValueInspector.Proofs.Json.Lexing

/-! # Numbers as the grammar has them

A number is read, or skipped, to its end. The decimal digits of a natural number within 64 bits are kept
as that number: no double is too small for it.
-/
namespace ValueInspector.JsonNumber

section Naturals
variable {n : Nat} {ds : List Nat}

theorem le_foldl_digits (ds : List Nat) (n : Nat) : n ≤ ds.foldl (fun n d => 10 * n + d) n := by
  induction ds generalizing n with
  | nil => exact Nat.le_refl n
  | cons d ds ih =>
    have hnext := ih (10 * n + d)
    rw [List.foldl_cons]
    omega

/-- All digits are taken from a number that fits. -/
theorem absorb_eq (h : ds.foldl (fun n d => 10 * n + d) n < UInt64.size) :
    absorb n ds = (ds.foldl (fun n d => 10 * n + d) n,[]) := by
  induction ds generalizing n with
  | nil => rfl
  | cons d ds ih =>
    rw [List.foldl_cons] at h
    have hlt := Nat.lt_of_le_of_lt (le_foldl_digits ds (10 * n + d)) h
    rw [absorb, if_pos hlt, ih h, List.foldl_cons]

theorem leading_ofNat (h : n < UInt64.size) : (ofNat n).leading = (n,0) := by
  have hdigits : ((Nat.toDigits 10 n).map fun c => c.toNat - '0'.toNat).foldl
      (fun n d => 10 * n + d) 0 = n := by
    rw [List.foldl_map, ← Nat.ofDigitChars_eq_foldl, Nat.ofDigitChars_ten_toDigits]
  have hwhole := absorb_eq (hdigits.symm ▸ h)
  rw [hdigits] at hwhole
  rw [leading, ofNat]
  dsimp only
  rw [hwhole]
  rfl

theorem nearestDouble_le (h : n ≠ 0) : nearestDouble n ≤ 2 * n := by
  have hunit : Nat.pow 2 (n.log2 - 52) ≤ n :=
    Nat.le_trans (Nat.pow_le_pow_right (by decide) (Nat.sub_le _ _)) (Nat.log2_self_le h)
  have hround := Nat.div_mul_le_self n (Nat.pow 2 (n.log2 - 52))
  unfold nearestDouble
  dsimp only
  split
  · rw [Nat.succ_mul]
    omega
  · omega

/-- Every number of 64 bits is within the doubles. -/
theorem overflows_ofNat (h : n < UInt64.size) : (ofNat n).overflows = false := by
  unfold overflows
  rw [leading_ofNat h]
  dsimp only
  split
  · rfl
  next hword =>
    simp only [Bool.or_eq_true, decide_eq_true_eq, not_or] at hword
    -- Rounding doubles the number at most, which leaves it far below the largest of the doubles.
    have hdouble := nearestDouble_le hword.1
    have hone : nearestDouble (Nat.pow 10 (Int.toNat 0)) = 1 := by decide
    have hbound : 2 * UInt64.size < beyondDoubles := by decide +kernel
    rw [hone, Nat.mul_one, decide_eq_false (by omega : ¬beyondDoubles ≤ nearestDouble n)]
    rfl

end Naturals
end ValueInspector.JsonNumber

namespace ValueInspector.Json

section Digits
variable {c : Char} {ds rest : List Char}

/-- The value of a decimal digit, by its distance from zero. -/
def digitOf (c : Char) : Fin 10 := Fin.ofNat 10 (c.toNat - '0'.toNat)

theorem IsDigits.exists_cons (h : IsDigits ds) : ∃ d t, ds = d :: t ∧ d.isDigit = true := by
  obtain ⟨d,t,rfl⟩ := List.exists_cons_of_ne_nil h.1
  exact ⟨d,t,rfl,h.2 d List.mem_cons_self⟩

theorem ne_of_isDigit {m : Char} (h : c.isDigit = true) (hm : m.isDigit = false) : c ≠ m := by
  rintro rfl
  exact Bool.false_ne_true (hm.symm.trans h)

theorem isBlank_of_isDigit (h : c.isDigit = true) : isBlank c = false := by
  have hblanks : ∀ m ∈ [' ','\t','\n','\r'], m.isDigit = false := by simp
  exact Bool.eq_false_iff.mpr fun hblank => ne_of_isDigit h (hblanks c (isBlank_iff.mp hblank)) rfl

theorem digit?_of_isDigit (h : c.isDigit = true) : digit? c = some (digitOf c) := by
  obtain ⟨hlow,hhigh⟩ := Char.isDigit_iff_toNat.mp h
  have hnine : '9'.toNat = '0'.toNat + 9 := rfl
  have hlt : c.toNat - '0'.toNat < 10 := by omega
  have hzero : '0' ≤ c := hlow
  rw [digit?, dif_pos hlt, if_pos hzero]
  exact congrArg some (Fin.ext (Nat.mod_eq_of_lt hlt).symm)

theorem digit?_of_not_isDigit (h : c.isDigit = false) : digit? c = none := by
  have hnine : '9'.toNat = '0'.toNat + 9 := rfl
  rw [digit?]
  split
  next hlt =>
    refine if_neg fun hlow => ?_
    have hlow : '0'.toNat ≤ c.toNat := hlow
    have hdigit := Char.isDigit_iff_toNat.mpr ⟨hlow,by omega⟩
    exact Bool.false_ne_true (h.symm.trans hdigit)
  · rfl

theorem digits_append (hds : ∀ c ∈ ds, c.isDigit = true) (hrest : ∀ c ∈ rest.head?, c.isDigit = false) :
    digits (ds ++ rest) = (ds.map digitOf,rest) := by
  induction ds with
  | nil =>
    cases rest with
    | nil => rfl
    | cons c rest => exact digits_cons_of_none (digit?_of_not_isDigit (hrest c rfl))
  | cons d ds ih =>
    obtain ⟨hd,hds⟩ := List.forall_mem_cons.mp hds
    rw [List.cons_append, digits_cons_of_some (digit?_of_isDigit hd), ih hds, List.map_cons]

theorem someDigits_append (hds : IsDigits ds) (hrest : ∀ c ∈ rest.head?, c.isDigit = false)
    (fault : Fault) : someDigits fault (ds ++ rest) = .ok (ds.map digitOf,rest) := by
  rw [someDigits, digits_append hds.2 hrest]
  cases ds with
  | nil => exact absurd rfl hds.1
  | cons d ds => rfl

theorem digitOf_eq_zero (h : c.isDigit = true) (hzero : digitOf c = 0) : c = '0' := by
  obtain ⟨hlow,hhigh⟩ := Char.isDigit_iff_toNat.mp h
  have hnine : '9'.toNat = '0'.toNat + 9 := rfl
  have hmod : (c.toNat - '0'.toNat) % 10 = 0 := congrArg Fin.val hzero
  rw [Nat.mod_eq_of_lt (by omega)] at hmod
  exact Char.toNat_inj.mp (by omega)

end Digits

section Parts
variable {c : Char} {whole fraction exponent rest : List Char}

theorem IsWhole.isDigits (h : IsWhole whole) : IsDigits whole := by
  rcases h with rfl | ⟨hdigits,-⟩
  · exact ⟨List.cons_ne_nil _ _,List.forall_mem_singleton.mpr (by decide)⟩
  · exact hdigits

/-- An integer part has no zero in front of other digits. -/
theorem wholePart_append (h : IsWhole whole) (hrest : ∀ c ∈ rest.head?, c.isDigit = false)
    (fault : Fault) : wholePart fault (whole ++ rest) = .ok (ofDigits (whole.map digitOf),rest) := by
  rw [wholePart, someDigits_append h.isDigits hrest]
  rcases h with rfl | ⟨hdigits,hhead⟩
  · rfl
  · cases whole with
    | nil => exact absurd rfl hdigits.1
    | cons d ds =>
      have hd : digitOf d ≠ 0 := fun hzero =>
        hhead (congrArg some (digitOf_eq_zero (hdigits.2 d List.mem_cons_self) hzero))
      simp only [bind, Except.bind, List.map_cons]
      split
      next heq => exact absurd (List.cons.inj heq).1 hd
      · rfl

theorem fractionPart_of_head (h : rest.head? ≠ some '.') (fault : Fault) :
    fractionPart fault rest = .ok ([],rest) := by
  unfold fractionPart
  split
  · exact absurd rfl h
  · rfl

theorem exponentPart_of_head (h : ∀ c ∈ rest.head?, c ∉ ['e','E']) (fault : Fault) :
    exponentPart fault rest = .ok (none,rest) := by
  cases rest with
  | nil => rfl
  | cons c rest =>
    have hc := h c rfl
    unfold exponentPart
    exact if_neg (by simpa using hc)

/-- The sign in front of the digits of an exponent. -/
def signed (cs : List Char) : Int × List Char :=
  match cs with
  | '-' :: rest => (-1,rest)
  | '+' :: rest => (1,rest)
  | _ => (1,cs)

theorem exponentPart_mark (h : c ∈ ['e','E']) (fault : Fault) :
    exponentPart fault (c :: rest) = someDigits fault (signed rest).2 >>= fun r =>
      .ok (some ((signed rest).1 * ofDigits r.1),r.2) := by
  have hmark : (c = 'e' || c = 'E') = true := by simpa using h
  unfold exponentPart
  dsimp only
  rw [if_pos hmark]
  rfl

theorem signed_append {sign ds : List Char} (hsign : sign ∈ [[],['+'],['-']]) (hds : IsDigits ds) :
    (signed (sign ++ (ds ++ rest))).2 = ds ++ rest := by
  simp only [List.mem_cons, List.not_mem_nil, or_false] at hsign
  rcases hsign with rfl | rfl | rfl
  · obtain ⟨d,ds,rfl,hd⟩ := hds.exists_cons
    rw [List.nil_append, List.cons_append, signed.eq_def]
    split
    next heq => exact absurd (List.cons.inj heq).1 (ne_of_isDigit hd rfl)
    next heq => exact absurd (List.cons.inj heq).1 (ne_of_isDigit hd rfl)
    · rfl
  · rfl
  · rfl

theorem exists_fractionPart (h : IsFraction fraction) (hdigit : ∀ c ∈ rest.head?, c.isDigit = false)
    (hpoint : rest.head? ≠ some '.') (fault : Fault) :
    ∃ ds, fractionPart fault (fraction ++ rest) = .ok (ds,rest) := by
  rcases h with rfl | ⟨ds,rfl,hds⟩
  · exact ⟨[],fractionPart_of_head hpoint fault⟩
  · exact ⟨_,someDigits_append hds hdigit fault⟩

theorem exists_exponentPart (h : IsExponent exponent) (hrest : Follows rest) (fault : Fault) :
    ∃ e, exponentPart fault (exponent ++ rest) = .ok (e,rest) := by
  rcases h with rfl | ⟨e,sign,ds,rfl,he,hsign,hds⟩
  · refine ⟨_,exponentPart_of_head (fun c hc hmem => ?_) fault⟩
    exact (hrest c hc).2 (List.mem_cons_of_mem _ hmem)
  · have hdigits := someDigits_append hds (fun c hc => (hrest c hc).1) fault
    rw [List.cons_append, List.append_assoc, exponentPart_mark he, signed_append hsign hds, hdigits]
    exact ⟨_,rfl⟩

theorem head?_exponent (h : IsExponent exponent) (hrest : Follows rest) :
    ∀ c ∈ (exponent ++ rest).head?, c.isDigit = false ∧ c ≠ '.' := by
  rcases h with rfl | ⟨e,sign,ds,rfl,he,-,-⟩ <;> intro c hc
  · obtain ⟨hdigit,hmark⟩ := hrest c hc
    exact ⟨hdigit,fun heq => hmark (heq ▸ List.mem_cons_self)⟩
  · have hmarks : ∀ e ∈ ['e','E'], e.isDigit = false ∧ e ≠ '.' := by simp
    exact Option.some.inj hc ▸ hmarks e he

theorem head?_fraction (h : IsFraction fraction) (hexponent : IsExponent exponent)
    (hrest : Follows rest) : ∀ c ∈ (fraction ++ (exponent ++ rest)).head?, c.isDigit = false := by
  rcases h with rfl | ⟨ds,rfl,-⟩ <;> intro c hc
  · exact (head?_exponent hexponent hrest c hc).1
  · exact Option.some.inj hc ▸ (by decide : '.'.isDigit = false)

theorem exists_numberBody (hwhole : IsWhole whole) (hfraction : IsFraction fraction)
    (hexponent : IsExponent exponent) (hrest : Follows rest) (fault : Fault) (negative : Bool) :
    ∃ n, numberBody fault negative (whole ++ (fraction ++ exponent) ++ rest) = .ok (n,rest) := by
  have hend := head?_exponent hexponent hrest
  obtain ⟨ds,hds⟩ := exists_fractionPart hfraction (fun c hc => (hend c hc).1)
    (fun hpoint => (hend '.' hpoint).2 rfl) fault
  obtain ⟨e,he⟩ := exists_exponentPart hexponent hrest fault
  have hint := wholePart_append hwhole (head?_fraction hfraction hexponent hrest) fault
  simp only [numberBody, List.append_assoc, hint, hds, he, bind, Except.bind]
  exact ⟨_,rfl⟩

theorem skipNumber_of_numberBody {n : JsonNumber} {cs : List Char}
    (h : numberBody .malformed false cs = .ok (n,rest)) : skipNumber false cs = .ok rest := by
  rw [skipNumber, h]
  rfl

theorem skipScalar_digit (h : c.isDigit = true) : skipScalar c rest = skipNumber false (c :: rest) := by
  have hsome : (digit? c).isSome = true := by rw [digit?_of_isDigit h, Option.isSome_some]
  rw [skipScalar, if_neg (ne_of_isDigit h rfl), if_neg (ne_of_isDigit h rfl), if_neg (ne_of_isDigit h rfl),
    if_neg (ne_of_isDigit h rfl), if_neg (ne_of_isDigit h rfl), if_pos hsome]

theorem IsNumeral.exists_cons {t : List Char} (h : IsNumeral t) :
    ∃ c cs, t = c :: cs ∧ (c = '-' ∨ c.isDigit = true) := by
  obtain ⟨sign,whole,fraction,exponent,rfl,hsign,hwhole,-,-⟩ := h
  simp only [List.mem_cons, List.not_mem_nil, or_false] at hsign
  rcases hsign with rfl | rfl
  · obtain ⟨d,ds,rfl,hd⟩ := hwhole.isDigits.exists_cons
    exact ⟨d,_,rfl,.inr hd⟩
  · exact ⟨'-',_,rfl,.inl rfl⟩

/-- A number is skipped to its end. -/
theorem IsNumeral.skipScalar_eq {cs : List Char} (h : IsNumeral (c :: cs)) (hrest : Follows rest) :
    skipScalar c (cs ++ rest) = .ok rest := by
  obtain ⟨sign,whole,fraction,exponent,heq,hsign,hwhole,hfraction,hexponent⟩ := h
  obtain ⟨n,hn⟩ := exists_numberBody hwhole hfraction hexponent hrest .malformed false
  have hskip := skipNumber_of_numberBody hn
  simp only [List.mem_cons, List.not_mem_nil, or_false] at hsign
  rcases hsign with rfl | rfl
  · obtain ⟨d,ds,rfl,hd⟩ := hwhole.isDigits.exists_cons
    obtain ⟨rfl,rfl⟩ := List.cons.inj heq
    exact (skipScalar_digit hd).trans hskip
  · obtain ⟨rfl,rfl⟩ := List.cons.inj heq
    exact hskip

end Parts

/-! What is read of a number is the same whatever its sign, and wherever a fault would be found. -/

section Ends
variable {cs rest : List Char} {ds : List (Fin 10)} {fault : Fault}

theorem length_digits (cs : List Char) : (digits cs).1.length + (digits cs).2.length = cs.length := by
  induction cs with
  | nil => rfl
  | cons c cs ih =>
    cases hdigit : digit? c with
    | none => rw [digits_cons_of_none hdigit, List.length_nil, Nat.zero_add]
    | some d =>
      rw [digits_cons_of_some hdigit]
      simp only [List.length_cons]
      omega

theorem someDigits_ends (h : someDigits fault cs = .ok (ds,rest)) :
    rest.length < cs.length ∧ ∀ other, someDigits other cs = .ok (ds,rest) := by
  have hlength := length_digits cs
  cases hdigits : digits cs with
  | mk taken left =>
    rw [hdigits] at hlength
    cases taken with
    | nil =>
      rw [someDigits, hdigits] at h
      cases left <;> cases h
    | cons d taken =>
      have hok : ∀ fault, someDigits fault cs = .ok (d :: taken,left) := fun fault => by
        rw [someDigits, hdigits]
      rw [hok] at h
      cases h
      simp only [List.length_cons] at hlength
      exact ⟨by omega,hok⟩

theorem wholePart_ends {n : Nat} (h : wholePart fault cs = .ok (n,rest)) :
    rest.length < cs.length ∧ ∀ other, wholePart other cs = .ok (n,rest) := by
  obtain ⟨⟨ds,left⟩,hds,hleft⟩ := bind_eq_ok_iff.mp h
  obtain ⟨hlength,hother⟩ := someDigits_ends hds
  have hrest : left = rest := by
    dsimp only at hleft
    split at hleft
    · cases hleft
    · cases hleft
      rfl
  subst hrest
  exact ⟨hlength,fun other => bind_eq_ok_iff.mpr ⟨_,hother other,hleft⟩⟩

theorem fractionPart_ends (h : fractionPart fault cs = .ok (ds,rest)) :
    rest.length ≤ cs.length ∧ ∀ other, fractionPart other cs = .ok (ds,rest) := by
  unfold fractionPart at h ⊢
  split at h
  · obtain ⟨hlength,hother⟩ := someDigits_ends h
    exact ⟨Nat.le_succ_of_le (Nat.le_of_lt hlength),hother⟩
  · cases h
    exact ⟨Nat.le_refl _,fun _ => rfl⟩

theorem length_signed (cs : List Char) : (signed cs).2.length ≤ cs.length := by
  unfold signed
  split
  · exact Nat.le_succ _
  · exact Nat.le_succ _
  · exact Nat.le_refl _

theorem exponentPart_ends {e : Option Int} (h : exponentPart fault cs = .ok (e,rest)) :
    rest.length ≤ cs.length ∧ ∀ other, exponentPart other cs = .ok (e,rest) := by
  by_cases hhead : ∀ c ∈ cs.head?, c ∉ ['e','E']
  · rw [exponentPart_of_head hhead] at h
    cases h
    exact ⟨Nat.le_refl _,exponentPart_of_head hhead⟩
  · simp only [not_forall, not_not] at hhead
    obtain ⟨c,hc,hmark⟩ := hhead
    obtain ⟨t,rfl⟩ := List.head?_eq_some_iff.mp hc
    rw [exponentPart_mark hmark] at h
    obtain ⟨⟨ds,left⟩,hds,hleft⟩ := bind_eq_ok_iff.mp h
    obtain ⟨hlength,hother⟩ := someDigits_ends hds
    cases hleft
    have hsigned := length_signed t
    refine ⟨?_,fun other => ?_⟩
    · rw [List.length_cons]
      dsimp only at hlength ⊢
      omega
    rw [exponentPart_mark hmark]
    exact bind_eq_ok_iff.mpr ⟨_,hother other,rfl⟩

theorem numberBody_ends {n : JsonNumber} {negative : Bool}
    (h : numberBody fault negative cs = .ok (n,rest)) :
    rest.length < cs.length ∧ ∀ other negative, ∃ m, numberBody other negative cs = .ok (m,rest) := by
  obtain ⟨⟨whole,afterWhole⟩,hwhole,h⟩ := bind_eq_ok_iff.mp h
  obtain ⟨⟨ds,afterFraction⟩,hds,h⟩ := bind_eq_ok_iff.mp h
  obtain ⟨⟨e,left⟩,he,h⟩ := bind_eq_ok_iff.mp h
  cases h
  obtain ⟨hwholelength,hwhole⟩ := wholePart_ends hwhole
  obtain ⟨hdslength,hds⟩ := fractionPart_ends hds
  obtain ⟨helength,he⟩ := exponentPart_ends he
  refine ⟨by omega,fun other negative => ⟨⟨negative,whole,ds,e⟩,?_⟩⟩
  exact bind_eq_ok_iff.mpr ⟨_,hwhole other,bind_eq_ok_iff.mpr ⟨_,hds other,
    bind_eq_ok_iff.mpr ⟨_,he other,rfl⟩⟩⟩

/-- A number that is kept can be skipped. -/
theorem skipNumber_of_keptNumber {n : JsonNumber} {negative : Bool}
    (h : keptNumber negative cs = .ok (n,rest)) : skipNumber false cs = .ok rest := by
  obtain ⟨⟨m,left⟩,hm,h⟩ := bind_eq_ok_iff.mp h
  have hleft : left = rest := by
    dsimp only at h
    split at h
    · cases h
    · cases h
      rfl
  obtain ⟨_,hbody⟩ := (numberBody_ends (hleft ▸ hm)).2 .malformed false
  exact skipNumber_of_numberBody hbody

theorem length_of_skipNumber (h : skipNumber false cs = .ok rest) : rest.length < cs.length := by
  obtain ⟨⟨m,left⟩,hm,h⟩ := bind_eq_ok_iff.mp h
  cases h
  exact (numberBody_ends hm).1

end Ends

section Naturals
variable {c : Char} {cs rest : List Char} {n : Nat}

theorem digits_toDigits (n : Nat) : IsDigits (Nat.toDigits 10 n) :=
  ⟨Nat.toDigits_ne_nil,fun _ hc => Nat.isDigit_of_mem_toDigits (by decide) (by decide) hc⟩

theorem ofDigits_map (h : ∀ c ∈ cs, c.isDigit = true) (acc : Nat) :
    (cs.map digitOf).foldl (fun acc d => 10 * acc + d.val) acc = Nat.ofDigitChars 10 cs acc := by
  induction cs generalizing acc with
  | nil => rfl
  | cons c cs ih =>
    obtain ⟨hc,hcs⟩ := List.forall_mem_cons.mp h
    obtain ⟨hlow,hhigh⟩ := Char.isDigit_iff_toNat.mp hc
    have hnine : '9'.toNat = '0'.toNat + 9 := rfl
    have hval : (digitOf c).val = c.toNat - '0'.toNat := Nat.mod_eq_of_lt (by omega)
    rw [List.map_cons, List.foldl_cons, ih hcs, hval, Nat.ofDigitChars_cons]

theorem ofDigits_toDigits (n : Nat) : ofDigits ((Nat.toDigits 10 n).map digitOf) = n := by
  rw [ofDigits, ofDigits_map (digits_toDigits n).2, Nat.ofDigitChars_ten_toDigits]

theorem head?_toDigits_ne_zero (hn : 0 < n) : (Nat.toDigits 10 n).head? ≠ some '0' := by
  induction n using Nat.strongRecOn with
  | ind n ih =>
    rcases Nat.lt_or_ge n 10 with hlt | hge
    · have hdigit : ∀ n < 10, 0 < n → some n.digitChar ≠ some '0' := by decide
      rw [Nat.toDigits_of_lt_base hlt]
      exact hdigit n hlt hn
    · rw [Nat.toDigits_of_base_le (by decide) hge, List.head?_append_of_ne_nil _ Nat.toDigits_ne_nil]
      exact ih (n / 10) (by omega) (by omega)

theorem isWhole_toDigits (n : Nat) : IsWhole (Nat.toDigits 10 n) := by
  rcases Nat.eq_zero_or_pos n with rfl | hn
  · exact .inl rfl
  · exact .inr ⟨digits_toDigits n,head?_toDigits_ne_zero hn⟩

theorem isNumeral_toDigits (n : Nat) : IsNumeral (Nat.toDigits 10 n) :=
  ⟨[],_,[],[],by simp,by simp,isWhole_toDigits n,.inl rfl,.inl rfl⟩

theorem scalar_digit (h : c.isDigit = true) :
    scalar c rest = keptNumber false (c :: rest) >>= fun r => .ok (.number r.1,r.2) := by
  have hsome : (digit? c).isSome = true := by rw [digit?_of_isDigit h, Option.isSome_some]
  rw [scalar, if_neg (ne_of_isDigit h rfl), if_neg (ne_of_isDigit h rfl), if_neg (ne_of_isDigit h rfl),
    if_neg (ne_of_isDigit h rfl), if_neg (ne_of_isDigit h rfl), if_pos hsome]
  rfl

theorem numberBody_toDigits (n : Nat) (hrest : Follows rest) (fault : Fault) :
    numberBody fault false (Nat.toDigits 10 n ++ rest) = .ok (.ofNat n,rest) := by
  have hint := wholePart_append (isWhole_toDigits n) (fun c hc => (hrest c hc).1) fault
  have hfraction : fractionPart fault rest = .ok ([],rest) :=
    fractionPart_of_head (fun hpoint => (hrest '.' hpoint).2 List.mem_cons_self) fault
  have hexponent : exponentPart fault rest = .ok (none,rest) :=
    exponentPart_of_head (fun c hc hmem => (hrest c hc).2 (List.mem_cons_of_mem _ hmem)) fault
  rw [ofDigits_toDigits] at hint
  simp only [numberBody, hint, hfraction, hexponent, bind, Except.bind]
  rfl

/-- A natural number within 64 bits is kept. -/
theorem NatForm.scalar_eq (h : NatForm n cs rest) (hn : n < UInt64.size) (hrest : Follows rest) :
    ∃ c t, cs = c :: t ∧ c.isDigit = true ∧ scalar c t = .ok (.number (.ofNat n),rest) := by
  obtain ⟨c,t,hdigits,hc⟩ := (digits_toDigits n).exists_cons
  have hbody := numberBody_toDigits n hrest .ended
  obtain rfl : cs = _ := h
  rw [hdigits, List.cons_append] at hbody ⊢
  refine ⟨c,_,rfl,hc,?_⟩
  rw [scalar_digit hc, keptNumber, hbody]
  simp only [bind, Except.bind, JsonNumber.overflows_ofNat hn]
  rfl

end Naturals
end ValueInspector.Json
