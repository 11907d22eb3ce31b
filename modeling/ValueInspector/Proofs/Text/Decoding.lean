import ValueInspector.Proofs.Text.Encoding

/-! # Strict readings

A step that reads a character reads all the bytes of its sequence, and they are the bytes that encode
it: no character has two sequences. So the strict reading accepts the encoded texts and no other bytes.
-/
namespace ValueInspector.Text.Utf8

/-- What a byte announces as a lead byte, by how many bytes follow. The range of the first of them keeps
out numbers that fewer bytes carry, surrogates, and what lies behind the last character. -/
inductive Announces (b : UInt8) : Lead → Prop
  | one (hmax : b.toNat ≤ 0x7f) : Announces b ⟨0,0,0,b.toNat⟩
  | two {bits : Nat} (hb : b.toNat = bits + 0xc0) (hmin : 2 ≤ bits) (hmax : bits < 0x20) :
    Announces b ⟨1,0x80,0xBF,bits⟩
  | three {low high : UInt8} {bits : Nat} (hb : b.toNat = bits + 0xe0) (hmax : bits < 0x10)
    (hlow : 0x80 ≤ low.toNat) (hhigh : high.toNat ≤ 0xBF) (hfirst : bits = 0 → 0xA0 ≤ low.toNat)
    (hlast : bits = 0xD → high.toNat ≤ 0x9F) : Announces b ⟨2,low,high,bits⟩
  | four {low high : UInt8} {bits : Nat} (hb : b.toNat = bits + 0xf0) (hmax : bits ≤ 4)
    (hlow : 0x80 ≤ low.toNat) (hhigh : high.toNat ≤ 0xBF) (hfirst : bits = 0 → 0x90 ≤ low.toNat)
    (hlast : bits = 4 → high.toNat ≤ 0x8F) : Announces b ⟨3,low,high,bits⟩

theorem announces_of_lead? {b : UInt8} {l : Lead} (h : lead? b = some l) : Announces b l := by
  unfold lead? at h
  dsimp only at h
  split at h
  · cases h
    exact .one (by omega)
  split at h
  · cases h
  split at h
  · cases h
    exact .two (by omega) (by omega) (by omega)
  split at h
  · cases h
    exact .three (by omega) (by decide) (by decide) (by decide) (by decide) (by decide)
  split at h
  · cases h
    exact .three (by omega) (by decide) (by decide) (by decide) (by decide) (by decide)
  split at h
  · cases h
    exact .three (by omega) (by omega) (by decide) (by decide) (by omega) (by omega)
  split at h
  · cases h
    exact .four (by omega) (by decide) (by decide) (by decide) (by decide) (by decide)
  split at h
  · cases h
    exact .four (by omega) (by omega) (by decide) (by decide) (by omega) (by omega)
  split at h
  · cases h
    exact .four (by omega) (by decide) (by decide) (by decide) (by decide) (by decide)
  · cases h

theorem toNat_ofNat_char {n : Nat} (h : n.isValidChar) : (Char.ofNat n).val.toNat = n := by
  rw [Char.ofNat, dif_pos h]
  rfl

theorem utf8EncodeChar_ofNat {v : Nat} (h : v.isValidChar) :
    String.utf8EncodeChar (Char.ofNat v) =
      if v ≤ 0x7f then [UInt8.ofNat v]
      else if v ≤ 0x7ff then [UInt8.ofNat (v / 64 % 0x20 + 0xc0),tailByte v]
      else if v ≤ 0xffff then
        [UInt8.ofNat (v / 4096 % 0x10 + 0xe0),tailByte (v / 64),tailByte v]
      else
        [UInt8.ofNat (v / 262144 % 0x08 + 0xf0),tailByte (v / 4096),tailByte (v / 64),
          tailByte v] := by
  unfold String.utf8EncodeChar
  dsimp only
  rw [toNat_ofNat_char h]
  rfl

theorem ofNat_eq_of_toNat {b : UInt8} {n : Nat} (h : n = b.toNat) : UInt8.ofNat n = b := by
  rw [h, UInt8.ofNat_toNat]

theorem tailByte_eq_of_toNat {b : UInt8} {n : Nat} (h : n % 0x40 + 0x80 = b.toNat) :
    tailByte n = b := ofNat_eq_of_toNat h

section Sequences
variable {b t u w : UInt8} {bits n : Nat}

theorem utf8EncodeChar_one (hb : b.toNat = n) (hmax : n ≤ 0x7f) :
    String.utf8EncodeChar (Char.ofNat n) = [b] := by
  rw [utf8EncodeChar_ofNat (.inl (by omega)), if_pos hmax, ofNat_eq_of_toNat hb.symm]

theorem utf8EncodeChar_two (hn : 64 * bits + (t.toNat - 0x80) = n) (hb : b.toNat = bits + 0xc0)
    (hmin : 2 ≤ bits) (hmax : bits < 0x20) (ht : 0x80 ≤ t.toNat) (ht' : t.toNat ≤ 0xBF) :
    String.utf8EncodeChar (Char.ofNat n) = [b,t] := by
  rw [utf8EncodeChar_ofNat (.inl (by omega)), if_neg (by omega), if_pos (by omega)]
  exact congrArg₂ (fun b t => [b,t]) (ofNat_eq_of_toNat (by omega)) (tailByte_eq_of_toNat (by omega))

theorem utf8EncodeChar_three (hn : 64 * (64 * bits + (t.toNat - 0x80)) + (u.toNat - 0x80) = n)
    (hb : b.toNat = bits + 0xe0) (hmax : bits < 0x10) (ht : 0x80 ≤ t.toNat) (ht' : t.toNat ≤ 0xBF)
    (hfirst : bits = 0 → 0xA0 ≤ t.toNat) (hlast : bits = 0xD → t.toNat ≤ 0x9F)
    (hu : 0x80 ≤ u.toNat) (hu' : u.toNat ≤ 0xBF) :
    String.utf8EncodeChar (Char.ofNat n) = [b,t,u] := by
  have hvalid : n.isValidChar := by
    unfold Nat.isValidChar
    omega
  rw [utf8EncodeChar_ofNat hvalid, if_neg (by omega), if_neg (by omega), if_pos (by omega)]
  have htail : [tailByte (n / 64),tailByte n] = [t,u] :=
    congrArg₂ (fun t u => [t,u]) (tailByte_eq_of_toNat (by omega)) (tailByte_eq_of_toNat (by omega))
  exact congrArg₂ List.cons (ofNat_eq_of_toNat (by omega)) htail

theorem utf8EncodeChar_four
    (hn : 64 * (64 * (64 * bits + (t.toNat - 0x80)) + (u.toNat - 0x80)) + (w.toNat - 0x80) = n)
    (hb : b.toNat = bits + 0xf0) (hmax : bits ≤ 4) (ht : 0x80 ≤ t.toNat) (ht' : t.toNat ≤ 0xBF)
    (hfirst : bits = 0 → 0x90 ≤ t.toNat) (hlast : bits = 4 → t.toNat ≤ 0x8F)
    (hu : 0x80 ≤ u.toNat) (hu' : u.toNat ≤ 0xBF) (hw : 0x80 ≤ w.toNat) (hw' : w.toNat ≤ 0xBF) :
    String.utf8EncodeChar (Char.ofNat n) = [b,t,u,w] := by
  have hvalid : n.isValidChar := by
    unfold Nat.isValidChar
    omega
  rw [utf8EncodeChar_ofNat hvalid, if_neg (by omega), if_neg (by omega), if_neg (by omega)]
  have htail : [tailByte (n / 64),tailByte n] = [u,w] :=
    congrArg₂ (fun u w => [u,w]) (tailByte_eq_of_toNat (by omega)) (tailByte_eq_of_toNat (by omega))
  exact congrArg₂ List.cons (ofNat_eq_of_toNat (by omega))
    (congrArg₂ List.cons (tailByte_eq_of_toNat (by omega)) htail)

end Sequences

theorem payload_cons (bits : Nat) (b : UInt8) (tail : List UInt8) :
    payload bits (b :: tail) = payload (64 * bits + (b.toNat - 0x80)) tail := by
  rw [payload, List.foldl_cons, payload]

theorem Continues.toNat_tail {low high b : UInt8} {tail : List UInt8}
    (h : Continues low high (b :: tail)) :
    low.toNat ≤ b.toNat ∧ b.toNat ≤ high.toNat ∧ Continues 0x80 0xBF tail :=
  ⟨UInt8.le_iff_toNat_le.mp h.1.1,UInt8.le_iff_toNat_le.mp h.1.2,h.2⟩

/-- A sequence that stands for a number is the one that encodes its character. -/
theorem StandsFor.utf8EncodeChar_eq {b : UInt8} {tail : List UInt8} {n : Nat}
    (h : StandsFor b tail n) : String.utf8EncodeChar (Char.ofNat n) = b :: tail := by
  obtain ⟨l,hlead,hfollow,hcontinues,hpayload⟩ := h
  cases announces_of_lead? hlead with
  | one hmax =>
    obtain rfl := List.eq_nil_of_length_eq_zero hfollow.symm
    rw [payload_nil] at hpayload
    exact utf8EncodeChar_one hpayload (hpayload ▸ hmax)
  | two hb hmin hmax =>
    obtain ⟨t,rfl⟩ := List.length_eq_one_iff.mp hfollow.symm
    rw [payload_cons, payload_nil] at hpayload
    obtain ⟨ht,ht',_⟩ := hcontinues.toNat_tail
    exact utf8EncodeChar_two hpayload hb hmin hmax ht ht'
  | three hb hmax hlow hhigh hfirst hlast =>
    obtain ⟨t,u,rfl⟩ := List.length_eq_two.mp hfollow.symm
    rw [payload_cons, payload_cons, payload_nil] at hpayload
    obtain ⟨ht,ht',hrest⟩ := hcontinues.toNat_tail
    obtain ⟨hu,hu',_⟩ := hrest.toNat_tail
    exact utf8EncodeChar_three hpayload hb hmax (Nat.le_trans hlow ht) (Nat.le_trans ht' hhigh)
      (fun hbits => Nat.le_trans (hfirst hbits) ht) (fun hbits => Nat.le_trans ht' (hlast hbits))
      hu hu'
  | four hb hmax hlow hhigh hfirst hlast =>
    obtain ⟨t,u,w,rfl⟩ := List.length_eq_three.mp hfollow.symm
    rw [payload_cons, payload_cons, payload_cons, payload_nil] at hpayload
    obtain ⟨ht,ht',hrest⟩ := hcontinues.toNat_tail
    obtain ⟨hu,hu',hrest⟩ := hrest.toNat_tail
    obtain ⟨hw,hw',_⟩ := hrest.toNat_tail
    exact utf8EncodeChar_four hpayload hb hmax (Nat.le_trans hlow ht) (Nat.le_trans ht' hhigh)
      (fun hbits => Nat.le_trans (hfirst hbits) ht) (fun hbits => Nat.le_trans ht' (hlast hbits))
      hu hu' hw hw'

/-- Continuation bytes that make up a character continue the sequence. -/
theorem exists_of_continuation {low high : UInt8} {bits follow : Nat} {rest tail : List UInt8}
    {c : Char} (h : continuation low high bits follow rest = .char c tail) :
    ∃ taken, rest = taken ++ tail ∧ taken.length = follow ∧ Continues low high taken ∧
      c = Char.ofNat (payload bits taken) := by
  induction follow generalizing low high bits rest with
  | zero =>
    rw [continuation] at h
    obtain ⟨rfl,rfl⟩ := Step.char.inj h
    exact ⟨[],rfl,rfl,trivial,by rw [payload_nil]⟩
  | succ follow ih =>
    cases rest with
    | nil => cases h
    | cons b rest =>
      rw [continuation] at h
      split at h
      next hb =>
        obtain ⟨taken,rfl,hlength,hcontinues,rfl⟩ := ih h
        exact ⟨b :: taken,rfl,congrArg (· + 1) hlength,⟨hb,hcontinues⟩,by rw [payload_cons]⟩
      · cases h

theorem cons_eq_of_step {b : UInt8} {rest tail : List UInt8} {c : Char}
    (h : step b rest = .char c tail) : b :: rest = String.utf8EncodeChar c ++ tail := by
  rw [step] at h
  cases hlead : lead? b with
  | none =>
    rw [hlead] at h
    cases h
  | some l =>
    rw [hlead] at h
    -- the bytes taken stand for the character, and no other bytes encode it
    obtain ⟨taken,rfl,hlength,hcontinues,rfl⟩ := exists_of_continuation h
    have hsequence : StandsFor b taken (payload l.bits taken) :=
      ⟨l,hlead,hlength.symm,hcontinues,rfl⟩
    rw [hsequence.utf8EncodeChar_eq, List.cons_append]

theorem eq_of_strictLoop {count : Nat} {bytes : List UInt8} {acc cs : List Char}
    (h : strictLoop count bytes acc = some cs) :
    ∃ more, cs = acc.reverse ++ more ∧ bytes = more.flatMap String.utf8EncodeChar := by
  induction count generalizing bytes acc with
  | zero =>
    rw [strictLoop] at h
    split at h
    next hbytes =>
      refine ⟨[],?_,List.isEmpty_iff.mp hbytes⟩
      rw [List.append_nil, Option.some.inj h]
    · cases h
  | succ count ih =>
    cases bytes with
    | nil =>
      refine ⟨[],?_,rfl⟩
      rw [strictLoop] at h
      rw [List.append_nil, Option.some.inj h]
    | cons b rest =>
      rw [strictLoop] at h
      cases hstep : step b rest with
      | illFormed tail =>
        rw [hstep] at h
        cases h
      | char c tail =>
        rw [hstep] at h
        obtain ⟨more,hcs,rfl⟩ := ih h
        refine ⟨c :: more,?_,?_⟩
        · rw [hcs, List.reverse_cons, List.append_assoc, List.singleton_append]
        · rw [cons_eq_of_step hstep, List.flatMap_cons]

theorem strictLoop_flatMap (count : Nat) (cs acc : List Char) :
    strictLoop (count + cs.length) (cs.flatMap String.utf8EncodeChar) acc =
      some (acc.reverse ++ cs) := by
  induction cs generalizing acc with
  | nil =>
    rw [List.flatMap_nil, List.append_nil]
    cases count <;> rfl
  | cons c cs ih =>
    obtain ⟨b,tail,hbytes,hsequence⟩ := exists_standsFor c
    rw [List.flatMap_cons, hbytes, List.cons_append, List.length_cons, ← Nat.add_assoc, strictLoop,
      hsequence.step_append, Char.ofNat_toNat]
    dsimp only
    rw [ih, List.reverse_cons, List.append_assoc, List.singleton_append]

/-- The strict reading accepts a byte string exactly if it encodes a text, and reads that text. -/
theorem decode?_eq_some_iff {bytes : List UInt8} {s : String} :
    decode? bytes = some s ↔ bytes = encode s := by
  constructor
  · intro h
    obtain ⟨cs,hcs,rfl⟩ := Option.map_eq_some_iff.mp h
    obtain ⟨more,rfl,rfl⟩ := eq_of_strictLoop hcs
    rw [encode_eq, String.toList_ofList]
  · rintro rfl
    obtain ⟨count,hcount⟩ := Nat.exists_eq_add_of_le' (length_le_length_encode s)
    rw [decode?, hcount, encode_eq, strictLoop_flatMap, Option.map_some, List.reverse_nil,
      List.nil_append, String.ofList_toList]

end ValueInspector.Text.Utf8
