import ValueInspector.Proofs.Text.Utf8

/-! # Reading encoded texts

The bytes of a character are one sequence: a lead byte that announces how many follow, and bytes that
carry six bits each. A step reads all of them, whatever comes next, so an encoded text is read back as
it was. If it is cut at some number of bytes, the characters that fit in are read, and what is left of
one that does not is one ill-formed part and shows as one replacement character.
-/
namespace ValueInspector.Text.Utf8

/-- The bytes continue a sequence, the first of them between the two bounds. -/
def Continues (low high : UInt8) : List UInt8 → Prop
  | [] => True
  | b :: tail => (low ≤ b ∧ b ≤ high) ∧ Continues 0x80 0xBF tail

/-- The bits of a sequence: those so far, and six more of each byte that follows. -/
def payload (bits : Nat) (tail : List UInt8) : Nat :=
  tail.foldl (fun value b => 64 * value + (b.toNat - 0x80)) bits

theorem continuation_append {low high : UInt8} {tail : List UInt8} (h : Continues low high tail)
    (bits : Nat) (rest : List UInt8) :
    continuation low high bits tail.length (tail ++ rest) =
      .char (Char.ofNat (payload bits tail)) rest := by
  induction tail generalizing low high bits with
  | nil => rw [List.length_nil, List.nil_append, continuation, payload, List.foldl_nil]
  | cons b tail ih =>
    rw [List.length_cons, List.cons_append, continuation, if_pos h.1, ih h.2]
    rw [payload, payload, List.foldl_cons]

theorem continuation_take {low high : UInt8} {tail : List UInt8} (h : Continues low high tail)
    (bits : Nat) {n : Nat} (hn : n < tail.length) :
    continuation low high bits tail.length (tail.take n) = .illFormed [] := by
  induction tail generalizing low high bits n with
  | nil => exact absurd hn (Nat.not_lt_zero n)
  | cons b tail ih =>
    cases n with
    | zero => rw [List.length_cons, List.take_zero, continuation]
    | succ n =>
      rw [List.length_cons, List.take_succ_cons, continuation, if_pos h.1]
      exact ih h.2 _ (Nat.lt_of_succ_lt_succ hn)

theorem lead?_ofNat {n : Nat} (hn : n < 256) : lead? (UInt8.ofNat n) =
    if n < 0x80 then some ⟨0,0,0,n⟩
    else if n < 0xC2 then none
    else if n < 0xE0 then some ⟨1,0x80,0xBF,n - 0xC0⟩
    else if n = 0xE0 then some ⟨2,0xA0,0xBF,0⟩
    else if n = 0xED then some ⟨2,0x80,0x9F,0xD⟩
    else if n < 0xF0 then some ⟨2,0x80,0xBF,n - 0xE0⟩
    else if n = 0xF0 then some ⟨3,0x90,0xBF,0⟩
    else if n < 0xF4 then some ⟨3,0x80,0xBF,n - 0xF0⟩
    else if n = 0xF4 then some ⟨3,0x80,0x8F,4⟩
    else none := by
  rw [lead?, UInt8.toNat_ofNat', Nat.mod_eq_of_lt hn]

/-- A byte leads a sequence over some others, which together stand for a number. -/
def StandsFor (b : UInt8) (tail : List UInt8) (n : Nat) : Prop :=
  ∃ l, lead? b = some l ∧ l.follow = tail.length ∧ Continues l.low l.high tail ∧
    payload l.bits tail = n

/-- The byte that carries the lowest six bits of a number on. -/
def tailByte (n : Nat) : UInt8 := UInt8.ofNat (n % 0x40 + 0x80)

theorem toNat_tailByte (n : Nat) : (tailByte n).toNat = n % 0x40 + 0x80 := by
  rw [tailByte, UInt8.toNat_ofNat', Nat.mod_eq_of_lt (by omega)]

/-- It continues any sequence whose bounds on the next byte admit the six bits. -/
theorem continues_tailByte {low high : UInt8} {n : Nat} {tail : List UInt8}
    (hlow : low.toNat ≤ n % 0x40 + 0x80) (hhigh : n % 0x40 + 0x80 ≤ high.toNat)
    (htail : Continues 0x80 0xBF tail) : Continues low high (tailByte n :: tail) := by
  refine ⟨⟨UInt8.le_iff_toNat_le.mpr ?_,UInt8.le_iff_toNat_le.mpr ?_⟩,htail⟩
  · rwa [toNat_tailByte]
  · rwa [toNat_tailByte]

theorem continues_tailByte_of_free {n : Nat} {tail : List UInt8}
    (htail : Continues 0x80 0xBF tail) : Continues 0x80 0xBF (tailByte n :: tail) := by
  refine continues_tailByte ?_ ?_ htail
  · exact Nat.le_add_left 0x80 _
  · change n % 0x40 + 0x80 ≤ 0xBF
    omega

theorem payload_tailByte (bits n : Nat) (tail : List UInt8) :
    payload bits (tailByte n :: tail) = payload (64 * bits + n % 0x40) tail := by
  rw [payload, List.foldl_cons, toNat_tailByte, Nat.add_sub_cancel, payload]

theorem payload_nil (bits : Nat) : payload bits [] = bits := by rw [payload, List.foldl_nil]

section Lengths
variable {v : Nat}

theorem standsFor_one (h : v ≤ 0x7f) : StandsFor (UInt8.ofNat v) [] v := by
  refine ⟨⟨0,0,0,v⟩,?_,rfl,trivial,payload_nil v⟩
  rw [lead?_ofNat (by omega), if_pos (by omega)]

theorem standsFor_two (h : 0x7f < v) (h' : v ≤ 0x7ff) :
    StandsFor (UInt8.ofNat (v / 64 % 0x20 + 0xc0)) [tailByte v] v := by
  have hbits : payload (v / 64) [tailByte v] = v := by
    rw [payload_tailByte, payload_nil]
    omega
  have hlead : v / 64 % 0x20 + 0xc0 - 0xC0 = v / 64 := by omega
  rw [StandsFor, lead?_ofNat (by omega), if_neg (by omega), if_neg (by omega), if_pos (by omega),
    hlead]
  exact ⟨_,rfl,rfl,continues_tailByte_of_free trivial,hbits⟩

theorem standsFor_three (h : 0x7ff < v) (h' : v ≤ 0xffff) (hvalid : v < 0xD800 ∨ 0xDFFF < v) :
    StandsFor (UInt8.ofNat (v / 4096 % 0x10 + 0xe0)) [tailByte (v / 64),tailByte v] v := by
  have htail : Continues 0x80 0xBF [tailByte v] := continues_tailByte_of_free trivial
  have hbits : payload (v / 4096) [tailByte (v / 64),tailByte v] = v := by
    rw [payload_tailByte, payload_tailByte, payload_nil]
    omega
  rw [StandsFor, lead?_ofNat (by omega), if_neg (by omega), if_neg (by omega), if_neg (by omega)]
  by_cases hfirst : v / 4096 = 0
  · rw [if_pos (by omega)]
    rw [hfirst] at hbits
    refine ⟨_,rfl,rfl,continues_tailByte ?_ ?_ htail,hbits⟩
    · change 0xA0 ≤ _
      omega
    · change _ ≤ 0xBF
      omega
  rw [if_neg (by omega)]
  by_cases hlast : v / 4096 = 0xD
  · rw [if_pos (by omega)]
    rw [hlast] at hbits
    refine ⟨_,rfl,rfl,continues_tailByte ?_ ?_ htail,hbits⟩
    · change 0x80 ≤ _
      omega
    · change _ ≤ 0x9F
      omega
  · have hlead : v / 4096 % 0x10 + 0xe0 - 0xE0 = v / 4096 := by omega
    rw [if_neg (by omega), if_pos (by omega), hlead]
    exact ⟨_,rfl,rfl,continues_tailByte_of_free htail,hbits⟩

theorem standsFor_four (h : 0xffff < v) (h' : v < 0x110000) :
    StandsFor (UInt8.ofNat (v / 262144 % 0x08 + 0xf0))
      [tailByte (v / 4096),tailByte (v / 64),tailByte v] v := by
  have htail : Continues 0x80 0xBF [tailByte (v / 64),tailByte v] :=
    continues_tailByte_of_free (continues_tailByte_of_free trivial)
  have hbits : payload (v / 262144) [tailByte (v / 4096),tailByte (v / 64),tailByte v] = v := by
    rw [payload_tailByte, payload_tailByte, payload_tailByte, payload_nil]
    omega
  rw [StandsFor, lead?_ofNat (by omega), if_neg (by omega), if_neg (by omega), if_neg (by omega),
    if_neg (by omega), if_neg (by omega), if_neg (by omega)]
  by_cases hfirst : v / 262144 = 0
  · rw [if_pos (by omega)]
    rw [hfirst] at hbits
    refine ⟨_,rfl,rfl,continues_tailByte ?_ ?_ htail,hbits⟩
    · change 0x90 ≤ _
      omega
    · change _ ≤ 0xBF
      omega
  rw [if_neg (by omega)]
  by_cases hlast : v / 262144 = 4
  · rw [if_neg (by omega), if_pos (by omega)]
    rw [hlast] at hbits
    refine ⟨_,rfl,rfl,continues_tailByte ?_ ?_ htail,hbits⟩
    · change 0x80 ≤ _
      omega
    · change _ ≤ 0x8F
      omega
  · have hlead : v / 262144 % 0x08 + 0xf0 - 0xF0 = v / 262144 := by omega
    rw [if_pos (by omega), hlead]
    exact ⟨_,rfl,rfl,continues_tailByte_of_free htail,hbits⟩

end Lengths

/-- The bytes of a character are one sequence that stands for it. -/
theorem exists_standsFor (c : Char) :
    ∃ b tail, String.utf8EncodeChar c = b :: tail ∧ StandsFor b tail c.toNat := by
  have hvalid : c.val.toNat < 0xD800 ∨ 0xDFFF < c.val.toNat ∧ c.val.toNat < 0x110000 := c.valid
  change ∃ b tail, _ ∧ StandsFor b tail c.val.toNat
  unfold String.utf8EncodeChar
  dsimp only
  by_cases hone : c.val.toNat ≤ 0x7f
  · rw [if_pos hone]
    exact ⟨_,_,rfl,standsFor_one hone⟩
  by_cases htwo : c.val.toNat ≤ 0x7ff
  · rw [if_neg hone, if_pos htwo]
    exact ⟨_,_,rfl,standsFor_two (by omega) htwo⟩
  by_cases hthree : c.val.toNat ≤ 0xffff
  · rw [if_neg hone, if_neg htwo, if_pos hthree]
    exact ⟨_,_,rfl,standsFor_three (by omega) hthree (by omega)⟩
  · rw [if_neg hone, if_neg htwo, if_neg hthree]
    exact ⟨_,_,rfl,standsFor_four (by omega) (by omega)⟩

section Step
variable {b : UInt8} {tail : List UInt8} {n : Nat} (h : StandsFor b tail n)
include h

/-- A step reads a whole sequence, whatever follows it. -/
theorem StandsFor.step_append (rest : List UInt8) :
    step b (tail ++ rest) = .char (Char.ofNat n) rest := by
  obtain ⟨l,hlead,hfollow,hcontinues,rfl⟩ := h
  rw [step, hlead]
  dsimp only
  rw [hfollow, continuation_append hcontinues]

/-- A sequence that is cut short is one ill-formed part. -/
theorem StandsFor.step_take {k : Nat} (hk : k < tail.length) :
    step b (tail.take k) = .illFormed [] := by
  obtain ⟨l,hlead,hfollow,hcontinues,rfl⟩ := h
  rw [step, hlead]
  dsimp only
  rw [hfollow, continuation_take hcontinues _ hk]

end Step

/-- The bytes of characters, one after the other. -/
theorem encode_eq (s : String) : encode s = s.toList.flatMap String.utf8EncodeChar := by
  conv_lhs => rw [← String.ofList_toList (s := s)]
  rw [encode, String.toUTF8_eq_toByteArray, String.toByteArray_ofList, List.utf8Encode,
    List.data_toByteArray]

theorem encode_append (s t : String) : encode (s ++ t) = encode s ++ encode t := by
  rw [encode_eq, encode_eq, encode_eq, String.toList_append, List.flatMap_append]

theorem length_le_length_encode (s : String) : s.toList.length ≤ (encode s).length := by
  rw [encode_eq]
  induction s.toList with
  | nil => exact Nat.le_refl 0
  | cons c cs ih =>
    have hpos := c.utf8Size_pos
    rw [List.flatMap_cons, List.length_append, String.length_utf8EncodeChar, List.length_cons]
    omega

theorem length_encode_replicate (n : Nat) (c : Char) :
    (encode (.ofList (List.replicate n c))).length = n * c.utf8Size := by
  rw [encode_eq, String.toList_ofList]
  induction n with
  | zero => rw [Nat.zero_mul, List.replicate_zero, List.flatMap_nil, List.length_nil]
  | succ n ih =>
    rw [List.replicate_succ, List.flatMap_cons, List.length_append, String.length_utf8EncodeChar, ih,
      Nat.succ_mul, Nat.add_comm]

theorem encode_eq_nil_iff {s : String} : encode s = [] ↔ s = "" := by
  constructor
  · intro h
    have hle := length_le_length_encode s
    rw [h] at hle
    exact String.toList_eq_nil_iff.mp (List.eq_nil_of_length_eq_zero (Nat.le_zero.mp hle))
  · rintro rfl
    rfl

theorem one_le_length_encode {s : String} (h : s ≠ "") : 1 ≤ (encode s).length := by
  rw [Nat.one_le_iff_ne_zero, Ne, List.length_eq_zero_iff, encode_eq_nil_iff]
  exact h

theorem lossyLoop_nil (count : Nat) (acc : List Char) : lossyLoop count [] acc = acc.reverse := by
  cases count <;> rfl

/-- One step is taken for each character of an encoded text, whatever follows it. -/
theorem lossyLoop_encode (count : Nat) (s : String) (rest : List UInt8) (acc : List Char) :
    lossyLoop (count + s.toList.length) (encode s ++ rest) acc =
      lossyLoop count rest (s.toList.reverse ++ acc) := by
  rw [encode_eq]
  induction s.toList generalizing acc with
  | nil => rfl
  | cons c cs ih =>
    obtain ⟨b,tail,hbytes,hsequence⟩ := exists_standsFor c
    rw [List.flatMap_cons, hbytes, List.cons_append, List.cons_append, List.append_assoc,
      List.length_cons, ← Nat.add_assoc, lossyLoop_cons, hsequence.step_append, Step.rest, Step.shown,
      Char.ofNat_toNat, ih, List.reverse_cons, List.append_assoc, List.singleton_append]

/-- An encoded text is read back. -/
theorem decodeLossy_encode (s : String) : decodeLossy (encode s) = s := by
  obtain ⟨count,hcount⟩ := Nat.exists_eq_add_of_le' (length_le_length_encode s)
  have hread := lossyLoop_encode count s [] []
  rw [List.append_nil, lossyLoop_nil, List.append_nil, List.reverse_reverse] at hread
  rw [decodeLossy, hcount, hread, String.ofList_toList]

/-- A text parted at the last place where no more than some number of bytes lie before it. -/
structure CutAt (limit : Nat) (s kept rest : String) : Prop where
  append_eq : kept ++ rest = s
  fits : (encode kept).length ≤ limit
  next : ∀ c ∈ rest.toList.head?, limit < (encode kept).length + c.utf8Size

/-- A character goes before the cut as long as it fits. -/
theorem exists_cutAt (limit : Nat) (s : String) : ∃ kept rest, CutAt limit s kept rest := by
  suffices h : ∀ cs : List Char, ∃ kept rest : List Char, kept ++ rest = cs ∧
      (kept.flatMap String.utf8EncodeChar).length ≤ limit ∧
      ∀ c ∈ rest.head?, limit < (kept.flatMap String.utf8EncodeChar).length + c.utf8Size by
    obtain ⟨kept,rest,happend,hfits,hnext⟩ := h s.toList
    refine ⟨.ofList kept,.ofList rest,?_,?_,?_⟩
    · rw [← String.ofList_append, happend, String.ofList_toList]
    · rwa [encode_eq, String.toList_ofList]
    · rwa [encode_eq, String.toList_ofList, String.toList_ofList]
  intro cs
  induction cs generalizing limit with
  | nil => exact ⟨[],[],rfl,Nat.zero_le _,nofun⟩
  | cons c cs ih =>
    by_cases hc : c.utf8Size ≤ limit
    · obtain ⟨kept,rest,happend,hfits,hnext⟩ := ih (limit - c.utf8Size)
      refine ⟨c :: kept,rest,by rw [List.cons_append, happend],?_,fun d hd => ?_⟩
      · rw [List.flatMap_cons, List.length_append, String.length_utf8EncodeChar]
        omega
      · have hlt := hnext d hd
        rw [List.flatMap_cons, List.length_append, String.length_utf8EncodeChar]
        omega
    · refine ⟨[],c :: cs,rfl,Nat.zero_le _,fun d hd => ?_⟩
      obtain rfl := Option.some.inj hd
      exact Nat.lt_add_left _ (Nat.not_le.mp hc)

/-- Where a text that repeats one character is parted. -/
theorem cutAt_replicate {limit k : Nat} {c : Char} (n : Nat) (hfits : k * c.utf8Size ≤ limit)
    (hnext : limit < (k + 1) * c.utf8Size) :
    CutAt limit (.ofList (List.replicate (k + n) c)) (.ofList (List.replicate k c))
      (.ofList (List.replicate n c)) where
  append_eq := by rw [← String.ofList_append, List.replicate_append_replicate]
  fits := by rwa [length_encode_replicate]
  next d hd := by
    rw [String.toList_ofList] at hd
    rw [List.eq_of_mem_replicate (List.mem_of_mem_head? hd), length_encode_replicate]
    rwa [Nat.succ_mul] at hnext

/-- The start of a sequence at the end of an encoded text shows as one replacement character. -/
theorem decodeLossy_encode_append_take {b : UInt8} {tail : List UInt8} {n k : Nat} (s : String)
    (h : StandsFor b tail n) (hk : k < tail.length) :
    decodeLossy (encode s ++ b :: tail.take k) = s.push '\uFFFD' := by
  obtain ⟨count,hcount⟩ := Nat.exists_eq_add_of_le' (length_le_length_encode s)
  have hlength : (encode s ++ b :: tail.take k).length =
      count + (tail.take k).length + 1 + s.toList.length := by
    rw [List.length_append, List.length_cons, hcount]
    omega
  rw [decodeLossy, hlength, lossyLoop_encode, lossyLoop_cons, h.step_take hk, Step.rest, Step.shown,
    lossyLoop_nil, List.append_nil, List.reverse_cons, List.reverse_reverse, ← String.toList_inj,
    String.toList_ofList, String.toList_push]

/-- The bytes of a text up to some number of them: the characters that fit in are read, and what is
left of the next one shows as one replacement character. -/
theorem CutAt.decodeLossy_take {limit : Nat} {s kept rest : String} (h : CutAt limit s kept rest)
    (hlimit : limit ≤ (encode s).length) :
    decodeLossy ((encode s).take limit) =
      if (encode kept).length = limit then kept else kept.push '\uFFFD' := by
  have hfits := h.fits
  rw [← h.append_eq, encode_append, List.length_append] at hlimit
  rw [← h.append_eq, encode_append, List.take_append, List.take_of_length_le hfits]
  obtain ⟨k,hk⟩ := Nat.exists_eq_add_of_le hfits
  rw [hk, Nat.add_sub_cancel_left]
  cases k with
  | zero => rw [List.take_zero, List.append_nil, decodeLossy_encode, Nat.add_zero, if_pos rfl]
  | succ k =>
    rw [if_neg (by omega)]
    cases hrest : rest.toList with
    | nil =>
      rw [encode_eq rest, hrest, List.flatMap_nil, List.length_nil] at hlimit
      omega
    | cons c cs =>
      obtain ⟨b,tail,hbytes,hsequence⟩ := exists_standsFor c
      have hnext := h.next c (by rw [hrest]; rfl)
      rw [← String.length_utf8EncodeChar, hbytes, List.length_cons] at hnext
      have hlt : k < tail.length := by omega
      rw [encode_eq rest, hrest, List.flatMap_cons, hbytes, List.cons_append, List.take_succ_cons,
        List.take_append_of_le_length (Nat.le_of_lt hlt)]
      exact decodeLossy_encode_append_take kept hsequence hlt

/-- That is the start of the text, unless the replacement character is one too many. -/
theorem CutAt.prefix_iff {limit : Nat} {s kept rest : String} (h : CutAt limit s kept rest) :
    ((if (encode kept).length = limit then kept else kept.push '\uFFFD').toList <+: s.toList) ↔
      (encode kept).length = limit ∨ rest.toList.head? = some '\uFFFD' := by
  rw [← h.append_eq, String.toList_append]
  by_cases hlimit : (encode kept).length = limit
  · rw [if_pos hlimit]
    exact iff_of_true (List.prefix_append _ _) (.inl hlimit)
  · rw [if_neg hlimit, String.toList_push, List.prefix_append_right_inj, or_iff_right hlimit]
    cases rest.toList with
    | nil => simp
    | cons c cs => simp [eq_comm]

end ValueInspector.Text.Utf8
