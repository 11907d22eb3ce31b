import ValueInspector.Proofs.Memory.Contents
import ValueInspector.Proofs.Snapshot.SingleLine
import ValueInspector.Proofs.Text.Encoding

/-! # Texts that are written to memory

A text is written as a header with the address and the number of its bytes, and these bytes. If it is
not longer than what is read at most, it is read back as it was. Of a longer one the characters that
fit are read; a character that the cut parts shows as a replacement character, which need not be in
the text.
-/
namespace ValueInspector

theorem Cursor.word_append {front : List UInt8} {width : Nat} (h : front.length = width)
    (rest : List UInt8) (address : Nat) :
    (⟨front ++ rest,address⟩ : Cursor).word width =
      .ok (littleEndian front,⟨rest,address + width⟩) := by
  subst h
  rw [word, if_neg (by simp), List.take_left, List.drop_left]

theorem Cursor.single_append {front : List UInt8} {width : Nat} (h : front.length = width)
    (rest : List UInt8) (address : Nat) :
    (⟨front ++ rest,address⟩ : Cursor).single width = .ok (littleEndian front) := by
  rw [single, word_append h]
  rfl

/-- The address of the bytes of a text, and how many there are. -/
def textHeader (data length : UInt64) : List UInt8 :=
  toLittleEndian 8 data.toNat ++ toLittleEndian 8 length.toNat

theorem length_textHeader (data length : UInt64) :
    (textHeader data length).length = textHeaderSize := by
  rw [textHeader, List.length_append, length_toLittleEndian, length_toLittleEndian, textHeaderSize]

theorem Cursor.word_textHeader (data length address : UInt64) :
    (ofBytes (textHeader data length) address).word 8 =
      .ok (data.toNat,⟨toLittleEndian 8 length.toNat,address.toNat + 8⟩) := by
  rw [ofBytes, textHeader, word_append (length_toLittleEndian _ _),
    littleEndian_toLittleEndian data.toNat_lt_size]

theorem Cursor.single_toLittleEndian (w : UInt64) (address : Nat) :
    (⟨toLittleEndian 8 w.toNat,address⟩ : Cursor).single 8 = .ok w.toNat := by
  have hword := single_append (length_toLittleEndian 8 w.toNat) [] address
  rwa [List.append_nil, littleEndian_toLittleEndian w.toNat_lt_size] at hword

namespace Snapshot
variable {s : Snapshot} {v : RawValue} {data length : UInt64}

/-- Values of the type are texts. -/
def IsText (s : Snapshot) (ty : TypeDesc) : Prop :=
  ty.isPointer = false ∧ ∃ name, s.entries[ty.id.toNat]? = some ⟨name,.text⟩

theorem formatValue_of_isText (h : s.IsText v.ty) :
    s.formatValue v = Text.Utf8.decodeLossy <$> s.textData v := by
  obtain ⟨hplain,name,hentry⟩ := h
  rw [formatValue, hplain, typeDef, hentry, ← readText_eq]
  rfl

section Stored
variable (hs : s.memory.Stacked)
include hs

/-- What a header says: no bytes are read for an empty text, and a limited number for any other. -/
theorem textData_of_header (h : s.memory.Shows v.address (textHeader data length)) :
    s.textData v =
      if length.toNat = 0 then .ok [] else s.memory.read data (min length.toNat maxTextBytes) := by
  have hheader := (hs.read_eq_ok_iff (by decide)).mpr ⟨length_textHeader data length,h⟩
  have hzero : min length.toNat maxTextBytes = 0 ↔ length.toNat = 0 := by
    rw [maxTextBytes]
    omega
  rw [textData, hheader]
  dsimp only [bind, Except.bind]
  rw [Cursor.word_textHeader]
  dsimp only
  rw [Cursor.single_toLittleEndian]
  dsimp only
  simp only [hzero, UInt64.ofNat_toNat]
  rfl

variable {text : String} (hty : s.IsText v.ty)
  (hheader : s.memory.Shows v.address (textHeader data length))
  (hlength : length.toNat = (Text.Utf8.encode text).length)
include hty hheader

theorem formatValue_of_header (hpos : 1 ≤ length.toNat) :
    s.formatValue v =
      Text.Utf8.decodeLossy <$> s.memory.read data (min length.toNat maxTextBytes) := by
  rw [formatValue_of_isText hty, textData_of_header hs hheader, if_neg (Nat.ne_of_gt hpos)]

/-- The bytes of a text that is not empty must be mapped, as far as they are read. -/
theorem formatValue_of_unmapped (hpos : 1 ≤ length.toNat)
    (hnone : s.memory.Unmapped data (min length.toNat maxTextBytes)) :
    s.formatValue v = .error (.unmapped data (min length.toNat maxTextBytes)) := by
  have hread := (hs.read_eq_error_iff (Nat.le_min.mpr ⟨hpos,by decide⟩)).mpr ⟨hnone,rfl⟩
  rw [formatValue_of_header hs hty hheader hpos, hread]
  rfl

include hlength

theorem formatValue_of_header_empty (h : text = "") : s.formatValue v = .ok "" := by
  have hzero : length.toNat = 0 := by
    rw [hlength, h]
    rfl
  rw [formatValue_of_isText hty, textData_of_header hs hheader, if_pos hzero]
  rfl

/-- A text within the limit is read back. -/
theorem formatValue_of_shows (hsize : length.toNat ≤ maxTextBytes) (h : text ≠ "")
    (hdata : s.memory.Shows data (Text.Utf8.encode text)) : s.formatValue v = .ok text := by
  have hpos : 1 ≤ length.toNat := hlength ▸ Text.Utf8.one_le_length_encode h
  have hread := (hs.read_eq_ok_iff hpos).mpr ⟨hlength.symm,hdata⟩
  rw [formatValue_of_header hs hty hheader hpos, Nat.min_eq_left hsize, hread]
  exact congrArg Except.ok (Text.Utf8.decodeLossy_encode text)

/-- Of a text beyond the limit the characters that fit are read, and a replacement character for one
that the limit parts. -/
theorem formatValue_of_cutAt (hsize : maxTextBytes < length.toNat)
    (hdata : s.memory.Shows data (Text.Utf8.encode text)) {kept rest : String}
    (hcut : Text.Utf8.CutAt maxTextBytes text kept rest) :
    s.formatValue v = .ok (if (Text.Utf8.encode kept).length = maxTextBytes then kept
      else kept.push '\uFFFD') := by
  have hlimit : maxTextBytes ≤ (Text.Utf8.encode text).length := hlength ▸ Nat.le_of_lt hsize
  have hstart : ((Text.Utf8.encode text).take maxTextBytes).length = maxTextBytes := by
    rw [List.length_take, Nat.min_eq_left hlimit]
  have hread := (hs.read_eq_ok_iff (by decide)).mpr
    ⟨hstart,hdata.of_prefix (List.take_prefix maxTextBytes _)⟩
  rw [formatValue_of_header hs hty hheader (Nat.one_le_of_lt hsize),
    Nat.min_eq_right (Nat.le_of_lt hsize), hread]
  exact congrArg Except.ok (hcut.decodeLossy_take hlimit)

end Stored

/-- A text of at most 65536 bytes is stored at a location, its header and all its bytes mapped. -/
def StoresText (s : Snapshot) (v : RawValue) (text : String) : Prop :=
  s.IsText v.ty ∧ ∃ data length, s.memory.Shows v.address (textHeader data length) ∧
    length.toNat = (Text.Utf8.encode text).length ∧
    (Text.Utf8.encode text).length ≤ maxTextBytes ∧
    (text ≠ "" → s.memory.Shows data (Text.Utf8.encode text))

/-- A text whose header is not mapped, or whose bytes are not, as far as they are read. -/
inductive LacksText (s : Snapshot) (v : RawValue) : Prop
  | header (hty : s.IsText v.ty) (hnone : s.memory.Unmapped v.address textHeaderSize) :
    LacksText s v
  | data {data length : UInt64} (hty : s.IsText v.ty)
    (hheader : s.memory.Shows v.address (textHeader data length)) (hpos : 1 ≤ length.toNat)
    (hnone : s.memory.Unmapped data (min length.toNat maxTextBytes)) : LacksText s v

theorem StoresText.formatValue_eq {text : String} (hs : s.memory.Stacked) (h : s.StoresText v text) :
    s.formatValue v = .ok text := by
  obtain ⟨hty,data,length,hheader,hlength,hsize,hdata⟩ := h
  by_cases hempty : text = ""
  · rw [hempty]
    exact formatValue_of_header_empty hs hty hheader hlength hempty
  · exact formatValue_of_shows hs hty hheader hlength (hlength ▸ hsize) hempty (hdata hempty)

theorem LacksText.exists_formatValue_eq (hs : s.memory.Stacked) (h : s.LacksText v) :
    ∃ e, s.formatValue v = .error e := by
  cases h with
  | header hty hnone =>
    have hread := (hs.read_eq_error_iff (by decide)).mpr ⟨hnone,rfl⟩
    exact ⟨_,by rw [formatValue_of_isText hty, textData, hread]; rfl⟩
  | data hty hheader hpos hnone => exact ⟨_,formatValue_of_unmapped hs hty hheader hpos hnone⟩

end Snapshot

namespace Construction
open Text

/-- A text of at most 65536 bytes is read back as it was written, whatever follows its bytes. An empty
one needs no bytes; any other is only read where its bytes are mapped. -/
theorem formatValue_written (steps : List BuilderStep) {v : RawValue} {text : String}
    {data length : UInt64} (hty : (ofSteps steps).builder.snapshot.IsText v.ty)
    (hheader : (ofSteps steps).builder.snapshot.memory.Shows v.address (textHeader data length))
    (hlength : length.toNat = (Utf8.encode text).length)
    (hsize : (Utf8.encode text).length ≤ maxTextBytes) :
    (text = "" → (ofSteps steps).builder.snapshot.formatValue v = .ok "") ∧
      (text ≠ "" → (ofSteps steps).builder.snapshot.memory.Shows data (Utf8.encode text) →
        (ofSteps steps).builder.snapshot.formatValue v = .ok text) ∧
      (text ≠ "" → (ofSteps steps).builder.snapshot.memory.Unmapped data length.toNat →
        (ofSteps steps).builder.snapshot.formatValue v = .error (.unmapped data length.toNat)) := by
  have hs := stacked_ofSteps steps
  rw [← hlength] at hsize
  refine ⟨Snapshot.formatValue_of_header_empty hs hty hheader hlength,fun hne hdata =>
    Snapshot.formatValue_of_shows hs hty hheader hlength hsize hne hdata,fun hne hnone => ?_⟩
  have hpos : 1 ≤ length.toNat := hlength ▸ Utf8.one_le_length_encode hne
  rw [← Nat.min_eq_left hsize] at hnone ⊢
  exact Snapshot.formatValue_of_unmapped hs hty hheader hpos hnone

/-- A text at address 4096; its bytes at address 8192, and some more behind them. -/
def textSteps (text : String) (rest : List UInt8) : List BuilderStep :=
  [.type (.define "std::string" .text),
    .memory (.map 4096 (textHeader 8192 (.ofNat (Utf8.encode text).length)).toArray),
    .memory (.map 8192 (Utf8.encode text ++ rest).toArray)]

theorem isText_textSteps (text : String) (rest : List UInt8) :
    (ofSteps (textSteps text rest)).builder.snapshot.IsText (.plain 0 "std::string") := by
  have htypes : (textSteps text rest).filter (·.isType) =
      [.type (.define "std::string" .text)] := rfl
  refine ⟨rfl,"std::string",?_⟩
  rw [(mixes_ofSteps (textSteps text rest)).builder_eq, htypes, SnapshotBuilder.overMemory_entries]
  rfl

theorem shows_textSteps {text : String} (rest : List UInt8) (h : text ≠ "") :
    (ofSteps (textSteps text rest)).builder.snapshot.memory.Shows 4096
        (textHeader 8192 (.ofNat (Utf8.encode text).length)) ∧
      (ofSteps (textSteps text rest)).builder.snapshot.memory.Shows 8192 (Utf8.encode text) := by
  generalize hlength : UInt64.ofNat (Utf8.encode text).length = length
  have htext := Utf8.one_le_length_encode h
  have hheader : 1 ≤ (textHeader 8192 length).length := by
    rw [length_textHeader]
    decide
  have hfirst : (⟨4096,(textHeader 8192 length).toArray⟩ : Region).size = 16 :=
    length_textHeader 8192 length
  have hsecond : 1 ≤ (⟨8192,(Utf8.encode text ++ rest).toArray⟩ : Region).size := by
    rw [Region.size, List.size_toArray, List.length_append]
    exact Nat.le_add_right_of_le htext
  have hlists : (ofSteps (textSteps text rest)).builder.snapshot.memory.Lists
      [⟨8192,(Utf8.encode text ++ rest).toArray⟩,⟨4096,(textHeader 8192 length).toArray⟩] := by
    rw [textSteps, hlength]
    refine lists_next_map (r := ⟨8192,(Utf8.encode text ++ rest).toArray⟩) (lists_next_map
      (r := ⟨4096,(textHeader 8192 length).toArray⟩) Memory.lists_empty hheader ?_) hsecond ?_
    · exact List.forall_mem_nil _
    · refine List.forall_mem_singleton.mpr (.inr ?_)
      rw [hfirst]
      exact Nat.le_of_ble_eq_true rfl
  exact ⟨hlists.shows (.tail _ (.head _)) ⟨UInt64.le_refl 4096,List.prefix_refl _⟩ hheader,
    hlists.shows (.head _) ⟨UInt64.le_refl 8192,List.prefix_append _ rest⟩ htext⟩

/-- Characters of two, three and four bytes, and a byte behind them that is none. -/
theorem formatValue_written_mixed :
    (ofSteps (textSteps "é€😀" [0xFF])).builder.snapshot.formatValue
      ⟨4096,.plain 0 "std::string"⟩ = .ok "é€😀" := by
  have hne : "é€😀" ≠ "" := by decide
  have hshown := shows_textSteps [0xFF] hne
  exact (formatValue_written (textSteps "é€😀" [0xFF]) (isText_textSteps _ _) hshown.1
    (by decide +kernel) (by decide +kernel)).2.1 hne hshown.2

/-- A text of one byte, at the last address, where an empty region is mapped after it. -/
def hiddenSteps : List BuilderStep :=
  [.type (.define "std::string" .text),
    .memory (.map 4096 (textHeader 0xffffffffffffffff 1).toArray),
    .memory (.map 0xffffffffffffffff #[97]),.memory (.map 0xffffffffffffffff #[])]

/-- The byte of the text lies in a region, and is not found. -/
theorem formatValue_hidden :
    (ofSteps hiddenSteps).builder.snapshot.IsText (.plain 0 "std::string") ∧
      (ofSteps hiddenSteps).builder.snapshot.memory.Shows 4096
        (textHeader 0xffffffffffffffff 1) ∧
      (1 : UInt64).toNat = (Utf8.encode "a").length ∧
      (∃ r ∈ (ofSteps hiddenSteps).builder.snapshot.memory.regions.toList,
        r.start.toNat + r.size ≤ UInt64.size ∧ r.Holds 0xffffffffffffffff (Utf8.encode "a")) ∧
      (ofSteps hiddenSteps).builder.snapshot.formatValue ⟨4096,.plain 0 "std::string"⟩ =
        .error (.unmapped 0xffffffffffffffff 1) :=
  ⟨⟨rfl,"std::string",by decide +kernel⟩,by decide +kernel,by decide +kernel,by decide +kernel,
    by decide +kernel⟩

/-- Of a text of more than 65536 bytes the characters that fit into 65536 are read, and a replacement
character for one that the limit parts. That is the start of the text, unless a character is parted
that is not a replacement character itself. -/
theorem formatValue_capped (steps : List BuilderStep) {v : RawValue} {text : String}
    {data length : UInt64} (hty : (ofSteps steps).builder.snapshot.IsText v.ty)
    (hheader : (ofSteps steps).builder.snapshot.memory.Shows v.address (textHeader data length))
    (hlength : length.toNat = (Utf8.encode text).length) (hsize : maxTextBytes < length.toNat)
    (hdata : (ofSteps steps).builder.snapshot.memory.Shows data (Utf8.encode text)) :
    (∃ kept rest, Utf8.CutAt maxTextBytes text kept rest) ∧
      ∀ kept rest, Utf8.CutAt maxTextBytes text kept rest →
        ∃ shown, (ofSteps steps).builder.snapshot.formatValue v = .ok shown ∧
          (shown = if (Utf8.encode kept).length = maxTextBytes then kept
            else kept.push '\uFFFD') ∧
          (shown.toList <+: text.toList ↔
            (Utf8.encode kept).length = maxTextBytes ∨ rest.toList.head? = some '\uFFFD') := by
  refine ⟨Utf8.exists_cutAt maxTextBytes text,fun kept rest hcut => ?_⟩
  have hread := Snapshot.formatValue_of_cutAt (stacked_ofSteps steps) hty hheader hlength hsize
    hdata hcut
  exact ⟨_,hread,rfl,hcut.prefix_iff⟩

section Repeated
variable {c : Char} {n : Nat}

theorem repeated_ne_empty : String.ofList (List.replicate (n + 1) c) ≠ "" := by
  rw [Ne, ← String.toList_eq_nil_iff, String.toList_ofList, List.replicate_succ]
  exact List.cons_ne_nil _ _

theorem toNat_length_repeated (h : n * c.utf8Size < UInt64.size) :
    (UInt64.ofNat (Utf8.encode (.ofList (List.replicate n c))).length).toNat =
      n * c.utf8Size := by
  rw [Utf8.length_encode_replicate]
  exact UInt64.toNat_ofNat_of_lt' h

end Repeated

/-- One smiley too many. -/
def smileys : String := .ofList (List.replicate (16384 + 1) '😀')

/-- All but the last smiley are read, since their bytes are as many as the limit. -/
theorem formatValue_capped_smileys :
    (ofSteps (textSteps smileys [])).builder.snapshot.formatValue ⟨4096,.plain 0 "std::string"⟩ =
      .ok (.ofList (List.replicate 16384 '😀')) := by
  have hshown := shows_textSteps [] (repeated_ne_empty (n := 16384) (c := '😀'))
  have hbytes := Utf8.length_encode_replicate (16384 + 1) '😀'
  have hlength := toNat_length_repeated (n := 16384 + 1) (c := '😀') (by decide)
  have hlong : maxTextBytes < (UInt64.ofNat (Utf8.encode smileys).length).toNat :=
    hlength ▸ by decide
  have hcut : Utf8.CutAt maxTextBytes smileys (.ofList (List.replicate 16384 '😀'))
    (.ofList (List.replicate 1 '😀')) := Utf8.cutAt_replicate 1 (by decide) (by decide)
  obtain ⟨shown,hread,hkept,_⟩ := (formatValue_capped (textSteps smileys []) (v := ⟨4096,_⟩)
    (isText_textSteps smileys []) hshown.1 (hlength.trans hbytes.symm) hlong hshown.2).2 _ _ hcut
  have hfull : (Utf8.encode (.ofList (List.replicate 16384 '😀'))).length = maxTextBytes :=
    (Utf8.length_encode_replicate 16384 '😀').trans (by decide)
  rw [if_pos hfull] at hkept
  exact hkept ▸ hread

/-- One euro sign too many. The limit is no multiple of its bytes. -/
def euros : String := .ofList (List.replicate (21845 + 1) '€')

/-- The last euro sign is parted, and shows as a replacement character, which is not in the text. -/
theorem formatValue_capped_euros :
    (ofSteps (textSteps euros [])).builder.snapshot.IsText (.plain 0 "std::string") ∧
      (∃ length : UInt64, (ofSteps (textSteps euros [])).builder.snapshot.memory.Shows 4096
        (textHeader 8192 length) ∧ length.toNat = (Utf8.encode euros).length ∧
          maxTextBytes < length.toNat) ∧
      (ofSteps (textSteps euros [])).builder.snapshot.memory.Shows 8192 (Utf8.encode euros) ∧
      ∃ shown, (ofSteps (textSteps euros [])).builder.snapshot.formatValue
          ⟨4096,.plain 0 "std::string"⟩ = .ok shown ∧ ¬shown.toList <+: euros.toList := by
  have hshown := shows_textSteps [] (repeated_ne_empty (n := 21845) (c := '€'))
  have hbytes := Utf8.length_encode_replicate (21845 + 1) '€'
  have hlength := toNat_length_repeated (n := 21845 + 1) (c := '€') (by decide)
  have hlong : maxTextBytes < (UInt64.ofNat (Utf8.encode euros).length).toNat :=
    hlength ▸ by decide
  have hcut : Utf8.CutAt maxTextBytes euros (.ofList (List.replicate 21845 '€'))
    (.ofList (List.replicate 1 '€')) := Utf8.cutAt_replicate 1 (by decide) (by decide)
  refine ⟨isText_textSteps euros [],⟨_,hshown.1,hlength.trans hbytes.symm,hlong⟩,hshown.2,_,
    Snapshot.formatValue_of_cutAt (v := ⟨4096,_⟩) (stacked_ofSteps _) (isText_textSteps euros [])
      hshown.1 (hlength.trans hbytes.symm) hlong hshown.2 hcut,?_⟩
  rw [hcut.prefix_iff, Utf8.length_encode_replicate, String.toList_ofList]
  decide

end Construction
end ValueInspector
