import Mathlib.Data.List.Forall2
import ValueInspector.Json.Render
import ValueInspector.Proofs.Json.Grammar
import ValueInspector.Proofs.Text.Hexadecimal

/-! # Written values are in the grammar

What is written of a value is a text of the form of its kind, whatever follows it: every character of a
string stands for itself or is escaped in one of the ways in which it may be read.
-/
namespace ValueInspector.Json

/-- The text of the value is of the form, whatever follows. -/
def Form.Renders (form : Form) (v : Json) : Prop := ∀ rest, form (render v ++ rest) rest

section Strings
variable {rest : List Char}

theorem codeUnit_hexDigits {n : Nat} (h : n < 0x10000) : CodeUnit n (Text.hexDigits 4 n ++ rest) rest :=
  ⟨_,rfl,Text.length_hexDigits 4 n,Text.readDigits?_hexDigits h (by decide)⟩

/-- A character stands for itself, or has a letter of its own, or is given by its code. -/
theorem renderChar_cases (c : Char) : renderChar c = [c] ∧ IsPlain c ∨
    (∃ e, (e,c) ∈ shortEscapes ∧ renderChar c = ['\\',e]) ∨
    c.toNat < 0x20 ∧ renderChar c = '\\' :: 'u' :: Text.hexDigits 4 c.toNat := by
  have hbyte : ∀ n, c.toNat = n → Char.ofNat n = c := by
    rintro n rfl
    exact Char.ofNat_toNat c
  unfold renderChar escape?
  split
  next hc => exact .inr (.inl ⟨'"',by simp [shortEscapes, hc],rfl⟩)
  next hquote =>
    split
    next hc => exact .inr (.inl ⟨'\\',by simp [shortEscapes, hc],rfl⟩)
    next hslash =>
      split
      next hc => exact .inr (.inl ⟨'n',by simp [shortEscapes, hc],rfl⟩)
      split
      next hc => exact .inr (.inl ⟨'r',by simp [shortEscapes, hc],rfl⟩)
      split
      next hc => exact .inr (.inl ⟨'t',by simp [shortEscapes, hc],rfl⟩)
      split
      next hc => exact .inr (.inl ⟨'b',by simp [shortEscapes, ← hbyte 8 hc],rfl⟩)
      split
      next hc => exact .inr (.inl ⟨'f',by simp [shortEscapes, ← hbyte 12 hc],rfl⟩)
      split
      next hc => exact .inr (.inr ⟨hc,rfl⟩)
      next hc => exact .inl ⟨rfl,hquote,hslash,Nat.not_lt.mp hc⟩

theorem written_renderChar (c : Char) (rest : List Char) : Written c (renderChar c ++ rest) rest := by
  rcases renderChar_cases c with ⟨heq,hplain⟩ | ⟨e,he,heq⟩ | ⟨hlt,heq⟩
  · exact heq ▸ .plain hplain
  · exact heq ▸ .short he
  · rw [heq]
    exact .unit (codeUnit_hexDigits (Nat.lt_trans hlt (by decide)))

theorem stringBody_renderChar (text : List Char) (rest : List Char) :
    StringBody text (text.flatMap renderChar ++ '"' :: rest) rest := by
  induction text with
  | nil => exact .close
  | cons c text ih =>
    rw [List.flatMap_cons, List.append_assoc]
    exact .char (written_renderChar c _) ih

theorem stringForm_renderString (s : String) (rest : List Char) :
    StringForm s (renderString s ++ rest) rest := by
  refine ⟨s.toList.flatMap renderChar ++ '"' :: rest,?_,stringBody_renderChar _ _⟩
  rw [renderString, List.cons_append, List.append_assoc, List.singleton_append]

end Strings

section Values
variable {form : Form} {forms : List Form} {v : Json} {vs : List Json} {rest : List Char}
variable {ms : List (String × Form)} {members : List (String × Json)}

theorem renders_bool (b : Bool) : (BoolForm b).Renders (.bool b) := fun _ => by
  cases b <;> rfl

theorem renders_nat (n : Nat) : (NatForm n).Renders (.nat n) := fun rest => by
  change renderNumber (.ofNat n) ++ rest = _
  simp [renderNumber, JsonNumber.ofNat]

theorem renders_string (s : String) : (StringForm s).Renders (.string s) := stringForm_renderString s

theorem Form.Renders.padded (h : form.Renders v) (rest : List Char) :
    form.Padded (render v ++ rest) rest := ⟨_,_,.none,h rest,.none⟩

theorem items_renderItems (h : List.Forall₂ Form.Renders forms vs) (hne : forms ≠ []) :
    Items forms (renderItems vs ++ ']' :: rest) rest := by
  induction h with
  | nil => exact absurd rfl hne
  | cons hv hvs ih =>
    cases hvs with
    | nil => exact .last (hv.padded _)
    | cons hv' hvs =>
      rw [renderItems, List.append_assoc]
      · exact .more (hv.padded _) (ih (List.cons_ne_nil _ _))
      · exact List.cons_ne_nil _ _

theorem renders_array (h : List.Forall₂ Form.Renders forms vs) :
    (ListForm forms).Renders (.array vs) := fun rest => by
  rw [render, List.cons_append, List.append_assoc, List.singleton_append]
  cases h with
  | nil => exact .empty .none
  | cons hv hvs => exact .items (items_renderItems (.cons hv hvs) (List.cons_ne_nil _ _))

/-- The member has the name of the other, and its text is of this form. -/
def RendersMember (m : String × Form) (member : String × Json) : Prop :=
  m.1 = member.1 ∧ m.2.Renders member.2

theorem RendersMember.memberForm {m : String × Form} {name : String} (h : RendersMember m (name,v))
    (rest : List Char) : MemberForm m (renderString name ++ ':' :: (render v ++ rest)) rest := by
  obtain ⟨hname,hform⟩ := h
  obtain ⟨body,hbody,hstring⟩ := stringForm_renderString name (':' :: (render v ++ rest))
  refine ⟨render v ++ rest,⟨body,':' :: (render v ++ rest),hbody ▸ .none,?_,.none⟩,hform.padded rest⟩
  exact hname ▸ hstring

theorem members_renderMembers (h : List.Forall₂ RendersMember ms members) (hne : ms ≠ []) :
    Members ms (renderMembers members ++ '\x7d' :: rest) rest := by
  induction h with
  | nil => exact absurd rfl hne
  | @cons m member ms members hv hvs ih =>
    obtain ⟨name,v⟩ := member
    cases hvs with
    | nil =>
      rw [renderMembers, List.append_assoc, List.cons_append]
      exact .last (hv.memberForm _)
    | cons hv' hvs =>
      rw [renderMembers, List.append_assoc, List.cons_append, List.append_assoc, List.cons_append]
      · exact .more (hv.memberForm _) (ih (List.cons_ne_nil _ _))
      · exact List.cons_ne_nil _ _

theorem renders_object (h : List.Forall₂ RendersMember ms members) :
    (ObjectForm ms).Renders (.object members) := fun rest => by
  rw [render, List.cons_append, List.append_assoc, List.singleton_append]
  cases h with
  | nil => exact .empty .none
  | cons hv hvs => exact .members (members_renderMembers (.cons hv hvs) (List.cons_ne_nil _ _))

/-- The text of the whole value, and nothing else. -/
theorem Form.Renders.padded_text (h : form.Renders v) : form.Padded (text v).toList [] := by
  rw [text, String.toList_ofList]
  simpa using h.padded []

end Values
end ValueInspector.Json
