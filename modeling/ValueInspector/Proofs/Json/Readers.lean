import Mathlib.Order.Basic
import ValueInspector.Json.Record
import ValueInspector.Proofs.Json.Skipping

/-! # What the readers take

A reader reads a form as a value if it reads every text of that form, with any blanks in front, to its
end. And whatever a reader takes is a whole value: the same text could have been skipped. So on the text
of a value a reader fails, or stops where the value ends.
-/
namespace ValueInspector.Json

section Properties
variable {α : Type} {r : Reader α} {form : Form} {a : α} {cs start stop rest : List Char}

/-- Every text of the form is read as this value, and to its end. -/
def Reader.Reads (r : Reader α) (form : Form) (a : α) : Prop :=
  ∀ cs start stop, Gap cs start → form start stop → Follows stop → r cs = .ok (a,stop)

/-- No text of the form is read. -/
def Reader.Refuses (r : Reader α) (form : Form) : Prop :=
  ∀ cs start stop, Gap cs start → form start stop → Follows stop → ∃ fault, r cs = .error fault

/-- What is read could have been skipped. -/
def Reader.TakesValues (r : Reader α) : Prop :=
  ∀ cs a rest, r cs = .ok (a,rest) → Skips true [] cs rest

theorem Reader.TakesValues.stops (h : r.TakesValues) (hgap : Gap cs start) (hvalue : Value start stop)
    (hstop : Follows stop) (hok : r cs = .ok (a,rest)) : rest = stop :=
  (h cs a rest hok).eq ((hvalue.skips hstop).of_blanks hgap.skipBlanks_eq)

end Properties

section Scalars
variable {cs start rest stop : List Char} {c : Char} {v : Json}

theorem map_eq_ok_iff {α β : Type} {x : Except Fault α} {f : α → β} {b : β} :
    f <$> x = .ok b ↔ ∃ a, x = .ok a ∧ f a = b := by
  cases x with
  | error fault => exact ⟨nofun,nofun⟩
  | ok a => exact ⟨fun h => ⟨a,rfl,Except.ok.inj h⟩,fun ⟨_,ha,h⟩ => Except.ok.inj ha ▸ congrArg _ h⟩

/-- What is read ends where it ends for what skips it. -/
def EndsAs (x : Except Fault (Json × List Char)) (y : Except Fault (List Char)) : Prop :=
  ∀ v stop, x = .ok (v,stop) → y = .ok stop

theorem EndsAs.ite {p : Prop} [Decidable p] {x x' : Except Fault (Json × List Char)}
    {y y' : Except Fault (List Char)} (h : EndsAs x y) (h' : EndsAs x' y') :
    EndsAs (if p then x else x') (if p then y else y') := by
  split
  · exact h
  · exact h'

theorem EndsAs.map (v : Json) (x : Except Fault (List Char)) : EndsAs ((v,·) <$> x) x := fun _ _ h => by
  obtain ⟨left,hleft,heq⟩ := map_eq_ok_iff.mp h
  exact (Prod.mk.inj heq).2 ▸ hleft

theorem EndsAs.bind {α : Type} {x : Except Fault (α × List Char)} {y : Except Fault (List Char)}
    (f : α → Json) (h : ∀ a stop, x = .ok (a,stop) → y = .ok stop) :
    EndsAs (x >>= fun r => .ok (f r.1,r.2)) y := fun v stop hv => by
  obtain ⟨⟨a,left⟩,hleft,heq⟩ := bind_eq_ok_iff.mp hv
  cases heq
  exact h a _ hleft

theorem endsAs_scalar (c : Char) (rest : List Char) : EndsAs (scalar c rest) (skipScalar c rest) := by
  have hnumber : ∀ {negative : Bool} {cs : List Char}, EndsAs
      (keptNumber negative cs >>= fun r => .ok (.number r.1,r.2)) (skipNumber false cs) :=
    .bind .number fun _ _ => skipNumber_of_keptNumber
  unfold scalar skipScalar
  refine .ite (.map _ _) (.ite (.map _ _) (.ite (.map _ _) (.ite ?_ (.ite hnumber (.ite hnumber ?_)))))
  · exact .bind .string fun _ _ => skipStringBody_of_stringFrom
  · exact fun _ _ h => nomatch h

theorem skips_of_scalar (hcs : skipBlanks cs = c :: rest) (h : scalar c rest = .ok (v,stop)) :
    Skips true [] cs stop := by
  refine .step (.scalar hcs (fun hc => ?_) (endsAs_scalar c rest v stop h)) .done
  simp only [List.mem_cons, List.not_mem_nil, or_false] at hc
  rcases hc with rfl | rfl <;> cases h

theorem readBool_takesValues : Reader.TakesValues readBool := by
  intro cs b rest h
  unfold readBool at h
  split at h
  next hcs =>
    obtain ⟨left,hleft,heq⟩ := map_eq_ok_iff.mp h
    cases heq
    exact skips_of_scalar (v := .bool true) hcs (map_eq_ok_iff.mpr ⟨_,hleft,rfl⟩)
  next hcs =>
    obtain ⟨left,hleft,heq⟩ := map_eq_ok_iff.mp h
    cases heq
    exact skips_of_scalar (v := .bool false) hcs (map_eq_ok_iff.mpr ⟨_,hleft,rfl⟩)
  · cases h

theorem readString_takesValues : Reader.TakesValues readString := by
  intro cs s rest h
  unfold readString at h
  split at h
  next hcs => exact skips_of_scalar (v := .string s) hcs (bind_eq_ok_iff.mpr ⟨_,h,rfl⟩)
  · cases h

theorem readBelow_takesValues (bound : Nat) : (readBelow bound).TakesValues := by
  intro cs n rest h
  unfold readBelow at h
  split at h
  · cases h
  next hcs =>
    split at h
    next hscalar =>
      split at h
      · split at h
        · cases h
          exact skips_of_scalar hcs hscalar
        · cases h
      · cases h
    · cases h

theorem readBool_reads (b : Bool) : Reader.Reads readBool (BoolForm b) b := by
  rintro cs start stop hgap rfl -
  unfold readBool
  cases b with
  | false =>
    rw [hgap.skipBlanks_eq_cons (by decide)]
    rfl
  | true =>
    rw [hgap.skipBlanks_eq_cons (by decide)]
    rfl

theorem readString_reads (s : String) : Reader.Reads readString (StringForm s) s := by
  rintro cs start stop hgap ⟨body,rfl,hbody⟩ -
  unfold readString
  rw [hgap.skipBlanks_eq_cons (by decide)]
  exact hbody.stringBody_eq.trans (by rw [String.ofList_toList])

theorem readBelow_reads {bound n : Nat} (hn : n < bound) (hbound : bound ≤ UInt64.size) :
    (readBelow bound).Reads (NatForm n) n := by
  intro cs start stop hgap hform hstop
  obtain ⟨c,t,rfl,hc,hscalar⟩ := hform.scalar_eq (Nat.lt_of_lt_of_le hn hbound) hstop
  rw [readBelow, hgap.skipBlanks_eq_cons (isBlank_of_isDigit hc)]
  dsimp only
  rw [hscalar]
  exact if_pos hn

theorem boolForm_le_value (b : Bool) : BoolForm b ≤ Value := by
  rintro cs rest rfl
  exact .bool b

theorem natForm_le_value (n : Nat) : NatForm n ≤ Value := by
  rintro cs rest rfl
  exact .number (isNumeral_toDigits n)

theorem stringForm_le_value (s : String) : StringForm s ≤ Value := by
  rintro cs rest ⟨body,rfl,hbody⟩
  exact .string hbody.loose

end Scalars

section Arrays
variable {cs start mid rest stop : List Char} {c : Char} {first : Bool}

theorem nextItem_first (h : skipBlanks cs = c :: rest) (hc : c ≠ ']') :
    nextItem true cs = .ok (some (c :: rest),[]) := by
  rw [nextItem, h]
  dsimp only
  rw [if_neg hc, if_pos rfl]

theorem nextItem_more (h : skipBlanks cs = ',' :: mid) (hmid : skipBlanks mid = c :: rest) (hc : c ≠ ']') :
    nextItem false cs = .ok (some (c :: rest),[]) := by
  rw [nextItem, h]
  dsimp only
  rw [if_neg (by decide), if_neg (by decide), if_pos rfl, hmid]
  exact if_neg hc

theorem nextItem_close (h : skipBlanks cs = ']' :: rest) : nextItem first cs = .ok (none,rest) := by
  rw [nextItem, h]
  exact if_pos rfl

theorem nextItem_cases {next : Option (List Char)} {left : List Char}
    (h : nextItem first cs = .ok (next,left)) :
    next = none ∧ skipBlanks cs = ']' :: left ∨
      ∃ c rest, next = some (c :: rest) ∧ c ≠ ']' ∧
        if first then skipBlanks cs = c :: rest
        else ∃ mid, skipBlanks cs = ',' :: mid ∧ skipBlanks mid = c :: rest := by
  rw [nextItem] at h
  split at h
  · cases h
  next c rest hcs =>
    split at h
    next hclosing =>
      cases h
      exact .inl ⟨rfl,hclosing ▸ hcs⟩
    next hclosing =>
      split at h
      next hfirst =>
        cases h
        exact .inr ⟨c,rest,rfl,hclosing,by rw [if_pos hfirst]; exact hcs⟩
      next hfirst =>
        split at h
        next hcomma =>
          subst hcomma
          split at h
          · cases h
          next d rest hmid =>
            split at h
            · cases h
            next hitem =>
              cases h
              exact .inr ⟨d,rest,rfl,hitem,by rw [if_neg hfirst]; exact ⟨_,hcs,hmid⟩⟩
        · cases h

/-- What is left of an array: all behind its bracket, or what follows one of its items. -/
def ArrayRest : Bool → Form
  | true => fun cs => Skips true [] ('[' :: cs)
  | false => Skips false [.array]

theorem ArrayRest.of_close (h : skipBlanks cs = ']' :: rest) : ArrayRest first cs rest := by
  cases first with
  | true => exact .step (.emptyArray (skipBlanks_cons (by decide)) h) .done
  | false => exact .step (.close h) .done

theorem ArrayRest.of_none (h : nextItem first cs = .ok (none,rest)) : ArrayRest first cs rest := by
  rcases nextItem_cases h with ⟨-,hcs⟩ | ⟨_,_,hnext,-⟩
  · exact .of_close hcs
  · cases hnext

theorem ArrayRest.of_some {left : List Char} (h : nextItem first cs = .ok (some start,left))
    (hitem : Skips true [] start mid) (hrest : ArrayRest false mid stop) : ArrayRest first cs stop := by
  rcases nextItem_cases h with ⟨hnext,-⟩ | ⟨c,rest,hnext,hclosing,hcs⟩
  · cases hnext
  cases hnext
  have hrun : Skips true [.array] (c :: rest) stop := hitem.append hrest
  cases first with
  | true =>
    have hcs : skipBlanks cs = c :: rest := hcs
    have hhead : (skipBlanks cs).head? ≠ some ']' := by simp [hcs, hclosing]
    exact .step (.array (skipBlanks_cons (by decide)) hhead) (hcs ▸ hrun)
  | false =>
    obtain ⟨mid,hcomma,hmid⟩ := hcs
    have hblanks : skipBlanks mid = skipBlanks (c :: rest) := by
      rw [← hmid]
      exact (gap_skipBlanks mid).skipBlanks_eq
    exact .step (.nextItem hcomma) (hrun.of_blanks hblanks)

/-- A list takes a whole array if its items are whole values. -/
theorem itemsOf_arrayRest {α : Type} {item : Reader α} (hitem : item.TakesValues) {count : Nat}
    {acc as : List α} (h : itemsOf item count acc cs = .ok (as,stop)) : ArrayRest acc.isEmpty cs stop := by
  induction count generalizing acc cs with
  | zero => cases h
  | succ count ih =>
    rw [itemsOf] at h
    split at h
    · cases h
    next hnext =>
      cases h
      exact .of_none hnext
    next hnext =>
      split at h
      · cases h
      next hread => exact .of_some hnext (hitem _ _ _ hread) (ih h)

theorem readList_takesValues {α : Type} {item : Reader α} (hitem : item.TakesValues) :
    (readList item).TakesValues := by
  intro cs as rest h
  unfold readList at h
  split at h
  next hcs =>
    have hrun := itemsOf_arrayRest hitem h
    exact Skips.of_blanks (hcs.trans (skipBlanks_cons (by decide)).symm) hrun
  · cases h

end Arrays

section Lists
variable {α : Type} {item : Reader α} {form : α → Form} {forms : List Form}
variable {cs start rest stop : List Char} {m : Char} {a : α} {as acc : List α} {count : Nat}

theorem Form.Padded.exists_cons {form : Form} (hvalue : form ≤ Value) (h : form.Padded cs rest) :
    ∃ c t, skipBlanks cs = c :: t ∧ c ≠ ']' := by
  obtain ⟨first,last,hbefore,hform,-⟩ := h
  obtain ⟨c,t,rfl,hblank,hclosing,-⟩ := (hvalue _ _ hform).exists_cons
  exact ⟨c,t,hbefore.skipBlanks_eq_cons hblank,hclosing⟩

theorem Items.exists_cons (hvalue : ∀ form ∈ forms, form ≤ Value) (h : Items forms cs rest) :
    ∃ c t, skipBlanks cs = c :: t ∧ c ≠ ']' := by
  cases h with
  | last h => exact h.exists_cons (hvalue _ List.mem_cons_self)
  | more h _ => exact h.exists_cons (hvalue _ List.mem_cons_self)

theorem Form.Padded.length_lt {form : Form} (hvalue : form ≤ Value) (h : form.Padded cs (m :: rest))
    (hm : m ∈ [',',']','\x7d']) : rest.length < cs.length := by
  obtain ⟨first,last,hbefore,hform,hafter⟩ := h
  have hskips := (hvalue _ _ hform).skips (hafter.follows (follows_mark hm))
  have hcs := hbefore.length_le
  have hmid := hskips.length_le
  have hrest := hafter.length_le
  rw [List.length_cons] at hrest
  omega

theorem Items.length_le (hvalue : ∀ form ∈ forms, form ≤ Value) (h : Items forms cs rest) :
    forms.length + rest.length ≤ cs.length := by
  induction h with
  | last h =>
    have hlength := h.length_lt (hvalue _ List.mem_cons_self) (by decide)
    rw [List.length_singleton]
    omega
  | more h _ ih =>
    have hlength := h.length_lt (hvalue _ List.mem_cons_self) (by decide)
    have hrest := ih fun form hform => hvalue form (List.mem_cons_of_mem _ hform)
    rw [List.length_cons]
    omega

theorem map_le_value (hvalue : ∀ a, form a ≤ Value) (as : List α) : ∀ f ∈ as.map form, f ≤ Value := by
  intro f hf
  obtain ⟨a,-,rfl⟩ := List.mem_map.mp hf
  exact hvalue a

/-- One item is read, up to the mark behind it. -/
theorem exists_itemsOf_eq (hread : item.Reads (form a) a) (hvalue : form a ≤ Value)
    (h : (form a).Padded cs (m :: rest)) (hm : m ∈ [',',']','\x7d'])
    (hstart : nextItem acc.isEmpty start = nextItem true cs) :
    ∃ last, Gap last (m :: rest) ∧
      ∀ count, itemsOf item (count + 1) acc start = itemsOf item count (a :: acc) last := by
  obtain ⟨first,last,hbefore,hform,hafter⟩ := h
  obtain ⟨c,t,rfl,hblank,hclosing,-⟩ := (hvalue _ _ hform).exists_cons
  have hnext := nextItem_first (hbefore.skipBlanks_eq_cons hblank) hclosing
  have hitem := hread _ _ _ .none hform (hafter.follows (follows_mark hm))
  refine ⟨last,hafter,fun count => ?_⟩
  rw [itemsOf, hstart, hnext]
  dsimp only
  rw [hitem]

/-- The items are read one after the other, and the bracket behind the last one. Where reading goes on, in
front of the first item or of a comma, is told by the item that is found there. -/
theorem Items.itemsOf_eq (hread : ∀ a, item.Reads (form a) a) (hvalue : ∀ a, form a ≤ Value)
    (h : Items (as.map form) cs stop) (hcount : as.length < count)
    (hstart : nextItem acc.isEmpty start = nextItem true cs) :
    itemsOf item count acc start = .ok (acc.reverse ++ as,stop) := by
  induction as generalizing cs start acc count with
  | nil => cases h
  | cons a as ih =>
    obtain ⟨count,rfl⟩ := Nat.exists_eq_add_one.mpr (Nat.zero_lt_of_lt hcount)
    rw [List.length_cons] at hcount
    generalize hforms : (a :: as).map form = forms at h
    cases h with
    | last h =>
      obtain ⟨rfl,hnil⟩ := List.cons.inj hforms
      obtain rfl := List.map_eq_nil_iff.mp hnil
      obtain ⟨count,rfl⟩ := Nat.exists_eq_add_one.mpr (Nat.lt_of_succ_lt_succ hcount)
      obtain ⟨last,hlast,hone⟩ := exists_itemsOf_eq (hread a) (hvalue a) h (by decide) hstart
      rw [hone, itemsOf, List.isEmpty_cons, nextItem_close (hlast.skipBlanks_eq_cons (by decide)),
        List.reverse_cons]
    | more h hmore =>
      obtain ⟨rfl,rfl⟩ := List.cons.inj hforms
      obtain ⟨last,hlast,hone⟩ := exists_itemsOf_eq (hread a) (hvalue a) h (by decide) hstart
      obtain ⟨c,t,hmid,hclosing⟩ := hmore.exists_cons (map_le_value hvalue as)
      have hnext : nextItem (a :: acc).isEmpty last = nextItem true _ :=
        (nextItem_more (hlast.skipBlanks_eq_cons (by decide)) hmid hclosing).trans
          (nextItem_first hmid hclosing).symm
      rw [hone, ih hmore (Nat.lt_of_succ_lt_succ hcount) hnext, List.reverse_cons, List.append_assoc,
        List.singleton_append]

theorem readList_reads (hread : ∀ a, item.Reads (form a) a) (hvalue : ∀ a, form a ≤ Value)
    (as : List α) : (readList item).Reads (ListForm (as.map form)) as := by
  intro cs start stop hgap hform _
  generalize hforms : as.map form = forms at hform
  unfold readList
  cases hform with
  | @empty body _ h =>
    obtain rfl := List.map_eq_nil_iff.mp hforms
    have hnone : itemsOf item (body.length + 1) [] body = .ok ([],stop) := by
      rw [itemsOf, nextItem_close (h.skipBlanks_eq_cons (by decide))]
      rfl
    rw [hgap.skipBlanks_eq_cons (by decide)]
    exact hnone
  | items h =>
    subst hforms
    have hlength := h.length_le (map_le_value hvalue as)
    rw [List.length_map] at hlength
    rw [hgap.skipBlanks_eq_cons (by decide)]
    exact h.itemsOf_eq hread hvalue (by omega) rfl

theorem ValueItems.of_items (hvalue : ∀ form ∈ forms, form ≤ Value) (h : Items forms cs rest) :
    ValueItems cs rest := by
  induction h with
  | last h =>
    obtain ⟨first,last,hbefore,hform,hafter⟩ := h
    exact .last hbefore (hvalue _ List.mem_cons_self _ _ hform) hafter
  | more h _ ih =>
    obtain ⟨first,last,hbefore,hform,hafter⟩ := h
    exact .more hbefore (hvalue _ List.mem_cons_self _ _ hform) hafter
      (ih fun form hform => hvalue form (List.mem_cons_of_mem _ hform))

theorem listForm_le_value (hvalue : ∀ form ∈ forms, form ≤ Value) : ListForm forms ≤ Value := by
  intro cs rest h
  cases h with
  | empty h => exact .emptyArray h
  | items h => exact .array (.of_items hvalue h)

end Lists
end ValueInspector.Json
