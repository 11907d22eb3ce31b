import ValueInspector.Proofs.Json.Numerals

/-! # Skipping any value

A value that is not wanted is passed over in steps, with the brackets that are open on a stack. What
lies below the brackets of the value itself is not touched, and each step takes a character: so a value
is skipped within any text, and exactly to its end.
-/
namespace ValueInspector.Json

section Lengths
variable {cs rest stop : List Char} {c : Char}

theorem length_lt_of_skipBlanks (h : skipBlanks cs = c :: rest) : rest.length < cs.length := by
  have hlength := length_skipBlanks_le cs
  rw [h, List.length_cons] at hlength
  exact hlength

theorem skipBlanks_of_mark {m : Char} (h : mark m cs = .ok rest) : skipBlanks cs = m :: rest := by
  rw [mark] at h
  split at h
  · cases h
  next hcs =>
    split at h
    next hc =>
      cases h
      exact hc ▸ hcs
    · cases h

theorem length_of_mark {m : Char} (h : mark m cs = .ok rest) : rest.length < cs.length :=
  length_lt_of_skipBlanks (skipBlanks_of_mark h)

theorem length_of_skipKey (h : skipKey cs = .ok rest) : rest.length < cs.length := by
  obtain ⟨name,hquote,h⟩ := bind_eq_ok_iff.mp h
  obtain ⟨colon,hname,hcolon⟩ := bind_eq_ok_iff.mp h
  have hcs := length_of_mark hquote
  have hmid := length_of_skipStringBody hname
  have hrest := length_of_mark hcolon
  omega

theorem length_of_skipScalar (h : skipScalar c rest = .ok stop) : stop.length ≤ rest.length := by
  have hword : ∀ {ws : List Char}, word ws rest = .ok stop → stop.length ≤ rest.length := fun hw => by
    rw [length_of_word hw]
    exact Nat.le_add_left _ _
  rw [skipScalar] at h
  split at h
  · exact hword h
  split at h
  · exact hword h
  split at h
  · exact hword h
  split at h
  · exact Nat.le_of_lt (length_of_skipStringBody h)
  split at h
  · exact Nat.le_of_lt (length_of_skipNumber h)
  split at h
  · exact Nat.le_of_lt_succ (length_of_skipNumber h)
  · cases h

end Lengths

section Steps
variable {due due' : Bool} {inner inner' outer : List Bracket}
variable {cs start mid stop rest : List Char} {c : Char} {b : Bracket}

/-- One step: whether a value is due, the open brackets and the text, before and after. -/
inductive Step : Bool → List Bracket → List Char → Bool → List Bracket → List Char → Prop
  | scalar {inner : List Bracket} {cs rest stop : List Char} {c : Char} (hcs : skipBlanks cs = c :: rest)
    (hc : c ∉ ['[','\x7b']) (h : skipScalar c rest = .ok stop) : Step true inner cs false inner stop
  | emptyArray {inner : List Bracket} {cs rest stop : List Char} (hcs : skipBlanks cs = '[' :: rest)
    (h : skipBlanks rest = ']' :: stop) : Step true inner cs false inner stop
  | array {inner : List Bracket} {cs rest : List Char} (hcs : skipBlanks cs = '[' :: rest)
    (h : (skipBlanks rest).head? ≠ some ']') :
    Step true inner cs true (.array :: inner) (skipBlanks rest)
  | emptyObject {inner : List Bracket} {cs rest stop : List Char}
    (hcs : skipBlanks cs = '\x7b' :: rest) (h : skipBlanks rest = '\x7d' :: stop) :
    Step true inner cs false inner stop
  | object {inner : List Bracket} {cs rest stop : List Char} (hcs : skipBlanks cs = '\x7b' :: rest)
    (h : (skipBlanks rest).head? ≠ some '\x7d') (hkey : skipKey (skipBlanks rest) = .ok stop) :
    Step true inner cs true (.object :: inner) stop
  | close {b : Bracket} {inner : List Bracket} {cs rest : List Char}
    (hcs : skipBlanks cs = b.closing :: rest) : Step false (b :: inner) cs false inner rest
  | nextItem {inner : List Bracket} {cs rest : List Char} (hcs : skipBlanks cs = ',' :: rest) :
    Step false (.array :: inner) cs true (.array :: inner) rest
  | nextMember {inner : List Bracket} {cs rest stop : List Char} (hcs : skipBlanks cs = ',' :: rest)
    (hkey : skipKey rest = .ok stop) : Step false (.object :: inner) cs true (.object :: inner) stop

/-- A step does not look below the brackets it finds open. -/
theorem Step.frame (h : Step due inner cs due' inner' rest) (outer : List Bracket) :
    Step due (inner ++ outer) cs due' (inner' ++ outer) rest := by
  cases h with
  | scalar hcs hc h => exact .scalar hcs hc h
  | emptyArray hcs h => exact .emptyArray hcs h
  | array hcs h => exact .array hcs h
  | emptyObject hcs h => exact .emptyObject hcs h
  | object hcs h hkey => exact .object hcs h hkey
  | close hcs => exact .close hcs
  | nextItem hcs => exact .nextItem hcs
  | nextMember hcs hkey => exact .nextMember hcs hkey

theorem Step.length_lt (h : Step due inner cs due' inner' rest) : rest.length < cs.length := by
  cases h with
  | scalar hcs _ h => exact Nat.lt_of_le_of_lt (length_of_skipScalar h) (length_lt_of_skipBlanks hcs)
  | emptyArray hcs h => exact Nat.lt_trans (length_lt_of_skipBlanks h) (length_lt_of_skipBlanks hcs)
  | array hcs _ => exact Nat.lt_of_le_of_lt (length_skipBlanks_le _) (length_lt_of_skipBlanks hcs)
  | emptyObject hcs h => exact Nat.lt_trans (length_lt_of_skipBlanks h) (length_lt_of_skipBlanks hcs)
  | object hcs _ hkey =>
    have hmid := Nat.lt_of_lt_of_le (length_of_skipKey hkey) (length_skipBlanks_le _)
    exact Nat.lt_trans hmid (length_lt_of_skipBlanks hcs)
  | close hcs => exact length_lt_of_skipBlanks hcs
  | nextItem hcs => exact length_lt_of_skipBlanks hcs
  | nextMember hcs hkey => exact Nat.lt_trans (length_of_skipKey hkey) (length_lt_of_skipBlanks hcs)

theorem Step.skipOpen_eq (h : Step due inner cs due' inner' rest) (n : Nat) :
    skipOpen (n + 1) due inner cs = skipOpen n due' inner' rest := by
  cases h with
  | scalar hcs hc h =>
    simp only [List.mem_cons, List.not_mem_nil, or_false, not_or] at hc
    rw [skipOpen, hcs]
    dsimp only
    rw [if_neg hc.1, if_neg hc.2, h]
  | emptyArray hcs h =>
    rw [skipOpen, hcs]
    dsimp only
    rw [if_pos rfl, h]
    rfl
  | array hcs h =>
    rw [skipOpen, hcs]
    dsimp only
    rw [if_pos rfl]
    split
    next heq => exact absurd (congrArg List.head? heq) h
    · rfl
  | emptyObject hcs h =>
    rw [skipOpen, hcs]
    dsimp only
    rw [if_neg (by decide), if_pos rfl, h]
    rfl
  | object hcs h hkey =>
    rw [skipOpen, hcs]
    dsimp only
    rw [if_neg (by decide), if_pos rfl]
    split
    next heq => exact absurd (congrArg List.head? heq) h
    · rw [hkey]
  | @close b _ _ _ hcs =>
    have hcomma : b.closing ≠ ',' := by cases b <;> decide
    rw [skipOpen, hcs]
    dsimp only
    rw [if_neg hcomma, if_pos rfl]
  | nextItem hcs =>
    rw [skipOpen, hcs]
    dsimp only
    rw [if_pos rfl]
  | nextMember hcs hkey =>
    rw [skipOpen, hcs]
    dsimp only
    rw [if_pos rfl, hkey]

/-- Blanks in front of a text do not matter. -/
theorem Step.of_blanks (hblanks : skipBlanks start = skipBlanks cs)
    (h : Step due inner cs due' inner' rest) : Step due inner start due' inner' rest := by
  cases h with
  | scalar hcs hc h => exact .scalar (hblanks.trans hcs) hc h
  | emptyArray hcs h => exact .emptyArray (hblanks.trans hcs) h
  | array hcs h => exact .array (hblanks.trans hcs) h
  | emptyObject hcs h => exact .emptyObject (hblanks.trans hcs) h
  | object hcs h hkey => exact .object (hblanks.trans hcs) h hkey
  | close hcs => exact .close (hblanks.trans hcs)
  | nextItem hcs => exact .nextItem (hblanks.trans hcs)
  | nextMember hcs hkey => exact .nextMember (hblanks.trans hcs) hkey

/-- What goes on after a value, with a bracket open, is a step. -/
theorem exists_step_of_open {n : Nat} (h : skipOpen (n + 1) false (b :: inner) cs = .ok stop) :
    ∃ due inner' rest,
      Step false (b :: inner) cs due inner' rest ∧ skipOpen n due inner' rest = .ok stop := by
  rw [skipOpen] at h
  split at h
  · cases h
  next c rest hcs =>
    split at h
    next hcomma =>
      subst hcomma
      cases b with
      | array => exact ⟨_,_,_,.nextItem hcs,h⟩
      | object =>
        dsimp only at h
        split at h
        next hkey => exact ⟨_,_,_,.nextMember hcs hkey,h⟩
        · cases h
    · split at h
      next hclosing => exact ⟨_,_,_,.close (hclosing ▸ hcs),h⟩
      · cases h

theorem exists_step_of_due {n : Nat} (h : skipOpen (n + 1) true inner cs = .ok stop) :
    ∃ due inner' rest, Step true inner cs due inner' rest ∧ skipOpen n due inner' rest = .ok stop := by
  rw [skipOpen] at h
  split at h
  · cases h
  next c rest hcs =>
    split at h
    next harray =>
      subst harray
      split at h
      next hclosing => exact ⟨_,_,_,.emptyArray hcs hclosing,h⟩
      next hclosing =>
        exact ⟨_,_,_,.array hcs fun hhead => by
          obtain ⟨t,ht⟩ := List.head?_eq_some_iff.mp hhead
          exact hclosing t ht,h⟩
    next harray =>
      split at h
      next hobject =>
        subst hobject
        split at h
        next hclosing => exact ⟨_,_,_,.emptyObject hcs hclosing,h⟩
        next hclosing =>
          split at h
          next hkey =>
            exact ⟨_,_,_,.object hcs (fun hhead => by
              obtain ⟨t,ht⟩ := List.head?_eq_some_iff.mp hhead
              exact hclosing t ht) hkey,h⟩
          · cases h
      next hobject =>
        split at h
        next hscalar => exact ⟨_,_,_,.scalar hcs (by simp [harray, hobject]) hscalar,h⟩
        · cases h

/-- Steps from the first to the one after which nothing is open and no value due. -/
inductive Skips : Bool → List Bracket → Form
  | done {cs : List Char} : Skips false [] cs cs
  | step {due due' : Bool} {inner inner' : List Bracket} {cs mid stop : List Char}
    (h : Step due inner cs due' inner' mid) (hrest : Skips due' inner' mid stop) :
    Skips due inner cs stop

theorem Skips.of_blanks (hblanks : skipBlanks start = skipBlanks cs) (h : Skips true inner cs stop) :
    Skips true inner start stop := by
  cases h with
  | step h hrest => exact .step (h.of_blanks hblanks) hrest

theorem Skips.append (h : Skips due inner cs mid) (hrest : Skips false outer mid stop) :
    Skips due (inner ++ outer) cs stop := by
  induction h with
  | done => exact hrest
  | step h _ ih => exact .step (h.frame outer) (ih hrest)

theorem Skips.length_le (h : Skips due inner cs stop) : stop.length ≤ cs.length := by
  induction h with
  | done => exact Nat.le_refl _
  | step h _ ih => exact Nat.le_trans ih (Nat.le_of_lt h.length_lt)

theorem Skips.skipOpen_eq {count : Nat} (h : Skips due inner cs stop) (hcount : cs.length < count) :
    skipOpen count due inner cs = .ok stop := by
  -- A step takes a character at least, so the count is not used up before the run has ended.
  induction h generalizing count with
  | done =>
    obtain ⟨n,rfl⟩ := Nat.exists_eq_add_of_lt hcount
    rw [skipOpen]
  | step h _ ih =>
    obtain ⟨n,rfl⟩ := Nat.exists_eq_add_of_lt hcount
    rw [h.skipOpen_eq]
    exact ih (Nat.lt_of_lt_of_le h.length_lt (Nat.le_add_right _ _))

theorem skips_of_skipOpen {count : Nat} (h : skipOpen count due inner cs = .ok stop) :
    Skips due inner cs stop := by
  induction count generalizing due inner cs with
  | zero => cases due <;> cases h
  | succ n ih =>
    cases due with
    | true =>
      obtain ⟨_,_,_,hstep,hrest⟩ := exists_step_of_due h
      exact .step hstep (ih hrest)
    | false =>
      cases inner with
      | nil =>
        rw [skipOpen] at h
        exact Except.ok.inj h ▸ .done
      | cons b inner =>
        obtain ⟨_,_,_,hstep,hrest⟩ := exists_step_of_open h
        exact .step hstep (ih hrest)

theorem skipValue_eq_ok_iff : skipValue cs = .ok stop ↔ Skips true [] cs stop :=
  ⟨skips_of_skipOpen,fun h => h.skipOpen_eq (Nat.lt_succ_of_lt (Nat.lt_succ_self _))⟩

/-- A value has one end. -/
theorem Skips.eq (h : Skips true [] cs stop) (h' : Skips true [] cs rest) : stop = rest :=
  Except.ok.inj ((skipValue_eq_ok_iff.mpr h).symm.trans (skipValue_eq_ok_iff.mpr h'))

end Steps

section Values
variable {cs rest start mid stop : List Char} {c : Char} {b : Bracket}

/-- A value begins with no blank, and does not close a bracket. -/
theorem Value.exists_cons (h : Value cs rest) :
    ∃ c t, cs = c :: t ∧ isBlank c = false ∧ c ≠ ']' ∧ c ≠ '\x7d' := by
  cases h with
  | null => exact ⟨'n',_,rfl,by decide⟩
  | bool b =>
    cases b with
    | false => exact ⟨'f',_,rfl,by decide⟩
    | true => exact ⟨'t',_,rfl,by decide⟩
  | number h =>
    obtain ⟨c,t,rfl,rfl | hdigit⟩ := h.exists_cons
    · exact ⟨'-',_,rfl,by decide⟩
    · exact ⟨c,_,rfl,isBlank_of_isDigit hdigit,ne_of_isDigit hdigit rfl,ne_of_isDigit hdigit rfl⟩
  | string _ => exact ⟨'"',_,rfl,by decide⟩
  | emptyArray _ => exact ⟨'[',_,rfl,by decide⟩
  | array _ => exact ⟨'[',_,rfl,by decide⟩
  | emptyObject _ => exact ⟨'\x7b',_,rfl,by decide⟩
  | object _ => exact ⟨'\x7b',_,rfl,by decide⟩

theorem skipKey_skipBlanks (cs : List Char) : skipKey (skipBlanks cs) = skipKey cs := by
  unfold skipKey mark
  rw [← (gap_skipBlanks cs).skipBlanks_eq]

theorem LooseName.skipKey_eq (h : LooseName cs rest) : skipKey cs = .ok rest := by
  obtain ⟨name,colon,hquote,hname,hcolon⟩ := h
  exact bind_eq_ok_iff.mpr ⟨_,hquote.mark_eq (by decide),
    bind_eq_ok_iff.mpr ⟨_,hname.skipStringBody_eq,hcolon.mark_eq (by decide)⟩⟩

theorem LooseName.head?_ne (h : LooseName cs rest) : (skipBlanks cs).head? ≠ some '\x7d' := by
  obtain ⟨name,colon,hquote,-,-⟩ := h
  rw [hquote.skipBlanks_eq_cons (by decide)]
  simp

theorem Skips.of_scalar (hblank : isBlank c = false) (hc : c ∉ ['[','\x7b'])
    (h : skipScalar c rest = .ok stop) : Skips true [] (c :: rest) stop :=
  .step (.scalar (skipBlanks_cons hblank) hc h) .done

mutual

/-- A value is skipped within any text, where no digit or point can be taken for a part of it. -/
theorem Value.skips : ∀ {cs stop : List Char}, Value cs stop → Follows stop → Skips true [] cs stop
  | _, _, .null, _ => .of_scalar (by decide) (by decide) rfl
  | _, _, .bool false, _ => .of_scalar (by decide) (by decide) rfl
  | _, _, .bool true, _ => .of_scalar (by decide) (by decide) rfl
  | _, _, .number h, hstop => by
    obtain ⟨c,t,rfl,hc⟩ := h.exists_cons
    have hopen : isBlank c = false ∧ c ∉ ['[','\x7b'] := by
      rcases hc with rfl | hdigit
      · decide
      · have harray : c ≠ '[' := ne_of_isDigit hdigit rfl
        have hobject : c ≠ '\x7b' := ne_of_isDigit hdigit rfl
        exact ⟨isBlank_of_isDigit hdigit,by simp [harray, hobject]⟩
    exact .of_scalar hopen.1 hopen.2 (h.skipScalar_eq hstop)
  | _, _, .string h, _ => .of_scalar (by decide) (by decide) h.skipStringBody_eq
  | _, _, .emptyArray h, _ =>
    .step (.emptyArray (skipBlanks_cons (by decide)) (h.skipBlanks_eq_cons (by decide))) .done
  | _, _, .array h, _ => by
    obtain ⟨hhead,hskips⟩ := h.skips
    exact .step (.array (skipBlanks_cons (by decide)) hhead)
      (hskips.of_blanks (gap_skipBlanks _).skipBlanks_eq.symm)
  | _, _, .emptyObject h, _ =>
    .step (.emptyObject (skipBlanks_cons (by decide)) (h.skipBlanks_eq_cons (by decide))) .done
  | _, _, .object h, _ => by
    obtain ⟨value,hname,hskips⟩ := h.skips
    exact .step (.object (skipBlanks_cons (by decide)) hname.head?_ne
      ((skipKey_skipBlanks _).trans hname.skipKey_eq)) hskips

/-- The items are skipped from the first one on, which is not the bracket that closes the array. -/
theorem ValueItems.skips : ∀ {cs stop : List Char}, ValueItems cs stop →
    (skipBlanks cs).head? ≠ some ']' ∧ Skips true [.array] cs stop
  | _, _, .last hbefore h hafter => by
    have hskips := (h.skips (hafter.follows (follows_mark (by decide)))).of_blanks hbefore.skipBlanks_eq
    obtain ⟨c,t,rfl,hblank,hclosing,-⟩ := h.exists_cons
    rw [hbefore.skipBlanks_eq_cons hblank]
    refine ⟨fun heq => hclosing (Option.some.inj heq),hskips.append ?_⟩
    exact .step (.close (hafter.skipBlanks_eq_cons (by decide))) .done
  | _, _, .more hbefore h hafter hmore => by
    have hskips := (h.skips (hafter.follows (follows_mark (by decide)))).of_blanks hbefore.skipBlanks_eq
    obtain ⟨c,t,rfl,hblank,hclosing,-⟩ := h.exists_cons
    rw [hbefore.skipBlanks_eq_cons hblank]
    refine ⟨fun heq => hclosing (Option.some.inj heq),hskips.append ?_⟩
    exact .step (.nextItem (hafter.skipBlanks_eq_cons (by decide))) hmore.skips.2

theorem ValueMembers.skips : ∀ {cs stop : List Char}, ValueMembers cs stop →
    ∃ value, LooseName cs value ∧ Skips true [.object] value stop
  | _, _, .last hname hbefore h hafter => by
    have hskips := (h.skips (hafter.follows (follows_mark (by decide)))).of_blanks hbefore.skipBlanks_eq
    refine ⟨_,hname,hskips.append ?_⟩
    exact .step (.close (hafter.skipBlanks_eq_cons (by decide))) .done
  | _, _, .more hname hbefore h hafter hmore => by
    have hskips := (h.skips (hafter.follows (follows_mark (by decide)))).of_blanks hbefore.skipBlanks_eq
    obtain ⟨value,hnext,hrest⟩ := hmore.skips
    refine ⟨_,hname,hskips.append ?_⟩
    exact .step (.nextMember (hafter.skipBlanks_eq_cons (by decide)) hnext.skipKey_eq) hrest

end

end Values
end ValueInspector.Json
