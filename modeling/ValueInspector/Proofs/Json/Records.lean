import Mathlib.Data.List.Nodup
import Mathlib.Data.List.Pairwise
import Mathlib.Data.List.Perm.Basic
import Mathlib.Logic.Function.Conjugate
import ValueInspector.Proofs.Json.Readers

/-! # What the record reader takes

The members of an object update a record one after the other. An unknown name may stand for any value
and changes nothing; a known name is taken once. On the text of an object whose members are values, the
record is read if and only if the known names are distinct and the value of each is read.
-/
namespace ValueInspector.Json

section Members
variable {cs start mid rest stop name value : List Char} {first : Bool}

theorem nextMember_first (h : skipBlanks cs = '"' :: name) : nextMember true cs = .ok (some name,[]) := by
  rw [nextMember, h]
  rfl

theorem nextMember_more (h : skipBlanks cs = ',' :: mid) (hmid : skipBlanks mid = '"' :: name) :
    nextMember false cs = .ok (some name,[]) := by
  rw [nextMember, h]
  dsimp only
  rw [if_neg (by decide), if_neg (by decide), if_pos rfl, hmid]
  rfl

theorem nextMember_close (h : skipBlanks cs = '\x7d' :: rest) : nextMember first cs = .ok (none,rest) := by
  rw [nextMember, h]
  exact if_pos rfl

theorem nextMember_cases {next : Option (List Char)} {left : List Char}
    (h : nextMember first cs = .ok (next,left)) :
    next = none ∧ skipBlanks cs = '\x7d' :: left ∨
      ∃ name, next = some name ∧
        if first then skipBlanks cs = '"' :: name
        else ∃ mid, skipBlanks cs = ',' :: mid ∧ skipBlanks mid = '"' :: name := by
  rw [nextMember] at h
  split at h
  · cases h
  next c rest hcs =>
    split at h
    next hclosing =>
      cases h
      exact .inl ⟨rfl,hclosing ▸ hcs⟩
    · split at h
      next hfirst =>
        split at h
        next hquote =>
          cases h
          exact .inr ⟨rest,rfl,by rw [if_pos hfirst]; exact hquote ▸ hcs⟩
        · cases h
      next hfirst =>
        split at h
        next hcomma =>
          subst hcomma
          split at h
          · cases h
          next d rest hmid =>
            split at h
            next hquote =>
              cases h
              exact .inr ⟨rest,rfl,by rw [if_neg hfirst]; exact ⟨_,hcs,hquote ▸ hmid⟩⟩
            · cases h
        · cases h

/-- What is left of an object: all behind its bracket, or what follows one of its members. -/
def ObjectRest : Bool → Form
  | true => fun cs => Skips true [] ('\x7b' :: cs)
  | false => Skips false [.object]

theorem ObjectRest.of_none (h : nextMember first cs = .ok (none,rest)) : ObjectRest first cs rest := by
  rcases nextMember_cases h with ⟨-,hcs⟩ | ⟨_,hnext,-⟩
  · cases first with
    | true => exact .step (.emptyObject (skipBlanks_cons (by decide)) hcs) .done
    | false => exact .step (.close hcs) .done
  · cases hnext

theorem ObjectRest.of_some {left : List Char} (h : nextMember first cs = .ok (some name,left))
    (hkey : skipKey ('"' :: name) = .ok value) (hvalue : Skips true [] value mid)
    (hrest : ObjectRest false mid stop) : ObjectRest first cs stop := by
  rcases nextMember_cases h with ⟨hnext,-⟩ | ⟨_,hnext,hcs⟩
  · cases hnext
  cases hnext
  have hrun : Skips true [.object] value stop := hvalue.append hrest
  cases first with
  | true =>
    have hcs : skipBlanks cs = '"' :: name := hcs
    have hhead : (skipBlanks cs).head? ≠ some '\x7d' := by simp [hcs]
    exact .step (.object (skipBlanks_cons (by decide)) hhead (hcs ▸ hkey)) hrun
  | false =>
    obtain ⟨mid,hcomma,hmid⟩ := hcs
    rw [← hmid, skipKey_skipBlanks] at hkey
    exact .step (.nextMember hcomma hkey) hrun

end Members

section Fields
variable {σ : Type} {fields : List (RecordField σ)} {acc acc' : σ} {seen seen' : List String}
variable {cs start rest stop name last : List Char} {first : Bool}

/-- A member is taken if its name is unknown and its value can be skipped, or if its name is known, not
seen before, and its value is read. -/
theorem recordMember_eq_ok_iff : recordMember fields seen acc name = .ok ((seen',acc'),last) ↔
    ∃ text colon value, stringBody name = .ok (text,colon) ∧ mark ':' colon = .ok value ∧
      (fields.find? (·.name = text) = none ∧ skipValue value = .ok last ∧ seen = seen' ∧ acc = acc' ∨
        ∃ f update, fields.find? (·.name = text) = some f ∧ text ∉ seen ∧
          f.read value = .ok (update,last) ∧ text :: seen = seen' ∧ update acc = acc') := by
  unfold recordMember
  rw [bind_eq_ok_iff]
  constructor
  · rintro ⟨⟨text,colon⟩,htext,h⟩
    dsimp only at h
    split at h
    next hnone =>
      obtain ⟨value,hvalue,h⟩ := bind_eq_ok_iff.mp h
      obtain ⟨left,hskip,h⟩ := bind_eq_ok_iff.mp h
      cases h
      exact ⟨text,colon,value,htext,hvalue,.inl ⟨hnone,hskip,rfl,rfl⟩⟩
    next f hsome =>
      split at h
      · cases h
      next hseen =>
        obtain ⟨value,hvalue,h⟩ := bind_eq_ok_iff.mp h
        obtain ⟨⟨update,left⟩,hread,h⟩ := bind_eq_ok_iff.mp h
        cases h
        exact ⟨text,colon,value,htext,hvalue,.inr ⟨f,update,hsome,hseen,hread,rfl,rfl⟩⟩
  · rintro ⟨text,colon,value,htext,hvalue,⟨hnone,hskip,rfl,rfl⟩ | ⟨f,update,hsome,hseen,hread,rfl,rfl⟩⟩
    · refine ⟨_,htext,?_⟩
      dsimp only
      rw [hnone]
      exact bind_eq_ok_iff.mpr ⟨_,hvalue,bind_eq_ok_iff.mpr ⟨_,hskip,rfl⟩⟩
    · refine ⟨_,htext,?_⟩
      dsimp only
      rw [hsome]
      dsimp only
      rw [if_neg hseen]
      exact bind_eq_ok_iff.mpr ⟨_,hvalue,bind_eq_ok_iff.mpr ⟨_,hread,rfl⟩⟩

theorem skipKey_of_stringBody {text : String} {colon value : List Char}
    (htext : stringBody name = .ok (text,colon)) (hvalue : mark ':' colon = .ok value) :
    skipKey ('"' :: name) = .ok value :=
  bind_eq_ok_iff.mpr ⟨name,Gap.none.mark_eq (by decide),
    bind_eq_ok_iff.mpr ⟨colon,skipStringBody_of_stringFrom htext,hvalue⟩⟩

/-- The members take a whole object if the values of the fields are whole values. -/
theorem recordMembers_objectRest (htakes : ∀ f ∈ fields, f.read.TakesValues) {count : Nat}
    (h : recordMembers fields count seen first acc cs = .ok (acc',rest)) : ObjectRest first cs rest := by
  induction count generalizing seen first acc cs with
  | zero => cases h
  | succ count ih =>
    rw [recordMembers] at h
    split at h
    · cases h
    next hnext =>
      cases h
      exact .of_none hnext
    next hnext =>
      split at h
      · cases h
      next hmember =>
        obtain ⟨text,colon,value,htext,hvalue,hmember⟩ := recordMember_eq_ok_iff.mp hmember
        refine .of_some hnext (skipKey_of_stringBody htext hvalue) ?_ (ih h)
        rcases hmember with ⟨-,hskip,-,-⟩ | ⟨f,update,hsome,-,hread,-,-⟩
        · exact skipValue_eq_ok_iff.mp hskip
        · exact htakes f (List.mem_of_find?_eq_some hsome) _ _ _ hread

theorem recordItems_arrayRest (htakes : ∀ f ∈ fields, f.read.TakesValues)
    (h : recordItems fields first acc cs = .ok (acc',rest)) : ArrayRest first cs rest := by
  induction fields generalizing first acc cs with
  | nil =>
    obtain ⟨left,hclose,heq⟩ := map_eq_ok_iff.mp h
    cases heq
    exact .of_close (skipBlanks_of_mark hclose)
  | cons f fields ih =>
    obtain ⟨hread,htakes⟩ := List.forall_mem_cons.mp htakes
    rw [recordItems] at h
    split at h
    · cases h
    next hnext =>
      cases h
      exact .of_none hnext
    next hnext =>
      split at h
      · cases h
      next hupdate => exact .of_some hnext (hread _ _ _ hupdate) (ih htakes h)

theorem readRecord_takesValues (htakes : ∀ f ∈ fields, f.read.TakesValues) (defaults : σ) :
    (readRecord fields defaults).TakesValues := by
  intro cs a rest h
  unfold readRecord at h
  split at h
  next hcs =>
    have hrun := recordItems_arrayRest htakes h
    exact Skips.of_blanks (hcs.trans (skipBlanks_cons (by decide)).symm) hrun
  next hcs =>
    have hrun := recordMembers_objectRest htakes h
    exact Skips.of_blanks (hcs.trans (skipBlanks_cons (by decide)).symm) hrun
  · cases h

theorem field_takesValues {α : Type} {reader : Reader α} (h : reader.TakesValues) (name : String)
    (store : α → σ → σ) : (field name reader store).read.TakesValues := by
  intro cs update rest hread
  obtain ⟨⟨a,left⟩,ha,heq⟩ := bind_eq_ok_iff.mp hread
  cases heq
  exact h _ _ _ ha

theorem field_reads {α : Type} {reader : Reader α} {form : Form} {a : α} (h : reader.Reads form a)
    (name : String) (store : α → σ → σ) : (field name reader store).read.Reads form (store a) := by
  intro cs start stop hgap hform hstop
  exact bind_eq_ok_iff.mpr ⟨_,h cs start stop hgap hform hstop,rfl⟩

end Fields

section Objects
variable {σ : Type} {fields : List (RecordField σ)} {acc a : σ} {seen : List String}
variable {m : String × Form} {ms : List (String × Form)} {us : List (σ → σ)} {update : σ → σ}
variable {cs start rest stop : List Char} {first : Bool} {count : Nat}

/-- The known ones among the names of members. -/
def knownNames (fields : List (RecordField σ)) (ms : List (String × Form)) : List String :=
  (ms.map (·.1)).filter (· ∈ fields.map (·.name))

/-- A member whose value updates the record, or whose name is unknown and whose value may be any. -/
inductive Gives (fields : List (RecordField σ)) : String × Form → (σ → σ) → Prop
  | known {f : RecordField σ} {name : String} {form : Form} {update : σ → σ} (hvalue : form ≤ Value)
    (hfind : fields.find? (·.name = name) = some f) (hread : f.read.Reads form update) :
    Gives fields (name,form) update
  | unknown {name : String} {form : Form} (hvalue : form ≤ Value)
    (hfind : fields.find? (·.name = name) = none) : Gives fields (name,form) id

theorem knownNames_cons (m : String × Form) (ms : List (String × Form)) :
    knownNames fields (m :: ms) = knownNames fields [m] ++ knownNames fields ms := by
  rw [knownNames, List.map_cons, ← List.singleton_append, List.filter_append]
  rfl

theorem knownNames_of_some {f : RecordField σ} (h : fields.find? (·.name = m.1) = some f) :
    knownNames fields [m] = [m.1] := by
  have hname : f.name = m.1 := by simpa using List.find?_some h
  have hmem : m.1 ∈ fields.map (·.name) := hname ▸ List.mem_map_of_mem (List.mem_of_find?_eq_some h)
  exact List.filter_cons_of_pos (decide_eq_true hmem)

theorem knownNames_of_none (h : fields.find? (·.name = m.1) = none) : knownNames fields [m] = [] := by
  have hmem : m.1 ∉ fields.map (·.name) := by simpa using h
  exact List.filter_cons_of_neg (by simpa using hmem)

/-- The parts of a member, as they are met one after the other. -/
theorem MemberForm.exists_parts (h : MemberForm m cs rest) : ∃ name colon value start stop,
    nextMember true cs = .ok (some name,[]) ∧ stringBody name = .ok (m.1,colon) ∧
      mark ':' colon = .ok value ∧ Gap value start ∧ m.2 start stop ∧ Gap stop rest := by
  obtain ⟨value,⟨name,colon,hquote,hname,hcolon⟩,start,stop,hbefore,hform,hafter⟩ := h
  refine ⟨name,colon,value,start,stop,?_,?_,hcolon.mark_eq (by decide),hbefore,hform,hafter⟩
  · exact nextMember_first (hquote.skipBlanks_eq_cons (by decide))
  · exact hname.stringBody_eq.trans (by rw [String.ofList_toList])

/-- One member is taken, up to the mark behind it. -/
theorem Gives.exists_recordMembers_eq {mk : Char} (hgives : Gives fields m update)
    (h : MemberForm m cs (mk :: rest)) (hmk : mk ∈ [',',']','\x7d'])
    (hseen : ∀ n ∈ knownNames fields [m], n ∉ seen) (hstart : nextMember first start = nextMember true cs) :
    ∃ last, Gap last (mk :: rest) ∧
      ∀ count, recordMembers fields (count + 1) seen first acc start =
        recordMembers fields count (knownNames fields [m] ++ seen) false (update acc) last := by
  obtain ⟨name,colon,value,first,last,hnext,htext,hcolon,hbefore,hform,hafter⟩ := h.exists_parts
  have hlast := hafter.follows (follows_mark hmk)
  refine ⟨last,hafter,fun count => ?_⟩
  have hmember : recordMember fields seen acc name =
      .ok ((knownNames fields [m] ++ seen,update acc),last) := by
    refine recordMember_eq_ok_iff.mpr ⟨m.1,colon,value,htext,hcolon,?_⟩
    cases hgives with
    | known hvalue hfind hread =>
      rw [knownNames_of_some hfind] at hseen ⊢
      exact .inr ⟨_,update,hfind,hseen _ List.mem_cons_self,hread _ _ _ hbefore hform hlast,rfl,rfl⟩
    | unknown hvalue hfind =>
      have hskips := ((hvalue _ _ hform).skips hlast).of_blanks hbefore.skipBlanks_eq
      rw [knownNames_of_none hfind]
      exact .inl ⟨hfind,skipValue_eq_ok_iff.mpr hskips,rfl,rfl⟩
  rw [recordMembers, hstart, hnext]
  dsimp only
  rw [hmember]

/-- Where a member has been taken, its name was not taken before and its value can be read. -/
theorem exists_of_recordMembers_eq_ok {mk : Char} (hvalue : m.2 ≤ Value)
    (htakes : ∀ f ∈ fields, f.read.TakesValues) (h : MemberForm m cs (mk :: rest))
    (hmk : mk ∈ [',',']','\x7d']) (hstart : nextMember first start = nextMember true cs)
    (hok : recordMembers fields (count + 1) seen first acc start = .ok (a,stop)) :
    (∀ n ∈ knownNames fields [m], n ∉ seen) ∧
      (∀ f, fields.find? (·.name = m.1) = some f → ¬f.read.Refuses m.2) ∧
      ∃ acc last, Gap last (mk :: rest) ∧
        recordMembers fields count (knownNames fields [m] ++ seen) false acc last = .ok (a,stop) := by
  obtain ⟨name,colon,value,first,last,hnext,htext,hcolon,hbefore,hform,hafter⟩ := h.exists_parts
  have hlast := hafter.follows (follows_mark hmk)
  rw [recordMembers, hstart, hnext] at hok
  dsimp only at hok
  split at hok
  · cases hok
  next seen' acc' left hmember =>
    obtain ⟨text,_,_,htext',hcolon',hmember⟩ := recordMember_eq_ok_iff.mp hmember
    cases htext.symm.trans htext'
    cases hcolon.symm.trans hcolon'
    rcases hmember with ⟨hfind,hskip,rfl,rfl⟩ | ⟨f,update,hfind,hseen,hread,rfl,rfl⟩
    · have hskips := ((hvalue _ _ hform).skips hlast).of_blanks hbefore.skipBlanks_eq
      obtain rfl := hskips.eq (skipValue_eq_ok_iff.mp hskip)
      rw [knownNames_of_none hfind]
      exact ⟨fun _ hn => absurd hn List.not_mem_nil,fun f hf => by simp [hfind] at hf,_,_,hafter,hok⟩
    · obtain rfl := (htakes f (List.mem_of_find?_eq_some hfind)).stops hbefore (hvalue _ _ hform) hlast hread
      rw [knownNames_of_some hfind]
      refine ⟨fun n hn => List.mem_singleton.mp hn ▸ hseen,fun g hg hrefuses => ?_,_,_,hafter,hok⟩
      cases hfind.symm.trans hg
      obtain ⟨fault,hfault⟩ := hrefuses _ _ _ hbefore hform hlast
      cases hread.symm.trans hfault

theorem Members.skipBlanks_eq (h : Members ms cs rest) : ∃ name, skipBlanks cs = '"' :: name := by
  cases h with
  | last h =>
    obtain ⟨_,⟨name,_,hquote,_⟩,_⟩ := h
    exact ⟨name,hquote.skipBlanks_eq_cons (by decide)⟩
  | more h _ =>
    obtain ⟨_,⟨name,_,hquote,_⟩,_⟩ := h
    exact ⟨name,hquote.skipBlanks_eq_cons (by decide)⟩

theorem Members.nextMember_eq (h : Members ms cs rest) (hcomma : Gap start (',' :: cs)) :
    nextMember false start = nextMember true cs := by
  obtain ⟨name,hname⟩ := h.skipBlanks_eq
  rw [nextMember_more (hcomma.skipBlanks_eq_cons (by decide)) hname, nextMember_first hname]

/-- It is one and the same whether a name is still to come or was seen. -/
theorem nodup_knownNames_cons_iff : (knownNames fields (m :: ms) ++ seen).Nodup ↔
    (knownNames fields ms ++ (knownNames fields [m] ++ seen)).Nodup := by
  rw [knownNames_cons, List.append_assoc]
  exact (List.perm_append_comm_assoc _ _ _).nodup_iff

theorem nodup_knownNames_singleton (hseen : seen.Nodup) (h : ∀ n ∈ knownNames fields [m], n ∉ seen) :
    (knownNames fields [m] ++ seen).Nodup :=
  ((List.nodup_singleton m.1).sublist List.filter_sublist).append hseen fun _ hn hmem => h _ hn hmem

/-- The members are taken one after the other, and the bracket behind the last one. -/
theorem Members.recordMembers_eq (h : Members ms cs stop) (hgives : List.Forall₂ (Gives fields) ms us)
    (hcount : ms.length < count) (hnodup : (knownNames fields ms ++ seen).Nodup)
    (hstart : nextMember first start = nextMember true cs) :
    recordMembers fields count seen first acc start = .ok (us.foldl (fun r u => u r) acc,stop) := by
  obtain ⟨count,rfl⟩ := Nat.exists_eq_add_one.mpr (Nat.zero_lt_of_lt hcount)
  -- The known names still to come and those that were seen stay distinct.
  induction h generalizing us start first count seen acc with
  | last h =>
    obtain ⟨u,us,hu,hus,rfl⟩ := List.forall₂_cons_left_iff.mp hgives
    cases hus
    obtain ⟨count,rfl⟩ := Nat.exists_eq_add_one.mpr (Nat.lt_of_succ_lt_succ hcount)
    have hseen := fun n hn => List.disjoint_of_nodup_append hnodup (a := n) hn
    obtain ⟨last,hlast,hone⟩ := hu.exists_recordMembers_eq h (by decide) hseen hstart
    rw [hone, recordMembers, nextMember_close (hlast.skipBlanks_eq_cons (by decide))]
    rfl
  | more h hmore ih =>
    obtain ⟨u,us,hu,hus,rfl⟩ := List.forall₂_cons_left_iff.mp hgives
    have hcount := Nat.lt_of_succ_lt_succ hcount
    obtain ⟨count,rfl⟩ := Nat.exists_eq_add_one.mpr (Nat.zero_lt_of_lt hcount)
    have hnext := nodup_knownNames_cons_iff.mp hnodup
    have hseen := fun n hn => List.disjoint_of_nodup_append (List.nodup_append.mp hnext).2.1 (a := n) hn
    obtain ⟨last,hlast,hone⟩ := hu.exists_recordMembers_eq h (by decide) hseen hstart
    rw [hone, ih hus hnext (hmore.nextMember_eq hlast) _ hcount]
    rfl

/-- Where the members have been taken, the known names are distinct and their values can be read. -/
theorem Members.of_recordMembers (h : Members ms cs rest) (hvalue : ∀ m ∈ ms, m.2 ≤ Value)
    (htakes : ∀ f ∈ fields, f.read.TakesValues) (hseen : seen.Nodup)
    (hstart : nextMember first start = nextMember true cs)
    (hok : recordMembers fields count seen first acc start = .ok (a,stop)) :
    (knownNames fields ms ++ seen).Nodup ∧
      ∀ m ∈ ms, ∀ f, fields.find? (·.name = m.1) = some f → ¬f.read.Refuses m.2 := by
  -- The names that were seen are distinct; that those still to come are too, the members behind tell.
  induction h generalizing start first count seen acc with
  | last h =>
    cases count with
    | zero => cases hok
    | succ count =>
      obtain ⟨hnew,hread,-⟩ := exists_of_recordMembers_eq_ok (hvalue _ List.mem_cons_self) htakes h
        (by decide) hstart hok
      exact ⟨nodup_knownNames_singleton hseen hnew,fun m hm => List.mem_singleton.mp hm ▸ hread⟩
  | more h hmore ih =>
    cases count with
    | zero => cases hok
    | succ count =>
      obtain ⟨hm,hvalue⟩ := List.forall_mem_cons.mp hvalue
      obtain ⟨hnew,hread,acc,last,hlast,hok⟩ :=
        exists_of_recordMembers_eq_ok hm htakes h (by decide) hstart hok
      obtain ⟨hnodup,hrest⟩ := ih hvalue (nodup_knownNames_singleton hseen hnew)
        (hmore.nextMember_eq hlast) hok
      exact ⟨nodup_knownNames_cons_iff.mpr hnodup,List.forall_mem_cons.mpr ⟨hread,hrest⟩⟩

theorem NameForm.loose {text : String} (h : NameForm text cs rest) : LooseName cs rest := by
  obtain ⟨name,colon,hquote,hname,hcolon⟩ := h
  exact ⟨name,colon,hquote,hname.loose,hcolon⟩

theorem MemberForm.length_lt {mk : Char} (hvalue : m.2 ≤ Value) (h : MemberForm m cs (mk :: rest))
    (hmk : mk ∈ [',',']','\x7d']) : rest.length < cs.length := by
  obtain ⟨value,hname,hform⟩ := h
  exact Nat.lt_trans (hform.length_lt hvalue hmk) (length_of_skipKey hname.loose.skipKey_eq)

theorem Members.length_le (hvalue : ∀ m ∈ ms, m.2 ≤ Value) (h : Members ms cs rest) :
    ms.length + rest.length ≤ cs.length := by
  induction h with
  | last h =>
    have hlength := h.length_lt (hvalue _ List.mem_cons_self) (by decide)
    rw [List.length_singleton]
    omega
  | more h _ ih =>
    have hlength := h.length_lt (hvalue _ List.mem_cons_self) (by decide)
    have hrest := ih fun m hm => hvalue m (List.mem_cons_of_mem _ hm)
    rw [List.length_cons]
    omega

theorem ValueMembers.of_members (hvalue : ∀ m ∈ ms, m.2 ≤ Value) (h : Members ms cs rest) :
    ValueMembers cs rest := by
  induction h with
  | last h =>
    obtain ⟨value,hname,start,stop,hbefore,hform,hafter⟩ := h
    exact .last hname.loose hbefore (hvalue _ List.mem_cons_self _ _ hform) hafter
  | more h _ ih =>
    obtain ⟨value,hname,start,stop,hbefore,hform,hafter⟩ := h
    exact .more hname.loose hbefore (hvalue _ List.mem_cons_self _ _ hform) hafter
      (ih fun m hm => hvalue m (List.mem_cons_of_mem _ hm))

theorem objectForm_le_value (hvalue : ∀ m ∈ ms, m.2 ≤ Value) : ObjectForm ms ≤ Value := by
  intro cs rest h
  cases h with
  | empty h => exact .emptyObject h
  | members h => exact .object (.of_members hvalue h)

theorem Gives.le_value (h : Gives fields m update) : m.2 ≤ Value := by
  cases h with
  | known hvalue _ _ => exact hvalue
  | unknown hvalue _ => exact hvalue

theorem forall_le_value (hgives : List.Forall₂ (Gives fields) ms us) : ∀ m ∈ ms, m.2 ≤ Value := by
  induction hgives with
  | nil => exact fun m hm => absurd hm List.not_mem_nil
  | cons hu _ ih => exact List.forall_mem_cons.mpr ⟨hu.le_value,ih⟩

/-- An object with distinct known names is read: its members update the defaults in their order. -/
theorem readRecord_reads (hgives : List.Forall₂ (Gives fields) ms us)
    (hnodup : (knownNames fields ms).Nodup) (defaults : σ) :
    (readRecord fields defaults).Reads (ObjectForm ms) (us.foldl (fun r u => u r) defaults) := by
  intro cs start stop hgap hform _
  unfold readRecord
  cases hform with
  | @empty body _ h =>
    cases hgives
    have hnone : recordMembers fields (body.length + 1) [] true defaults body = .ok (defaults,stop) := by
      rw [recordMembers, nextMember_close (h.skipBlanks_eq_cons (by decide))]
    rw [hgap.skipBlanks_eq_cons (by decide)]
    exact hnone
  | members h =>
    have hlength := h.length_le (forall_le_value hgives)
    rw [hgap.skipBlanks_eq_cons (by decide)]
    exact h.recordMembers_eq hgives (by omega) (by rwa [List.append_nil]) rfl

/-- An object is refused if a known name is repeated, or the value of one is refused. -/
theorem readRecord_refuses (hvalue : ∀ m ∈ ms, m.2 ≤ Value) (htakes : ∀ f ∈ fields, f.read.TakesValues)
    (hrefuses : (knownNames fields ms).Nodup →
      ∃ m ∈ ms, ∃ f, fields.find? (·.name = m.1) = some f ∧ f.read.Refuses m.2) (defaults : σ) :
    (readRecord fields defaults).Refuses (ObjectForm ms) := by
  intro cs start stop hgap hform _
  cases hread : readRecord fields defaults cs with
  | error fault => exact ⟨fault,rfl⟩
  | ok result =>
    exfalso
    unfold readRecord at hread
    cases hform with
    | empty h =>
      obtain ⟨m,hm,-⟩ := hrefuses List.nodup_nil
      exact List.not_mem_nil hm
    | members h =>
      rw [hgap.skipBlanks_eq_cons (by decide)] at hread
      obtain ⟨hnodup,hreads⟩ := h.of_recordMembers hvalue htakes List.nodup_nil rfl hread
      rw [List.append_nil] at hnodup
      obtain ⟨m,hm,f,hf,hno⟩ := hrefuses hnodup
      exact hreads m hm f hf hno

end Objects

section OpenObjects
variable {σ : Type} {fields : List (RecordField σ)} {ms : List (String × Form)} {us us' : List (σ → σ)}

theorem gives_unknown {unknown : List String} (h : ∀ n ∈ unknown, n ∉ fields.map (·.name)) :
    List.Forall₂ (Gives fields) (unknown.map (·,Value)) (unknown.map fun _ => id) := by
  induction unknown with
  | nil => exact .nil
  | cons n unknown ih =>
    obtain ⟨hn,hunknown⟩ := List.forall_mem_cons.mp h
    exact .cons (.unknown (fun _ _ hform => hform) (by simpa using hn)) (ih hunknown)

theorem knownNames_append_unknown (ms : List (String × Form)) {unknown : List String}
    (h : ∀ n ∈ unknown, n ∉ fields.map (·.name)) :
    knownNames fields (ms ++ unknown.map (·,Value)) = knownNames fields ms := by
  have hnone : knownNames fields (unknown.map (·,Value)) = [] := by
    refine List.filter_eq_nil_iff.mpr fun n hn => ?_
    rw [List.map_map, List.map_id''] at hn
    · simpa using h n hn
    · exact fun _ => rfl
  rw [knownNames, List.map_append, List.filter_append, ← knownNames, ← knownNames, hnone, List.append_nil]

theorem foldl_map_id (names : List String) (r : σ) :
    (names.map fun _ => (id : σ → σ)).foldl (fun r u => u r) r = r := by
  induction names with
  | nil => rfl
  | cons name names ih => exact ih

/-- Updates that commute give the same record in any order, and with any that change nothing. -/
theorem foldl_eq_of_perm (unknown : List String) (hcomm : us.Pairwise Function.Commute)
    (hperm : us'.Perm (us ++ unknown.map fun _ => id)) (r : σ) :
    us'.foldl (fun r u => u r) r = us.foldl (fun r u => u r) r := by
  have hid : ∀ u ∈ unknown.map fun _ => (id : σ → σ), u = id := by
    intro u hu
    obtain ⟨_,-,rfl⟩ := List.mem_map.mp hu
    rfl
  -- What changes nothing commutes with everything, so all these updates may change places.
  have hsymm : Std.Symm (@Function.Commute σ) := ⟨fun _ _ h => h.symm⟩
  have hall : ∀ u ∈ us ++ unknown.map fun _ => id, ∀ v ∈ us ++ unknown.map fun _ => id,
      Function.Commute v u := by
    intro u hu v hv
    rcases List.mem_append.mp hu with hu | hu
    · rcases List.mem_append.mp hv with hv | hv
      · exact hcomm.forall_of_forall (fun u _ => .refl u) hv hu
      · exact hid v hv ▸ .id_left
    · exact hid u hu ▸ .id_right
  rw [hperm.foldl_eq' (fun u hu v hv r => hall u (hperm.mem_iff.mp hu) v (hperm.mem_iff.mp hv) r),
    List.foldl_append, foldl_map_id]

/-- An object is read with the values of its known members, whatever else it has and in any order. -/
theorem readRecord_reads_open (hgives : List.Forall₂ (Gives fields) ms us)
    (hnodup : (ms.map (·.1)).Nodup) (hcomm : us.Pairwise Function.Commute) (defaults : σ) :
    (readRecord fields defaults).Reads (OpenForm (fields.map (·.name)) ms)
      (us.foldl (fun r u => u r) defaults) := by
  rintro cs start stop hgap ⟨unknown,ms',hunknown,hperm,hform⟩ hstop
  obtain ⟨us',hgives',hperm'⟩ :=
    List.perm_comp_forall₂ hperm (List.rel_append hgives (gives_unknown hunknown))
  have hknown : (knownNames fields ms').Perm (knownNames fields ms) :=
    knownNames_append_unknown ms hunknown ▸ (hperm.map _).filter _
  have hdistinct := hknown.nodup_iff.mpr (hnodup.filter _)
  rw [← foldl_eq_of_perm unknown hcomm hperm']
  exact readRecord_reads hgives' hdistinct defaults cs start stop hgap hform hstop

theorem openForm_le_value {known : List String} (hgives : List.Forall₂ (Gives fields) ms us) :
    OpenForm known ms ≤ Value := by
  rintro cs rest ⟨unknown,ms',-,hperm,hform⟩
  refine objectForm_le_value (fun m hm => ?_) cs rest hform
  rcases List.mem_append.mp (hperm.mem_iff.mp hm) with hm | hm
  · exact forall_le_value hgives m hm
  · obtain ⟨n,-,rfl⟩ := List.mem_map.mp hm
    exact fun _ _ h => h

end OpenObjects

section Texts
variable {α : Type} {r : Reader α} {form : Form} {a : α} {s : String}

theorem readAll_of_reads (h : r.Reads form a) (hs : form.Padded s.toList []) : readAll r s = .ok a := by
  obtain ⟨start,stop,hbefore,hform,hafter⟩ := hs
  have hend : skipBlanks stop = [] := hafter.skipBlanks_eq
  rw [readAll, h _ _ _ hbefore hform (hafter.follows follows_nil)]
  change (if (skipBlanks stop).isEmpty then _ else _) = _
  rw [hend]
  rfl

theorem readAll_of_refuses (h : r.Refuses form) (hs : form.Padded s.toList []) :
    ∃ fault, readAll r s = .error fault := by
  obtain ⟨start,stop,hbefore,hform,hafter⟩ := hs
  obtain ⟨fault,hfault⟩ := h _ _ _ hbefore hform (hafter.follows follows_nil)
  refine ⟨fault,?_⟩
  rw [readAll, hfault]
  rfl

end Texts
end ValueInspector.Json
