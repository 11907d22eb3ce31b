import Mathlib.Data.List.Chain
import Mathlib.Data.List.Pairwise
import ValueInspector.Proofs.Inspector.Shape

/-! # Where pointers lead back

The trail holds addresses, and not the types under which they are looked at. A pointer is cut where a
pointer above it was followed to the same address, whatever the types of the two. An address is followed
once on a way down, and so under one type: the target of the pointer that is cut was visited above exactly
if that is its type.
-/
namespace ValueInspector

namespace Survey
variable {o : InspectOptions} {snapshot : Snapshot}

/-- The visits on the way down to a position, as far as there are any. -/
def along (s : Survey) : List Nat → List Survey
  | [] => [s]
  | j :: path => s :: (s.children[j]?).elim [] (·.along path)

theorem head?_along (s : Survey) (path : List Nat) : (s.along path).head? = some s := by
  cases path <;> rfl

theorem isDescent_along (s : Survey) (path : List Nat) : IsDescent (s.along path) := by
  induction path generalizing s with
  | nil => exact .singleton s
  | cons j path ih =>
    rw [along]
    cases hj : s.children[j]? with
    | none => exact .singleton s
    | some c =>
      refine List.isChain_cons.mpr ⟨fun d hd => ?_,ih c⟩
      cases (head?_along c path).symm.trans hd
      exact List.mem_of_getElem? hj

theorem All.here {P : Survey → Prop} {s : Survey} (h : s.All P) : P s := by
  cases h
  assumption

theorem All.child {P : Survey → Prop} {s c : Survey} (h : s.All P) (hc : c ∈ s.children) :
    c.All P := by
  cases h with
  | mk _ below => exact below c hc

/-- What holds throughout a survey holds on every way down. -/
theorem IsDescent.all {P : Survey → Prop} {path : List Survey} {s : Survey} (hp : IsDescent path)
    (hs : path.head? = some s) (h : s.All P) : ∀ t ∈ path, P t := by
  cases path with
  | nil => cases hs
  | cons a rest =>
    cases hs
    exact fun t ht => (hp.forall_mem (fun _ _ hs hc => hs.child hc) h t ht).here

/-- At the end of a way down the trail consists of the addresses followed on it, the latest first. -/
theorem IsDescent.trail_eq {above : List Survey} {s t : Survey} (hp : IsDescent (above ++ [t]))
    (hs : (above ++ [t]).head? = some s) (h : s.Regular o) :
    t.Regular o ∧ t.frame.trail = (expanded above).reverse ++ s.frame.trail := by
  induction above generalizing s with
  | nil =>
    cases hs
    exact ⟨h,rfl⟩
  | cons a rest ih =>
    cases hs
    rw [List.cons_append] at hp
    obtain ⟨c,hc⟩ : ∃ c, (rest ++ [t]).head? = some c := by cases rest <;> exact ⟨_,rfl⟩
    obtain ⟨hstep,hrest⟩ := List.isChain_cons.mp hp
    have hchild := hstep c hc
    obtain ⟨ht,htrail⟩ := ih hrest hc (h.child hchild)
    refine ⟨ht,?_⟩
    rw [htrail, (h.step_down hchild).2.2, expanded_cons, List.reverse_append, List.append_assoc]
    cases a.followed <;> rfl

/-- Two visits on a way that followed a pointer to the same address are one. -/
theorem eq_of_followed {path : List Survey} (h : (expanded path).Nodup) {u w : Survey}
    (hu : u ∈ path) (hw : w ∈ path) {a : UInt64} (hua : u.followed = some a)
    (hwa : w.followed = some a) : u = w := by
  have hsymm : Std.Symm fun u w : Survey =>
      ∀ a, u.followed = some a → ∀ b, w.followed = some b → a ≠ b :=
    ⟨fun _ _ h a ha b hb => (h b hb a ha).symm⟩
  by_contra hne
  exact (List.pairwise_filterMap.mp h).forall hu hw hne a hua a hwa rfl

/-- A visit that followed its pointer to a target and shows it. -/
structure FollowedTo (snapshot : Snapshot) (u : Survey) (target : RawValue) : Prop where
  followed : u.followed = some target.address
  dereferenced : u.value.map snapshot.dereference = some (.ok target)
  shown : u.children.map (·.value) = [some target]

/-- What a visit says about pointers: one that leads back leads to the trail, and one that was followed has
a target. -/
structure Leads (snapshot : Snapshot) (u : Survey) : Prop where
  back : u.truncated = some .cycle → ∃ p address, u.value = some p ∧ p.ty.isPointer = true ∧
    snapshot.readPointer p = .ok address ∧ address ∈ u.frame.trail
  on : ∀ address ∈ u.followed, ∃ ty, u.FollowedTo snapshot ⟨address,ty⟩

/-- A visit that marks no cycle and follows no pointer. -/
theorem leads_stay {u : Survey} (hmark : u.truncated ≠ some .cycle) (hf : u.followed = none) :
    u.Leads snapshot where
  back h := absurd h hmark
  on address h := by
    rw [hf] at h
    cases h

end Survey

namespace Inspector
open Survey

section Outline
variable {s : Snapshot} {d : Option Demangler} {i : Inspector} {below : Option Look}
  (hb : RecordsValues below) (f : Frame) (label : String) {v : RawValue}
include hb

theorem outlinePointer_leads (hv : v.ty.isPointer = true) (summary : Option String) :
    (outlinePointer (Host.answers ⟨s.oracle,d⟩) below v
      { Survey.start label f (some v) with summary }).Leads s := by
  cases hn : (Host.answers ⟨s.oracle,d⟩) (.readInteger v) with
  | error e =>
    rw [outlinePointer_error hn]
    exact leads_stay (by simp) rfl
  | ok n =>
    have hread : s.readPointer v = .ok n.toUInt64 := (Snapshot.readInteger_eq_ok_iff hv).mp hn
    by_cases hstop : n.toUInt64 = 0 ∨ f.pointersLeft = 0
    · rw [outlinePointer_stop hn hstop]
      exact leads_stay (by simp) rfl
    · cases below with
      | none =>
        rw [outlinePointer_none hn hstop]
        exact leads_stay (by simp) rfl
      | some look =>
        by_cases htrail : n.toUInt64 ∈ f.trail
        · rw [outlinePointer_cycle hn hstop htrail]
          exact ⟨fun _ => ⟨v,_,rfl,hv,hread,htrail⟩,by simp⟩
        · cases ht : (Host.answers ⟨s.oracle,d⟩) (.dereference v) with
          | error e =>
            obtain ⟨mark,hmark,heq⟩ := outlinePointer_untargeted
              { Survey.start label f (some v) with summary } hn hstop look htrail ht
            rw [heq]
            exact leads_stay (by rcases hmark with rfl | rfl <;> simp) rfl
          | ok target =>
            -- the pointer leads where it was read to lead
            obtain ⟨_,_,hsame,_⟩ := Snapshot.dereference_eq_ok_iff.mp ht
            have haddress : n.toUInt64 = target.address := Except.ok.inj (hread.symm.trans hsame)
            rw [outlinePointer_follow hn hstop htrail ht]
            refine ⟨by simp,fun address h => ⟨target.ty,?_⟩⟩
            cases h
            rw [haddress]
            exact ⟨rfl,congrArg some ht,congrArg (fun value => [value]) (hb look rfl _ "*" target)⟩

theorem outlineValue_leads (v : RawValue) :
    (i.outlineValue (Host.answers ⟨s.oracle,d⟩) below f label v).Leads s := by
  cases hsaid : (i.summarize v).run.eval (Host.answers ⟨s.oracle,d⟩) with
  | error e =>
    rw [outlineValue_error hsaid]
    exact leads_stay (by simp) rfl
  | ok said =>
    cases hv : v.ty.isPointer with
    | true =>
      rw [outlineValue, hsaid]
      simp only [hv, if_true]
      exact outlinePointer_leads hb f label hv _
    | false =>
      rw [outlineValue_members hsaid hv, outlineMembers]
      repeat' split
      all_goals exact leads_stay (by simp) rfl

end Outline
/-- Every visit of an inspection leads where the snapshot says. -/
theorem inspect_leads (i : Inspector) (s : Snapshot) (demangler : Demangler) (label : String)
    (v : RawValue) :
    ((i.inspect label v).runFresh (i.host s.oracle demangler)).All (Leads s) := by
  obtain ⟨f,hf⟩ := Query.exists_function_runFresh s.oracle
    (if i.options.demangler.enabled then some demangler else none) (i.inspect label v)
  rw [host, hf, eval_inspect]
  refine all_outline_of_recordsValues (fun _ _ => leads_stay (by simp) rfl) ?_ ..
  exact fun _ hb f label v => outlineValue_leads hb f label v

/-- A visit marked as a cycle is the visit of a pointer to an address that a pointer above it was followed
to, and that under one type only. -/
theorem inspect_cycle_marks (i : Inspector) (s : Snapshot) (demangler : Demangler) (label : String)
    (v : RawValue) {above : List Survey} {t : Survey}
    (hroot : (above ++ [t]).head? = some ((i.inspect label v).runFresh (i.host s.oracle demangler)))
    (hpath : IsDescent (above ++ [t])) (hmark : t.truncated = some .cycle) :
    ∃ p address, t.value = some p ∧ p.ty.isPointer = true ∧ s.readPointer p = .ok address ∧
      ∃ ty, ∀ seen, (∃ u ∈ above, u.FollowedTo s ⟨address,seen⟩) ↔ seen = ty := by
  have hends : EndsAt i.options ⟨0,i.options.expandPointers,[]⟩ label
      ((i.inspect label v).runFresh (i.host s.oracle demangler)) :=
    (inspect_ends i label v).run (i.host s.oracle demangler) .fresh
  have hwithin := hends.frame ▸ Frame.within_root i.options
  obtain ⟨ht,htrail⟩ := hpath.trail_eq hroot (hends.possible.regular hwithin)
  rw [hends.frame, List.append_nil] at htrail
  have hnodup : (expanded above).Nodup := by
    rw [← List.nodup_reverse, ← htrail]
    exact ht.frame_within.nodup
  have hleads := hpath.all hroot (inspect_leads i s demangler label v)
  -- the trail tells which visit followed the address
  obtain ⟨p,address,hp,hv,hread,hmem⟩ := (hleads t (by simp)).back hmark
  rw [htrail, List.mem_reverse] at hmem
  obtain ⟨u,hu,hfollowed⟩ := List.mem_filterMap.mp hmem
  obtain ⟨ty,hty⟩ := (hleads u (List.mem_append_left [t] hu)).on address hfollowed
  refine ⟨p,address,hp,hv,hread,ty,fun seen => ⟨?_,?_⟩⟩
  · rintro ⟨w,hw,hseen⟩
    cases eq_of_followed hnodup hw hu hseen.followed hfollowed
    have hshown := hseen.shown.symm.trans hty.shown
    simpa using hshown
  · rintro rfl
    exact ⟨u,hu,hty⟩

/-- A record that points to itself: its pointer is followed once, and marked below its target. -/
theorem inspect_cycle_marks_selfLink :
    let i : Inspector := ⟨.standard,.standard⟩
    let root := (i.inspect "root" ⟨4096,.plain 0 "Link"⟩).runFresh
      (i.host Snapshot.selfLink.oracle .silent)
    ∃ above t, root.along [0,0,0] = above ++ [t] ∧ t.truncated = some .cycle ∧
      ∃ ty, ∀ seen, (∃ u ∈ above, u.FollowedTo Snapshot.selfLink ⟨4096,seen⟩) ↔ seen = ty := by
  intro i root
  have houtline : root = i.outline _ _ _ _ _ := i.inspect_eq_outline _ (fun _ => none) _ _
  have hway : (root.along [0,0,0]).map (fun u => (u.truncated,u.value)) =
      [(none,some ⟨4096,.plain 0 "Link"⟩),(none,some ⟨4096,⟨0,1,"Link"⟩⟩),
        (none,some ⟨4096,.plain 0 "Link"⟩)] ++ [(some .cycle,some ⟨4096,⟨0,1,"Link"⟩⟩)] := by
    rw [houtline]
    decide +kernel
  obtain ⟨above,last,hsplit,_,hlast⟩ := List.map_eq_append_iff.mp hway
  obtain ⟨t,rfl,ht⟩ := List.map_eq_singleton_iff.mp hlast
  obtain ⟨hmark,hvalue⟩ := Prod.mk.inj ht
  obtain ⟨p,address,hp,_,hread,hseen⟩ := inspect_cycle_marks i Snapshot.selfLink .silent "root"
    ⟨4096,.plain 0 "Link"⟩ (hsplit ▸ root.head?_along _) (hsplit ▸ root.isDescent_along _) hmark
  cases hvalue.symm.trans hp
  cases hread.symm.trans (show Snapshot.selfLink.readPointer _ = .ok 4096 by decide +kernel)
  exact ⟨above,t,hsplit,hmark,hseen⟩

/-- A record with pointers to its own first member and to itself, and a record that points to it. -/
def innerPointersSteps : List BuilderStep :=
  [.type (.primitive "int" .i32), .type (.primitive "void" .void),
    .type (.record "Inner" 24 [⟨"count",0,.plain 0 "int"⟩,⟨"first",8,⟨0,1,"int"⟩⟩,
      ⟨"self",16,⟨1,1,"void"⟩⟩]),
    .type (.record "Outer" 8 [⟨"inner",0,⟨2,1,"Inner"⟩⟩]),
    .memory (.map 4096 #[0,32,0,0,0,0,0,0]),
    .memory (.map 8192 #[7,0,0,0,0,0,0,0,0,32,0,0,0,0,0,0,0,32,0,0,0,0,0,0])]

/-- The pointer to a number at the start of a record is marked as a cycle, though no pointer above it was
followed to the number. -/
theorem first_member_marked_cycle :
    let s := (Construction.ofSteps innerPointersSteps).builder.snapshot
    let i : Inspector := ⟨.standard,.standard⟩
    let root := (i.inspect "outer" ⟨4096,.plain 3 "Outer"⟩).runFresh (i.host s.oracle .silent)
    ∃ above t, root.along [0,0,1] = above ++ [t] ∧ t.truncated = some .cycle ∧
      t.value = some ⟨8200,⟨0,1,"int"⟩⟩ ∧
      s.dereference ⟨8200,⟨0,1,"int"⟩⟩ = .ok ⟨8192,.plain 0 "int"⟩ ∧
      ¬∃ u ∈ above, u.FollowedTo s ⟨8192,.plain 0 "int"⟩ := by
  intro s i root
  have houtline : root = i.outline _ _ _ _ _ := i.inspect_eq_outline _ (fun _ => none) _ _
  have hway : (root.along [0,0,1]).map (fun u =>
      (u.truncated,u.value,u.followed,u.children.map (·.value))) =
      [(none,some ⟨4096,.plain 3 "Outer"⟩,none,[some ⟨4096,⟨2,1,"Inner"⟩⟩]),
        (none,some ⟨4096,⟨2,1,"Inner"⟩⟩,some 8192,[some ⟨8192,.plain 2 "Inner"⟩]),
        (none,some ⟨8192,.plain 2 "Inner"⟩,none,[some ⟨8192,.plain 0 "int"⟩,
          some ⟨8200,⟨0,1,"int"⟩⟩,some ⟨8208,⟨1,1,"void"⟩⟩])] ++
      [(some .cycle,some ⟨8200,⟨0,1,"int"⟩⟩,none,[])] := by
    rw [houtline]
    decide +kernel
  obtain ⟨above,last,hsplit,habove,hlast⟩ := List.map_eq_append_iff.mp hway
  obtain ⟨t,rfl,ht⟩ := List.map_eq_singleton_iff.mp hlast
  simp only [Prod.mk.injEq] at ht
  refine ⟨above,t,hsplit,ht.1,ht.2.1,by decide +kernel,?_⟩
  rintro ⟨u,hu,hto⟩
  have hmem := List.mem_map_of_mem (f := fun u : Survey =>
    (u.truncated,u.value,u.followed,u.children.map (·.value))) hu
  rw [habove, hto.followed, hto.shown] at hmem
  simp [TypeDesc.plain] at hmem

end Inspector
end ValueInspector
