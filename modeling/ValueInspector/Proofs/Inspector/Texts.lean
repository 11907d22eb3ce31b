import ValueInspector.Proofs.Inspector.Accounts
import ValueInspector.Proofs.Inspector.Display
import ValueInspector.Proofs.Node.Chain
import ValueInspector.Proofs.Snapshot.Construction

/-! # Summaries and the text budget

Every summary of a visited value is cut to the text budget before it is recorded, and what is done to
the survey afterwards leaves it alone. A member with no interpretation is not visited: the text that
stands for it is recorded as it is. So the budget holds throughout a tree if it has room for that text,
or if there is no such member, and not otherwise.
-/
namespace ValueInspector

/-- A text within the limit, or as many characters as the limit admits and an ellipsis. -/
def FitsText (limit : Nat) (text : String) : Prop :=
  text.toList.length ≤ limit ∨
    ∃ kept : List Char, kept.length = limit ∧ text.toList = kept ++ "...".toList

theorem fitsText_truncateText (limit : Nat) (text : String) :
    FitsText limit (truncateText limit text) := by
  unfold truncateText
  split
  next hshort => exact .inl hshort
  next hlong =>
    have hkept : (text.toList.take limit).length = limit :=
      List.length_take_of_le (Nat.le_of_not_le hlong)
    exact .inr ⟨text.toList.take limit,hkept,String.toList_ofList⟩

/-- No cut text ends as the text for a member with no interpretation does. -/
theorem fitsText_noInterpretation_iff {limit : Nat} :
    FitsText limit Union.noInterpretation ↔ Union.noInterpretation.toList.length ≤ limit := by
  refine or_iff_left ?_
  rintro ⟨kept,_,hcut⟩
  have hlast := congrArg List.getLast? hcut
  rw [List.getLast?_append_of_ne_nil kept (by decide)] at hlast
  exact absurd hlast (by decide)

/-- A summary of a node with a type fits the limit, and a fixed text stands for a missing value. -/
structure Node.FitsTexts (limit : Nat) (n : Node) : Prop where
  typed : n.typeName ≠ none → ∀ text ∈ n.summary, FitsText limit text
  untyped : n.typeName = none → n.summary = some Union.noInterpretation

/-- What is recorded of a value fits the limit. -/
def FitsAccount (limit : Nat) : Account := fun _ summary _ => ∀ text ∈ summary, FitsText limit text

theorem fitsAccount_map (limit : Nat) (v : RawValue) (said : Option String)
    (error : Option InspectError) :
    FitsAccount limit v (said.map (truncateText limit)) error := by
  intro text htext
  obtain ⟨full,_,rfl⟩ := Option.map_eq_some_iff.mp htext
  exact fitsText_truncateText limit full

namespace Survey

/-- What holds of all displayed nodes is what holds of the display of all visits. -/
theorem all_toNode_iff {P : Node → Prop} {s : Survey} :
    s.toNode.All P ↔ s.All fun t => P t.toNode := by
  constructor
  · intro h
    generalize hn : s.toNode = n at h
    induction h generalizing s with
    | @mk n here _ ih =>
      subst hn
      refine .mk here fun c hc => ih c.toNode ?_ rfl
      rw [children_toNode]
      exact List.mem_map_of_mem hc
  · intro h
    induction h with
    | @mk s here _ ih =>
      refine .mk here fun c hc => ?_
      rw [children_toNode] at hc
      obtain ⟨t,ht,rfl⟩ := List.mem_map.mp hc
      exact ih t ht

/-- The nodes of a survey whose visits record fitting texts. -/
theorem All.fitsTexts {limit : Nat} {s : Survey} (h : s.All (Accounts (FitsAccount limit))) :
    s.toNode.All (Node.FitsTexts limit) := by
  refine all_toNode_iff.mpr (h.mono fun t ht => ?_)
  cases t with
  | mk label frame value summary error truncated followed children =>
    rw [toNode_mk]
    refine ⟨fun htype => ?_,fun htype => (ht.placeholder (Option.map_eq_none_iff.mp htype)).1⟩
    obtain ⟨v,hv⟩ := Option.ne_none_iff_exists'.mp (mt Option.map_eq_none_iff.mpr htype)
    exact ht.value v hv

end Survey

namespace Inspector

/-- Every summary of a value is cut before it is recorded. -/
theorem settles_fitsAccount (i : Inspector) (v : RawValue) :
    i.Settles (FitsAccount i.options.maxTextLen.toNat) v where
  failed := (Query.always_true _).mono fun _ _ _ _ => nofun
  shown := (Query.always_true _).mono fun _ _ said _ => fitsAccount_map _ v said none
  lost _ said e := fitsAccount_map _ v said (some e)
  childless _ := (Query.always_true _).mono fun _ _ e _ said => fitsAccount_map _ v said (some e)

/-- Whatever the answers, each summary of a tree fits the text budget or stands for a member with no
interpretation. So all of them fit exactly if the budget has room for what stands there, or if there is
no such member. -/
theorem inspect_fits_texts (i : Inspector) (label : String) (v : RawValue) :
    (i.inspect label v).Always fun root =>
      root.toNode.All (fun n => ∀ text ∈ n.summary, FitsText i.options.maxTextLen.toNat text ∨
        n.typeName = none ∧ text = Union.noInterpretation) ∧
      (root.toNode.All (fun n => ∀ text ∈ n.summary, FitsText i.options.maxTextLen.toNat text) ↔
        Union.noInterpretation.toList.length ≤ i.options.maxTextLen.toNat ∨
          root.toNode.All fun n => n.typeName ≠ none) := by
  apply Query.Always.mono (inspect_accounts i.settles_fitsAccount label v)
  intro root hroot
  have htree := hroot.fitsTexts
  refine ⟨htree.mono fun n hn text htext => ?_,fun hall => ?_,fun hroom => ?_⟩
  · by_cases htype : n.typeName = none
    · rw [hn.untyped htype] at htext
      exact .inr ⟨htype,(Option.some.inj htext).symm⟩
    · exact .inl (hn.typed htype text htext)
  · refine or_iff_not_imp_left.mpr fun hlong => (htree.and hall).mono ?_
    rintro n ⟨hn,hfits⟩ htype
    exact hlong (fitsText_noInterpretation_iff.mp (hfits _ (hn.untyped htype)))
  · rcases hroom with hshort | htyped
    · refine htree.mono fun n hn text htext => ?_
      by_cases htype : n.typeName = none
      · rw [hn.untyped htype] at htext
        cases htext
        exact fitsText_noInterpretation_iff.mpr hshort
      · exact hn.typed htype text htext
    · exact (htree.and htyped).mono fun n hn => hn.1.typed hn.2

/-- A general value in a snapshot, with an index that no alternative has. -/
def strayValueSteps : List BuilderStep :=
  [.type (.primitive "index" .u8),
    .type (.record "Storage" 16 [⟨"_M_index",8,.plain 0 "index"⟩]),
    .type (.record "complate::Value" 16 [⟨"m_data",0,.plain 1 "Storage"⟩]),
    .memory (.map 4096 #[0,0,0,0,0,0,0,0,42,0,0,0,0,0,0,0])]

/-- With room for five characters the summary of a value is cut, and what stands for its content is
not. -/
theorem placeholder_exceeds_budget :
    let s := (Construction.ofSteps strayValueSteps).builder.snapshot
    let i : Inspector := ⟨.standard,{ InspectOptions.standard with maxTextLen := 5 }⟩
    let tree := i.display s.oracle .silent "value" ⟨4096,.plain 2 "complate::Value"⟩
    tree.summary = some "<no i..." ∧
    (tree.child? "[contained value]").map (·.summary) = some (some "<no interpretation>") ∧
    ¬FitsText 5 "<no interpretation>" := by
  dsimp only
  rw [show Demangler.silent = .ofFunction fun _ => none from rfl, display_eq_outline]
  refine ⟨by decide +kernel,by decide +kernel,?_⟩
  exact mt fitsText_noInterpretation_iff.mp (by decide)

end Inspector
end ValueInspector
