import ValueInspector.Proofs.Resolver.Fixpoint

/-! # One layer of quotes

A pass over a captured name strips blanks, then quotes, then blanks, and each of these once. So at each
end it takes one layer away, and a quote that stands behind such a layer is kept. A name has no more
than one layer exactly if nothing is left for a second pass, and exactly then the stripped name is
resolved like the name itself.
-/
namespace ValueInspector
open Text

section Layers
variable {cs front x : List Char}

/-- Blanks, then quotes, then blanks, any of which can be missing. -/
def Layer (cs : List Char) : Prop :=
  ∃ outer quotes inner, cs = outer ++ (quotes ++ inner) ∧ Blanks outer ∧ (∀ c ∈ quotes, c = '"') ∧
    Blanks inner

/-- The text has one layer at each end, and neither a blank nor a quote at the ends of what is left. -/
def QuotedOnce (cs : List Char) : Prop :=
  ∃ front core back, cs = front ++ (core ++ back) ∧ Layer front ∧ Layer back ∧ Tight core ∧
    Unquoted core

/-- Takes a layer from the start of a text. -/
def dropLayer (cs : List Char) : List Char :=
  ((cs.dropWhile isBlank).dropWhile (· = '"')).dropWhile isBlank

theorem Layer.reverse (h : Layer cs) : Layer cs.reverse := by
  obtain ⟨outer,quotes,inner,rfl,houter,hquotes,hinner⟩ := h
  refine ⟨inner.reverse,quotes.reverse,outer.reverse,by simp,?_,?_,?_⟩
  · exact fun c hc => hinner c (List.mem_reverse.mp hc)
  · exact fun c hc => hquotes c (List.mem_reverse.mp hc)
  · exact fun c hc => houter c (List.mem_reverse.mp hc)

theorem Layer.of_suffix (h : Layer cs) (hx : x <:+ cs) : Layer x := by
  obtain ⟨outer,quotes,inner,rfl,houter,hquotes,hinner⟩ := h
  obtain ⟨lost,hx⟩ := hx
  rcases List.append_eq_append_iff.mp hx with ⟨outer',rfl,rfl⟩ | ⟨lost',-,hx⟩
  · exact ⟨outer',quotes,inner,rfl,fun c hc => houter c (List.mem_append_right _ hc),hquotes,hinner⟩
  rcases List.append_eq_append_iff.mp hx with ⟨lost'',-,rfl⟩ | ⟨quotes',rfl,rfl⟩
  · exact ⟨[],[],x,rfl,List.forall_mem_nil _,List.forall_mem_nil _,
      fun c hc => hinner c (List.mem_append_right _ hc)⟩
  · exact ⟨[],quotes',inner,rfl,List.forall_mem_nil _,
      fun c hc => hquotes c (List.mem_append_right _ hc),hinner⟩

theorem exists_layer_dropLayer (cs : List Char) : ∃ front, cs = front ++ dropLayer cs ∧ Layer front := by
  refine ⟨cs.takeWhile isBlank ++ ((cs.dropWhile isBlank).takeWhile (· = '"') ++
    ((cs.dropWhile isBlank).dropWhile (· = '"')).takeWhile isBlank),?_,_,_,_,rfl,?_,?_,?_⟩
  · rw [dropLayer, List.append_assoc, List.append_assoc, List.takeWhile_append_dropWhile,
      List.takeWhile_append_dropWhile, List.takeWhile_append_dropWhile]
  · exact fun c hc => List.mem_takeWhile_imp hc
  · intro c hc
    have hquote := List.mem_takeWhile_imp hc
    exact of_decide_eq_true hquote
  · exact fun c hc => List.mem_takeWhile_imp hc

/-- A layer is taken away, and what follows it may lose more. -/
theorem dropLayer_append (h : Layer front) (x : List Char) :
    dropLayer (front ++ x) = dropLayer x ∨
      dropLayer (front ++ x) = (x.dropWhile (· = '"')).dropWhile isBlank ∨
      dropLayer (front ++ x) = x.dropWhile isBlank := by
  obtain ⟨outer,quotes,inner,rfl,houter,hquotes,hinner⟩ := h
  rw [dropLayer, List.append_assoc, List.append_assoc, List.dropWhile_append_of_pos houter]
  cases quotes with
  | nil =>
    rw [List.nil_append, List.dropWhile_append_of_pos hinner]
    exact .inl rfl
  | cons c quotes =>
    have hc : c = '"' := hquotes c List.mem_cons_self
    have hrun : ∀ d ∈ c :: quotes, decide (d = '"') = true := fun d hd => decide_eq_true (hquotes d hd)
    have hdark : ¬isBlank c = true := hc ▸ by decide
    rw [List.cons_append, List.dropWhile_cons_of_neg hdark, ← List.cons_append,
      List.dropWhile_append_of_pos hrun]
    cases inner with
    | nil => exact .inr (.inl rfl)
    | cons d inner =>
      have hd : ¬decide (d = '"') = true := by
        rw [decide_eq_true_eq]
        rintro rfl
        exact absurd (hinner _ List.mem_cons_self) (by decide)
      have hstop : ((d :: inner) ++ x).dropWhile (fun c => decide (c = '"')) = (d :: inner) ++ x :=
        List.dropWhile_cons_of_neg hd
      rw [hstop, List.dropWhile_append_of_pos hinner]
      exact .inr (.inr rfl)

theorem dropLayer_append_suffix (h : Layer front) (x : List Char) : dropLayer (front ++ x) <:+ x := by
  have hblank := fun cs => List.dropWhile_suffix (l := cs) isBlank
  have hquote := fun cs => List.dropWhile_suffix (l := cs) (fun c => decide (c = '"'))
  rcases dropLayer_append h x with heq | heq | heq <;> rw [heq]
  · exact ((hblank _).trans (hquote _)).trans (hblank x)
  · exact (hblank _).trans (hquote x)
  · exact hblank x

/-- A text that begins with neither a blank nor a quote loses nothing. -/
theorem dropLayer_append_eq (h : Layer front) (hblank : ∀ c ∈ x.head?, isBlank c = false)
    (hquote : x.head? ≠ some '"') : dropLayer (front ++ x) = x := by
  have hb : x.dropWhile isBlank = x := dropWhile_eq_self hblank
  have hq : x.dropWhile (· = '"') = x :=
    dropWhile_eq_self fun c hc => decide_eq_false fun heq => hquote (heq ▸ hc)
  rcases dropLayer_append h x with heq | heq | heq
  · rw [heq, dropLayer, hb, hq, hb]
  · rw [heq, hq, hb]
  · rw [heq, hb]

theorem stripQuotesChars_eq (cs : List Char) :
    Name.stripQuotesChars cs = (dropLayer (dropLayer cs).reverse).reverse := by
  simp only [Name.stripQuotesChars, trim, stripWhile, dropWhile_dropEndWhile]
  simp only [dropEndWhile, dropLayer, List.reverse_reverse]

/-- A text has one layer exactly if no quote stands at the ends once it is stripped. -/
theorem quotedOnce_iff (cs : List Char) : QuotedOnce cs ↔ Unquoted (Name.stripQuotesChars cs) := by
  constructor
  · rintro ⟨front,core,back,rfl,hfront,hback,htight,hunquoted⟩
    rw [stripQuotesChars_eq]
    cases core with
    | nil =>
      -- Nothing but the two layers: what the first leaves is a layer again.
      have hrest : Layer (dropLayer (front ++ ([] ++ back))).reverse :=
        (hback.of_suffix (dropLayer_append_suffix hfront back)).reverse
      have hnil := dropLayer_append_suffix hrest []
      rw [List.append_nil, List.suffix_nil] at hnil
      rw [hnil]
      exact hunquoted
    | cons c core =>
      have hfrontDropped : dropLayer (front ++ (c :: core ++ back)) = c :: core ++ back :=
        dropLayer_append_eq hfront htight.head hunquoted.1
      rw [hfrontDropped, List.reverse_append, dropLayer_append_eq hback.reverse ?_ ?_,
        List.reverse_reverse]
      · exact hunquoted
      · rw [List.head?_reverse]
        exact htight.last
      · rw [List.head?_reverse]
        exact hunquoted.2
  · intro h
    obtain ⟨front,hfront,hlayer⟩ := exists_layer_dropLayer cs
    obtain ⟨back,hback,hlayer'⟩ := exists_layer_dropLayer (dropLayer cs).reverse
    rw [List.reverse_eq_iff, List.reverse_append, ← stripQuotesChars_eq] at hback
    exact ⟨front,_,back.reverse,hback ▸ hfront,hlayer,hlayer'.reverse,tight_trim _,h⟩

end Layers

section Passes
variable {name : String}

theorem toList_stripQuotes (name : String) :
    (Name.stripQuotes name).toList = Name.stripQuotesChars name.toList := by
  rw [Name.stripQuotes, String.toList_ofList]

theorem tight_stripQuotes (name : String) : Tight (Name.stripQuotes name).toList := by
  rw [toList_stripQuotes]
  exact tight_trim _

/-- A second pass changes nothing exactly if no quote is left at an end. -/
theorem stripQuotes_eq_self_iff (h : Tight name.toList) :
    Name.stripQuotes name = name ↔ Unquoted name.toList := by
  rw [← String.toList_inj, toList_stripQuotes]
  refine ⟨fun heq => ?_,fun hunquoted => ?_⟩
  · have hstrip : stripWhile (fun c => decide (c = '"')) name.toList = name.toList := by
      refine stripWhile_sublist.antisymm ?_
      nth_rewrite 1 [← heq]
      rw [Name.stripQuotesChars, h.trim_eq]
      exact stripWhile_sublist
    obtain ⟨hhead,hlast⟩ := stripWhile_eq_self_iff.mp hstrip
    exact ⟨fun hc => of_decide_eq_false (hhead _ hc) rfl,fun hc => of_decide_eq_false (hlast _ hc) rfl⟩
  · rw [stripQuotesChars_eq_trim (h.trim_eq.symm ▸ hunquoted), h.trim_eq]

end Passes

namespace Resolver

/-- A stripped name in the table is found by the name, and a second pass that changes it misses it at the
first attempt. -/
theorem resolve_ne_of_stripQuotes_ne {name : String}
    (h : Name.stripQuotes (Name.stripQuotes name) ≠ Name.stripQuotes name)
    {lookup : String → Option TypeDesc} {ty : TypeDesc}
    (hty : lookup (Name.stripQuotes name) = some ty) (d : Option Demangler) (m m' : ResolverMemory) :
    ((⟨lookup,d⟩ : Resolver).resolve name m).1 ≠
      ((⟨lookup,d⟩ : Resolver).resolve (Name.stripQuotes name) m').1 := by
  intro heq
  have hne : Name.stripQuotes name ≠ "" := by
    intro hempty
    have hunquoted : Unquoted (Name.stripQuotes name).toList := by
      rw [hempty]
      decide
    exact h ((stripQuotes_eq_self_iff (tight_stripQuotes name)).mpr hunquoted)
  rw [resolve_of_lookup hne hty m] at heq
  obtain ⟨-,⟨output,hattempt⟩,-⟩ := attempt_of_resolve heq.symm
  rcases List.mem_append.mp hattempt with hmem | hmem
  · rcases List.mem_cons.mp hmem with hmem | hmem
    · exact h (congrArg Prod.snd hmem).symm
    · obtain ⟨text,-,htext⟩ := List.mem_map.mp hmem
      cases congrArg Prod.fst htext
  · cases step_of_mem_demangledAttempts hmem

/-- A stripped name has no blank at its ends. It has no quote there either exactly if the name has one
layer of quotes at most, and exactly then a second pass changes nothing. Such a name and its stripped
form are resolved alike, by any table and demangler and whatever was resolved before. Another name and
its stripped form are told apart by every table that has the stripped form. -/
theorem stripQuotes_complete_iff (name : String) :
    Tight (Name.stripQuotes name).toList ∧
    (Unquoted (Name.stripQuotes name).toList ↔ QuotedOnce name.toList) ∧
    (Name.stripQuotes (Name.stripQuotes name) = Name.stripQuotes name ↔ QuotedOnce name.toList) ∧
    (QuotedOnce name.toList → ∀ (r : Resolver) (m : ResolverMemory),
      r.resolve name m = r.resolve (Name.stripQuotes name) m) ∧
    (¬QuotedOnce name.toList → ∀ (lookup : String → Option TypeDesc) (ty : TypeDesc),
      lookup (Name.stripQuotes name) = some ty → ∀ d m m',
        ((⟨lookup,d⟩ : Resolver).resolve name m).1 ≠
          ((⟨lookup,d⟩ : Resolver).resolve (Name.stripQuotes name) m').1) := by
  have hunquoted : Unquoted (Name.stripQuotes name).toList ↔ QuotedOnce name.toList := by
    rw [toList_stripQuotes]
    exact (quotedOnce_iff name.toList).symm
  have hfixed := (stripQuotes_eq_self_iff (tight_stripQuotes name)).trans hunquoted
  refine ⟨tight_stripQuotes name,hunquoted,hfixed,fun h r m => ?_,fun h lookup ty hty => ?_⟩
  · rw [resolve, resolve, hfixed.mpr h]
  · exact resolve_ne_of_stripQuotes_ne (mt hfixed.mp h) hty

/-- A table with a name in quotes, and the same name without them. -/
def quotedTable (text : String) : Option TypeDesc :=
  if text = "\"Foo\"" then some (.plain 0 "Quoted")
  else if text = "Foo" then some (.plain 1 "Foo")
  else none

/-- Two quotes in a row are one layer, with blanks on either side of them. Two quotes with a blank between
them are more than one. -/
theorem stripQuotes_complete_iff_foo :
    QuotedOnce " \"\" Foo\"".toList ∧
    (∀ (r : Resolver) (m : ResolverMemory), r.resolve " \"\" Foo\"" m = r.resolve "Foo" m) ∧
    ¬QuotedOnce "\" \"Foo\" \"".toList ∧
    ∀ d m m', ((⟨quotedTable,d⟩ : Resolver).resolve "\" \"Foo\" \"" m).1 ≠
      ((⟨quotedTable,d⟩ : Resolver).resolve "\"Foo\"" m').1 := by
  have hgap : Text.Blanks [' '] := List.forall_mem_singleton.mpr (by decide)
  have honce : QuotedOnce " \"\" Foo\"".toList := by
    have htight : Text.Tight "Foo".toList := ⟨by rintro _ ⟨⟩; decide,by rintro _ ⟨⟩; decide⟩
    refine ⟨[' ','"','"',' '],"Foo".toList,['"'],rfl,?_,?_,htight,by decide⟩
    · exact ⟨[' '],['"','"'],[' '],rfl,hgap,by simp,hgap⟩
    · exact ⟨[],['"'],[],rfl,List.forall_mem_nil _,List.forall_mem_singleton.mpr rfl,List.forall_mem_nil _⟩
  have hfoo : Name.stripQuotes " \"\" Foo\"" = "Foo" := by decide +kernel
  have hquoted : Name.stripQuotes "\" \"Foo\" \"" = "\"Foo\"" := by decide +kernel
  obtain ⟨-,-,-,halike,-⟩ := stripQuotes_complete_iff " \"\" Foo\""
  obtain ⟨-,hunquoted,-,-,hdiffer⟩ := stripQuotes_complete_iff "\" \"Foo\" \""
  rw [hfoo] at halike
  rw [hquoted] at hunquoted hdiffer
  have htwice : ¬QuotedOnce "\" \"Foo\" \"".toList := mt hunquoted.mpr (by decide)
  exact ⟨honce,halike honce,htwice,hdiffer htwice quotedTable _ rfl⟩

/-- Quotes behind a quote and a blank are left, a second pass takes them away, and the two names are
resolved to different types. -/
theorem quotes_left_inside :
    Name.stripQuotes "\" \"Foo\" \"" = "\"Foo\"" ∧ Name.stripQuotes "\"Foo\"" = "Foo" ∧
    ((⟨quotedTable,none⟩ : Resolver).resolve "\" \"Foo\" \"" .fresh).1 =
      some ⟨.plain 0 "Quoted",.direct,"\"Foo\""⟩ ∧
    ((⟨quotedTable,none⟩ : Resolver).resolve "\"Foo\"" .fresh).1 =
      some ⟨.plain 1 "Foo",.direct,"Foo"⟩ := by
  decide +kernel

end Resolver
end ValueInspector
