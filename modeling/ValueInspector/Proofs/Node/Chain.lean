import Mathlib.Data.List.Basic
import ValueInspector.Node.Basic
import ValueInspector.Text.Numeral
import ValueInspector.TypeDesc

/-! # Trees of linked records

The display tree of a chain of records, each of which has a pointer to the next one and a number. It is
as deep as the chain is long: the records are reached through one pointer and its target after the
other, and behind the last pointer there is nothing.
-/
namespace ValueInspector.Node

/-- A property of a node and of all nodes below. -/
inductive All (P : Node → Prop) : Node → Prop
  | mk {n : Node} (here : P n) (below : ∀ c ∈ n.children, All P c) : All P n

theorem All.mono {P Q : Node → Prop} {n : Node} (h : n.All P) (hPQ : ∀ m, P m → Q m) : n.All Q := by
  induction h with
  | mk here _ ih => exact .mk (hPQ _ here) ih

theorem All.and {P Q : Node → Prop} {n : Node} (hp : n.All P) (hq : n.All Q) :
    n.All fun m => P m ∧ Q m := by
  induction hp with
  | mk here _ ih =>
    cases hq with
    | mk here' below' => exact .mk ⟨here,here'⟩ fun c hc => ih c hc (below' c hc)

/-- No error, and no child missing. -/
def Unmarked (n : Node) : Prop := n.error = none ∧ n.truncated = none

/-- The labels on the way along some links. -/
def links : Nat → List String
  | 0 => []
  | k + 1 => "next" :: "*" :: links k

def ofLink (link : TypeDesc) (label : String) (next value : Node) : Node :=
  ⟨label,some link.spelling,none,none,none,[next,value]⟩

def ofNext (link : TypeDesc) (target : UInt64) (truncated : Option Truncation)
    (children : List Node) : Node :=
  ⟨"next",some link.pointer.spelling,some (Text.hexWord target),none,truncated,children⟩

def ofPayload (int : TypeDesc) (payload : Int32) : Node :=
  ⟨"value",some int.spelling,some (toString payload.toInt),none,none,[]⟩

/-- The tree of a chain of linked records, from the `k`-th one on and some hops long. The last pointer
is not followed, and may be marked for it. -/
inductive ShowsChain (link : TypeDesc) (b : Nat → UInt64) (shows : Nat → Node → Prop)
    (stop : Option Truncation) : Nat → Nat → Node → Prop
  | last {k : Nat} {label : String} {value : Node} (hlabel : value.label = "value")
      (hvalue : shows k value) :
      ShowsChain link b shows stop 0 k (ofLink link label (ofNext link (b (k + 1)) stop []) value)
  | hop {m k : Nat} {label : String} {below value : Node} (hlabel : value.label = "value")
      (hvalue : shows k value) (htarget : below.label = "*")
      (hbelow : ShowsChain link b shows stop m (k + 1) below) :
      ShowsChain link b shows stop (m + 1) k
        (ofLink link label (ofNext link (b (k + 1)) none [below]) value)

theorem follow?_append (n : Node) (l₁ l₂ : List String) :
    n.follow? (l₁ ++ l₂) = (n.follow? l₁).bind (·.follow? l₂) := by
  induction l₁ generalizing n with
  | nil => rfl
  | cons label rest ih =>
    rw [List.cons_append, follow?, follow?]
    cases n.child? label with
    | none => rfl
    | some c => exact ih c

namespace ShowsChain
variable {link : TypeDesc} {b : Nat → UInt64} {shows : Nat → Node → Prop}
  {stop : Option Truncation} {m k : Nat} {t : Node}

/-- What is displayed at one record. -/
theorem at_link (h : ShowsChain link b shows stop m k t) :
    t.typeName = some link.spelling ∧ (∃ value, t.child? "value" = some value ∧ shows k value) ∧
      ∃ children, t.child? "next" =
        some (ofNext link (b (k + 1)) (if m = 0 then stop else none) children) ∧
          (m = 0 → children = []) := by
  cases h with
  | last hlabel hvalue =>
    exact ⟨rfl,⟨_,by simp [child?, ofLink, ofNext, hlabel],hvalue⟩,[],rfl,fun _ => rfl⟩
  | hop hlabel hvalue htarget hbelow =>
    exact ⟨rfl,⟨_,by simp [child?, ofLink, ofNext, hlabel],hvalue⟩,_,rfl,nofun⟩

theorem follow_hop {label : String} {target : UInt64} {truncated : Option Truncation}
    {below value : Node} (htarget : below.label = "*") (j : Nat) :
    (ofLink link label (ofNext link target truncated [below]) value).follow? (links (j + 1)) =
      below.follow? (links j) := by
  simp [links, follow?, child?, ofLink, ofNext, htarget]

/-- The records along the chain are reached one after the other. -/
theorem follow_links (h : ShowsChain link b shows stop m k t) {j : Nat} (hj : j ≤ m) :
    ∃ u, t.follow? (links j) = some u ∧ ShowsChain link b shows stop (m - j) (k + j) u := by
  induction h generalizing j with
  | last hlabel hvalue =>
    obtain rfl := Nat.le_zero.mp hj
    exact ⟨_,rfl,.last hlabel hvalue⟩
  | @hop m k label below value hlabel hvalue htarget hbelow ih =>
    cases j with
    | zero => exact ⟨_,rfl,.hop hlabel hvalue htarget hbelow⟩
    | succ j =>
      obtain ⟨u,hu,hchain⟩ := ih (Nat.le_of_succ_le_succ hj)
      rw [Nat.add_assoc, Nat.add_comm 1] at hchain
      exact ⟨u,(follow_hop htarget j).trans hu,Nat.add_sub_add_right m 1 j ▸ hchain⟩

/-- And there are no more of them. -/
theorem follow_past (h : ShowsChain link b shows stop m k t) {j : Nat} (hj : m < j) :
    t.follow? (links j) = none := by
  induction h generalizing j with
  | last =>
    obtain ⟨j,rfl⟩ := Nat.exists_eq_add_of_lt hj
    rfl
  | hop hlabel hvalue htarget hbelow ih =>
    cases j with
    | zero => exact absurd hj (Nat.not_lt_zero _)
    | succ j => exact (follow_hop htarget j).trans (ih (Nat.lt_of_succ_lt_succ hj))

theorem isSome_follow_links (h : ShowsChain link b shows stop m k t) (j : Nat) :
    (t.follow? (links j)).isSome ↔ j ≤ m := by
  rcases Nat.lt_or_ge m j with hj | hj
  · rw [h.follow_past hj]
    simpa using hj
  · obtain ⟨u,hu,_⟩ := h.follow_links hj
    simpa [hu] using hj

/-- Nothing is marked if neither the last pointer is nor any number. -/
theorem all_unmarked (h : ShowsChain link b shows none m k t)
    (hshows : ∀ k value, shows k value → value.All Unmarked) : t.All Unmarked := by
  induction h with
  | last hlabel hvalue =>
    refine .mk ⟨rfl,rfl⟩ fun c hc => ?_
    rcases List.mem_pair.mp hc with rfl | rfl
    · exact .mk ⟨rfl,rfl⟩ nofun
    · exact hshows _ _ hvalue
  | hop hlabel hvalue htarget hbelow ih =>
    refine .mk ⟨rfl,rfl⟩ fun c hc => ?_
    rcases List.mem_pair.mp hc with rfl | rfl
    · refine .mk ⟨rfl,rfl⟩ fun c hc => ?_
      rw [List.mem_singleton.mp hc]
      exact ih
    · exact hshows _ _ hvalue

end ShowsChain

end ValueInspector.Node
