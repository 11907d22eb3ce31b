import Mathlib.Data.Nat.Digits.Defs
import ValueInspector.Proofs.Inspector.Consultations
import ValueInspector.Proofs.Inspector.Visits
import ValueInspector.Proofs.Node.Chain
import ValueInspector.Proofs.Snapshot.Links
import ValueInspector.Proofs.Text.Hexadecimal

/-! # Linked records

A record with a pointer to the next one and a number takes two levels and one hop of an inspection. So
a list is displayed to its end within budgets that grow with its length, and a ring until its first
record was expanded as a target too: the pointer that leads on from there is cut. By induction on the
hops, with the addresses of the records behind on the trail.
-/
namespace ValueInspector

namespace Text

theorem length_toString_int32_le (n : Int32) : (toString n.toInt).toList.length ≤ 11 := by
  have hlt := n.toInt_lt
  have hge := n.le_toInt
  have hdigits : ∀ k : Nat, (k : Int) ≤ 2147483648 → (Nat.repr k).toList.length ≤ 10 := by
    intro k hk
    rw [String.length_toList]
    exact Nat.repr_length k 10 (by decide) (by norm_num; omega)
  rw [Int.toString_eq_repr, Int.repr_eq_if]
  split
  · have hsmall := hdigits n.toInt.toNat (by omega)
    omega
  · have hsmall := hdigits (-n.toInt).toNat (by omega)
    rw [String.toList_append, List.length_append]
    change 1 + _ ≤ 11
    omega

end Text

namespace Inspector

/-- Linked records have no printer, and neither their members nor their addresses are cut short. -/
structure ListsLinks (i : Inspector) (s : Snapshot) (link int : TypeDesc) : Prop where
  links : s.HasLinks link int
  stacked : s.memory.Stacked
  printerless : i.registry.lookup link = none
  members : 2 ≤ i.options.maxChildren.toNat
  texts : 18 ≤ i.options.maxTextLen.toNat

/-- What is displayed of a number, if its type has no printer either. -/
def ShowsPayload (i : Inspector) (int : TypeDesc) (payload : Int32) (value : Node) : Prop :=
  i.registry.lookup int = none → value = Node.ofPayload int payload

/-- The node of a value in a snapshot, some levels deep. -/
def nodeAt (i : Inspector) (s : Snapshot) (demangle : String → Option String) (levels : Nat)
    (f : Frame) (label : String) (v : RawValue) : Node :=
  (i.outline (i.answers s.oracle demangle) levels f label v).toNode

theorem label_nodeAt (i : Inspector) (s : Snapshot) (demangle : String → Option String)
    (levels : Nat) (f : Frame) (label : String) (v : RawValue) :
    (i.nodeAt s demangle levels f label v).label = label :=
  (Survey.label_toNode _).trans (label_outline ..)

namespace ListsLinks
variable {i : Inspector} {s : Snapshot} {link int : TypeDesc} (h : i.ListsLinks s link int)
  (demangle : String → Option String) {levels : Nat} {f : Frame} {label : String} {a next : UInt64}
  {payload : Int32}
include h

theorem nodeAt_link : i.nodeAt s demangle (levels + 1) f label ⟨a,link⟩ =
    Node.ofLink link label (i.nodeAt s demangle levels f.deeper "next" ⟨a,link.pointer⟩)
      (i.nodeAt s demangle levels f.deeper "value" ⟨a + 8,int⟩) := by
  have hnames : i.answers s.oracle demangle (.fieldNames ⟨a,link⟩) = .ok ["next","value"] :=
    h.links.fieldNames_link a
  have hmember : ∀ name ∈ ["next","value"],
      i.answers s.oracle demangle (.readField ⟨a,link⟩ name) =
        .ok (if name = "next" then ⟨a,link.pointer⟩ else ⟨a + 8,int⟩) := by
    intro name hname
    rcases List.mem_pair.mp hname with rfl | rfl
    · exact h.links.readField_next a
    · exact h.links.readField_value a
  rw [nodeAt, outline_record h.printerless h.links.isPointer_link hnames (List.cons_ne_nil _ _)
    h.members hmember, Survey.toNode_mk]
  rfl

section Stored
variable (hstored : s.StoresLink a next payload)
include hstored

theorem nodeAt_value :
    i.ShowsPayload int payload (i.nodeAt s demangle levels f "value" ⟨a + 8,int⟩) := by
  intro hprinter
  have hlimit : (toString payload.toInt).toList.length ≤ i.options.maxTextLen.toNat :=
    Nat.le_trans (Text.length_toString_int32_le payload) (Nat.le_trans (by decide) h.texts)
  rw [nodeAt, outline_scalar hprinter h.links.isPointer_int (h.links.fieldNames_int (a + 8))
    (h.links.formatValue_value h.stacked hstored) hlimit, Survey.toNode_mk]
  rfl

theorem nodeAt_next_null (hnext : next = 0) :
    i.nodeAt s demangle levels f "next" ⟨a,link.pointer⟩ = Node.ofNext link next none [] := by
  rw [nodeAt, outline_null h.links.isPointer_next (h.links.formatValue_next h.stacked hstored)
    ((Text.length_hexWord next).symm ▸ h.texts) (h.links.readInteger_next h.stacked hstored) hnext,
    Survey.toNode_mk]
  rfl

theorem nodeAt_next_cycle (hnext : next ≠ 0) (hleft : f.pointersLeft ≠ 0)
    (htrail : next ∈ f.trail) :
    i.nodeAt s demangle (levels + 1) f "next" ⟨a,link.pointer⟩ =
      Node.ofNext link next (some .cycle) [] := by
  rw [nodeAt, outline_cycle h.links.isPointer_next (h.links.formatValue_next h.stacked hstored)
    ((Text.length_hexWord next).symm ▸ h.texts) (h.links.readInteger_next h.stacked hstored) hnext
    hleft htrail, Survey.toNode_mk]
  rfl

theorem nodeAt_next (hnext : next ≠ 0) (hleft : f.pointersLeft ≠ 0) (htrail : next ∉ f.trail) :
    i.nodeAt s demangle (levels + 1) f "next" ⟨a,link.pointer⟩ =
      Node.ofNext link next none [i.nodeAt s demangle levels (f.across next) "*" ⟨next,link⟩] := by
  rw [nodeAt, outline_follow h.links.isPointer_next (h.links.formatValue_next h.stacked hstored)
    ((Text.length_hexWord next).symm ▸ h.texts) (h.links.readInteger_next h.stacked hstored) hnext
    hleft htrail (h.links.dereference_next h.stacked hstored hnext), Survey.toNode_mk]
  rfl

end Stored

/-- The display of a chain, by induction on the hops. The records behind are on the trail; what is
displayed of the last pointer is given. -/
theorem nodeAt_chain {b : Nat → UInt64} {q : Nat → Int32} {stop : Option Truncation} {m k : Nat}
    (hstored : ∀ j ≤ m, s.StoresLink (b (k + j)) (b (k + j + 1)) (q (k + j)))
    (hnonzero : ∀ j < m, b (k + j + 1) ≠ 0) (hlevels : 2 * m + 1 ≤ levels)
    (hleft : m ≤ f.pointersLeft.toNat)
    (hnodup : (((List.range' (k + 1) m).map b).reverse ++ f.trail).Nodup)
    (hstop : ∀ g : Frame, g.pointersLeft.toNat + m = f.pointersLeft.toNat →
      g.trail = ((List.range' (k + 1) m).map b).reverse ++ f.trail →
      i.nodeAt s demangle (levels - (2 * m + 1)) g "next" ⟨b (k + m),link.pointer⟩ =
        Node.ofNext link (b (k + m + 1)) stop []) :
    Node.ShowsChain link b (fun k => i.ShowsPayload int (q k)) stop m k
      (i.nodeAt s demangle levels f label ⟨b k,link⟩) := by
  induction m generalizing k levels f label with
  | zero =>
    obtain ⟨levels,rfl⟩ : ∃ l, levels = l + 1 := ⟨levels - 1,by omega⟩
    have hnext : i.nodeAt s demangle levels f.deeper "next" ⟨b k,link.pointer⟩ =
        Node.ofNext link (b (k + 1)) stop [] := hstop f.deeper rfl rfl
    rw [h.nodeAt_link, hnext]
    exact .last (label_nodeAt ..) (h.nodeAt_value demangle (hstored 0 (Nat.zero_le 0)))
  | succ m ih =>
    obtain ⟨levels,rfl⟩ : ∃ l, levels = l + 2 := ⟨levels - 2,by omega⟩
    have hlink : s.StoresLink (b k) (b (k + 1)) (q k) := hstored 0 (Nat.zero_le _)
    have hnext : b (k + 1) ≠ 0 := hnonzero 0 (Nat.zero_lt_succ m)
    have hhops : f.pointersLeft ≠ 0 := by
      intro hzero
      rw [hzero] at hleft
      exact Nat.not_succ_le_zero m hleft
    have hhop := Frame.toNat_hop hhops
    have htrail : ((List.range' (k + 1) (m + 1)).map b).reverse ++ f.trail =
        ((List.range' (k + 1 + 1) m).map b).reverse ++ (f.deeper.across (b (k + 1))).trail := by
      simp [List.range'_succ, Frame.across, Frame.deeper]
    rw [htrail] at hnodup hstop
    have hnew : b (k + 1) ∉ f.deeper.trail :=
      (List.nodup_cons.mp (List.nodup_append.mp hnodup).2.1).1
    have hbelow : Node.ShowsChain link b (fun k => i.ShowsPayload int (q k)) stop m (k + 1)
        (i.nodeAt s demangle levels (f.deeper.across (b (k + 1))) "*" ⟨b (k + 1),link⟩) := by
      have hshift : ∀ j, k + 1 + j = k + (j + 1) := fun j => by omega
      refine ih (fun j hj => ?_) (fun j hj => ?_) (by omega) ?_ hnodup (fun g hg htrail => ?_)
      · rw [hshift]
        exact hstored (j + 1) (Nat.succ_le_succ hj)
      · rw [hshift]
        exact hnonzero (j + 1) (Nat.succ_lt_succ hj)
      · change m ≤ (f.pointersLeft - 1).toNat
        omega
      · have hg' : g.pointersLeft.toNat + m = (f.pointersLeft - 1).toNat := hg
        have hlast := hstop g (by omega) htrail
        rw [hshift]
        rwa [show levels + 2 - (2 * (m + 1) + 1) = levels - (2 * m + 1) by omega] at hlast
    rw [h.nodeAt_link, h.nodeAt_next demangle hlink hnext (f := f.deeper) hhops hnew]
    exact .hop (label_nodeAt ..) (h.nodeAt_value demangle hlink) (label_nodeAt ..) hbelow

end ListsLinks

/-- What is displayed at a linked record: where its pointer leads, whether that is marked, and its
number. -/
structure ShowsLink (i : Inspector) (link int : TypeDesc) (node : Node) (target : UInt64)
    (payload : Int32) (mark : Option Truncation) : Prop where
  typeName : node.typeName = some link.spelling
  next : ∃ next, node.child? "next" = some next ∧ next.summary = some (Text.hexWord target) ∧
    next.error = none ∧ next.truncated = mark
  value : ∃ value, node.child? "value" = some value ∧ i.ShowsPayload int payload value

theorem shows_of_showsChain {i : Inspector} {link int : TypeDesc} {b : Nat → UInt64}
    {q : Nat → Int32} {stop : Option Truncation} {m : Nat} {tree : Node}
    (h : Node.ShowsChain link b (fun k => i.ShowsPayload int (q k)) stop m 0 tree) :
    (∀ k, (tree.follow? (Node.links k)).isSome ↔ k ≤ m) ∧
    (∀ k ≤ m, ∃ node, tree.follow? (Node.links k) = some node ∧
      i.ShowsLink link int node (b (k + 1)) (q k) (if k = m then stop else none)) ∧
    ∃ next, tree.follow? (Node.links m ++ ["next"]) = some next ∧ next.children = [] ∧
      next.truncated = stop := by
  refine ⟨h.isSome_follow_links,fun k hk => ?_,?_⟩
  · obtain ⟨node,hnode,hchain⟩ := h.follow_links hk
    rw [Nat.zero_add] at hchain
    obtain ⟨htype,hvalue,children,hnext,_⟩ := hchain.at_link
    have hlast : (m - k = 0) = (k = m) := propext (by omega)
    simp only [hlast] at hnext
    exact ⟨node,hnode,htype,⟨_,hnext,rfl,rfl,rfl⟩,hvalue⟩
  · obtain ⟨node,hnode,hchain⟩ := h.follow_links (Nat.le_refl m)
    rw [Nat.sub_self] at hchain
    obtain ⟨_,_,children,hnext,hnone⟩ := hchain.at_link
    rw [if_pos rfl] at hnext
    have hlast : tree.follow? (Node.links m ++ ["next"]) =
        some (Node.ofNext link (b (0 + m + 1)) stop children) := by
      rw [Node.follow?_append, hnode, Option.bind_some, Node.follow?, hnext]
      rfl
    exact ⟨_,hlast,hnone rfl,rfl⟩

section Displayed
variable {i : Inspector} {s : Snapshot} {link int : TypeDesc} (h : i.ListsLinks s link int)
  (demangle : String → Option String) (label : String) {n : Nat} (hn : 1 ≤ n) {a : Nat → UInt64}
  {p : Nat → Int32}
include h hn

/-- A list is displayed to its end. -/
theorem ListsLinks.display_list (hchain : s.Chain n a p 0)
    (hleft : n - 1 ≤ i.options.expandPointers.toNat)
    (hlevels : 2 * n - 1 ≤ i.options.maxDepth.toNat) :
    Node.ShowsChain link (Snapshot.alongList n a) (fun k => i.ShowsPayload int (p k)) none (n - 1) 0
      (i.display s.oracle (.ofFunction demangle) label ⟨a 0,link⟩) := by
  have hroot : a 0 = Snapshot.alongList n a 0 := (if_pos hn).symm
  have hend : Snapshot.alongList n a (n - 1 + 1) = 0 := if_neg (by omega)
  rw [display_eq_outline, hroot]
  refine h.nodeAt_chain demangle (fun j hj => ?_) (fun j hj => ?_) (by omega) hleft ?_
    (fun g _ _ => ?_)
  · rw [Nat.zero_add]
    exact hchain.stored_list (by omega)
  · have hin : j + 1 < n := by omega
    rw [Nat.zero_add, Snapshot.alongList, if_pos hin]
    exact hchain.nonzero (j + 1) hin
  · rw [List.append_nil, List.nodup_reverse]
    exact hchain.nodup_list
  · rw [Nat.zero_add]
    exact h.nodeAt_next_null demangle (hchain.stored_list (by omega)) hend

/-- A ring is displayed until it comes back to the target of its first record. -/
theorem ListsLinks.display_ring (hchain : s.Chain n a p (a 0))
    (hleft : n + 1 ≤ i.options.expandPointers.toNat)
    (hlevels : 2 * n + 2 ≤ i.options.maxDepth.toNat) :
    Node.ShowsChain link (fun j => a (j % n)) (fun k => i.ShowsPayload int (p (k % n)))
      (some .cycle) n 0 (i.display s.oracle (.ofFunction demangle) label ⟨a 0,link⟩) := by
  have hroot : a 0 = a (0 % n) := by rw [Nat.zero_mod]
  have hnonzero : ∀ j, a (j % n) ≠ 0 := fun j => hchain.nonzero (j % n) (Nat.mod_lt j hn)
  rw [display_eq_outline, hroot]
  refine h.nodeAt_chain demangle (b := fun j => a (j % n)) (q := fun j => p (j % n))
    (fun j hj => ?_) (fun j hj => hnonzero _) (by omega) (Nat.le_of_succ_le hleft) ?_
    (fun g hg htrail => ?_)
  · exact hchain.stored_ring hn (0 + j)
  · rw [List.append_nil, List.nodup_reverse]
    exact hchain.nodup_ring
  -- the pointer that is left leads to the second record, or to the only one
  · obtain ⟨levels,hsucc⟩ : ∃ l, i.options.maxDepth.toNat - (2 * n + 1) = l + 1 :=
      ⟨i.options.maxDepth.toNat - (2 * n + 1) - 1,by omega⟩
    have hhops : g.pointersLeft ≠ 0 := by
      intro hzero
      rw [hzero] at hg
      change 0 + n = i.options.expandPointers.toNat at hg
      omega
    have hsecond : a ((0 + n + 1) % n) ∈ g.trail := by
      rw [htrail, List.append_nil, List.mem_reverse, List.mem_map]
      exact ⟨1,List.mem_range'_1.mpr ⟨Nat.le_refl 1,by omega⟩,by simp⟩
    rw [hsucc]
    exact h.nodeAt_next_cycle demangle (hchain.stored_ring hn (0 + n)) (hnonzero _) hhops hsecond

end Displayed

/-- Linked records whose type has no printer are displayed along their pointers. Of a list of any
length every record is displayed and nothing is marked, within budgets for one hop less than it has
records. Of a ring every record is displayed, and the first one again; the pointer that leads on from
there is cut, the only one that is. The demangler may be any.

The records are found whatever is registered for the type of their numbers. What is said of the numbers
themselves, and that no node has an error or a mark, needs `i.registry.lookup int = none`: a printer for that
type may give any text, list children of its own down to the depth limit, or fail. -/
theorem display_linked_records (steps : List BuilderStep) (i : Inspector) (demangler : Demangler)
    (label : String) {link int : TypeDesc} {n : Nat} (a : Nat → UInt64) (p : Nat → Int32)
    (hlinks : (Construction.ofSteps steps).builder.snapshot.HasLinks link int)
    (hprinter : i.registry.lookup link = none) (hn : 1 ≤ n)
    (hmembers : 2 ≤ i.options.maxChildren.toNat) (htexts : 18 ≤ i.options.maxTextLen.toNat) :
    let s := (Construction.ofSteps steps).builder.snapshot
    let tree := i.display s.oracle demangler label ⟨a 0,link⟩
    (s.Chain n a p 0 → n - 1 ≤ i.options.expandPointers.toNat →
      2 * n - 1 ≤ i.options.maxDepth.toNat →
        (∀ k, (tree.follow? (Node.links k)).isSome ↔ k < n) ∧
        (∀ k < n, ∃ node, tree.follow? (Node.links k) = some node ∧
          i.ShowsLink link int node (if k + 1 < n then a (k + 1) else 0) (p k) none) ∧
        (∃ next, tree.follow? (Node.links (n - 1) ++ ["next"]) = some next ∧ next.children = []) ∧
        (i.registry.lookup int = none → tree.All Node.Unmarked)) ∧
    (s.Chain n a p (a 0) → n + 1 ≤ i.options.expandPointers.toNat →
      2 * n + 2 ≤ i.options.maxDepth.toNat →
        (∀ k, (tree.follow? (Node.links k)).isSome ↔ k ≤ n) ∧
        (∀ k ≤ n, ∃ node, tree.follow? (Node.links k) = some node ∧
          i.ShowsLink link int node (a ((k + 1) % n)) (p (k % n))
            (if k = n then some .cycle else none)) ∧
        ∃ next, tree.follow? (Node.links n ++ ["next"]) = some next ∧ next.children = [] ∧
          next.truncated = some .cycle) := by
  dsimp only
  have h : i.ListsLinks (Construction.ofSteps steps).builder.snapshot link int :=
    ⟨hlinks,Construction.stacked_ofSteps steps,hprinter,hmembers,htexts⟩
  obtain ⟨demangle,hdisplay⟩ := i.exists_function_display
    (Construction.ofSteps steps).builder.snapshot.oracle demangler label ⟨a 0,link⟩
  rw [hdisplay]
  constructor
  · intro hchain hleft hlevels
    have hshown := h.display_list demangle label hn hchain hleft hlevels
    obtain ⟨hreached,hlink,next,hnext,hlast,_⟩ := shows_of_showsChain hshown
    refine ⟨fun k => (hreached k).trans (by omega),fun k hk => ?_,⟨next,hnext,hlast⟩,
      fun hint => hshown.all_unmarked fun k value hvalue => ?_⟩
    · have hnode := hlink k (by omega)
      rwa [ite_self] at hnode
    · rw [hvalue hint]
      exact .mk ⟨rfl,rfl⟩ nofun
  · intro hchain hleft hlevels
    exact shows_of_showsChain (h.display_ring demangle label hn hchain hleft hlevels)

/-- A list of two records, and a ring of two. -/
def linkedSteps : List BuilderStep :=
  [.type (.declare "Link"),.type (.primitive "int32_t" .i32),
    .type (.record "Link" 12 [⟨"next",0,⟨0,1,"Link"⟩⟩,⟨"value",8,.plain 1 "int32_t"⟩]),
    .memory (.map 4096 #[0,32,0,0,0,0,0,0,7,0,0,0]),
    .memory (.map 8192 #[0,0,0,0,0,0,0,0,249,255,255,255]),
    .memory (.map 12288 #[0,64,0,0,0,0,0,0,1,0,0,0]),
    .memory (.map 16384 #[0,48,0,0,0,0,0,0,2,0,0,0])]

/-- Both records of the list are displayed and nothing is marked. The ring is cut behind the second
visit of its first record. -/
theorem display_linked_records_two :
    let s := (Construction.ofSteps linkedSteps).builder.snapshot
    let i : Inspector := ⟨.empty,{ InspectOptions.standard with expandPointers := 3 }⟩
    let list := i.display s.oracle .silent "list" ⟨4096,.plain 0 "Link"⟩
    let ring := i.display s.oracle .silent "ring" ⟨12288,.plain 0 "Link"⟩
    (∃ node, list.follow? ["next","*"] = some node ∧
      i.ShowsLink (.plain 0 "Link") (.plain 1 "int32_t") node 0 (-7) none) ∧
    list.All Node.Unmarked ∧
    ∃ next, ring.follow? ["next","*","next","*","next"] = some next ∧ next.children = [] ∧
      next.truncated = some .cycle := by
  dsimp only
  have hlinks : (Construction.ofSteps linkedSteps).builder.snapshot.HasLinks (.plain 0 "Link")
      (.plain 1 "int32_t") :=
    ⟨rfl,rfl,⟨"Link",12,by decide +kernel⟩,⟨"int32_t",by decide +kernel⟩⟩
  have hlist : (Construction.ofSteps linkedSteps).builder.snapshot.Chain 2
      (fun k => if k = 0 then 4096 else 8192) (fun k => if k = 0 then 7 else -7) 0 :=
    ⟨by decide,by decide,by decide +kernel⟩
  have hring : (Construction.ofSteps linkedSteps).builder.snapshot.Chain 2
      (fun k => if k = 0 then 12288 else 16384) (fun k => if k = 0 then 1 else 2) 12288 :=
    ⟨by decide,by decide,by decide +kernel⟩
  obtain ⟨_,hshown,_,hunmarked⟩ := (display_linked_records linkedSteps
    ⟨.empty,{ InspectOptions.standard with expandPointers := 3 }⟩ .silent "list" _ _ hlinks rfl
    (by decide) (by decide) (by decide)).1 hlist (by decide) (by decide)
  obtain ⟨_,_,hcut⟩ := (display_linked_records linkedSteps
    ⟨.empty,{ InspectOptions.standard with expandPointers := 3 }⟩ .silent "ring" _ _ hlinks rfl
    (by decide) (by decide) (by decide)).2 hring (by decide) (by decide)
  exact ⟨hshown 1 (by decide),hunmarked rfl,hcut⟩

end Inspector
end ValueInspector
