import ValueInspector.Shell.Bytes

/-! # Texts that grow

A text to which much is added, part by part. To add a part takes the same time whatever there is already,
and the whole text is put together once, when it is asked for. `toBytes_append` says that it is then the
one text with the other one behind it.
-/
namespace ValueInspector.Shell

/-- A front and the parts behind it, of which the last one comes first. That one is not copied. -/
def Bytes.joined (front : Bytes) : List Bytes → Bytes
  | [] => front
  | last :: earlier => front ++ earlier.foldl (fun rest part => part ++ rest) last

theorem Bytes.joined_cons (front w : Bytes) (parts : List Bytes) :
    Bytes.joined front (w :: parts) = Bytes.joined front parts ++ w := by
  have behind (parts : List Bytes) (v : Bytes) :
      parts.foldl (fun rest part => part ++ rest) (v ++ w) =
        parts.foldl (fun rest part => part ++ rest) v ++ w := by
    induction parts generalizing v with
    | nil => rfl
    | cons part parts ih => rw [List.foldl_cons, List.foldl_cons, ← ih, List.append_assoc]
  cases parts with
  | nil => rfl
  | cons part parts => rw [joined, joined, List.foldl_cons, behind, List.append_assoc]

/-- A text in parts. -/
structure Growing where
  front : Bytes
  /-- What was added, the latest part first. -/
  added : List Bytes
  /-- The text as a whole. -/
  whole : Thunk Bytes
  whole_eq : whole.get = front.joined added
  size : Nat
  size_eq : size = whole.get.length

namespace Growing

def ofBytes (w : Bytes) : Growing := ⟨w, [], Thunk.mk fun _ => w, rfl, w.length, rfl⟩

def empty : Growing := ofBytes []

def toBytes (g : Growing) : Bytes := g.whole.get

def append (g h : Growing) : Growing :=
  have whole_eq : g.front.joined (h.toBytes :: g.added) = g.toBytes ++ h.toBytes := by
    rw [Bytes.joined_cons, ← g.whole_eq]
    rfl
  ⟨g.front, h.toBytes :: g.added, Thunk.mk fun _ => g.front.joined (h.toBytes :: g.added), rfl,
    g.size + h.size, by
      rw [g.size_eq, h.size_eq, ← List.length_append]
      exact congrArg List.length whole_eq.symm⟩

@[simp] theorem toBytes_ofBytes (w : Bytes) : (ofBytes w).toBytes = w := rfl

@[simp] theorem toBytes_append (g h : Growing) :
    (g.append h).toBytes = g.toBytes ++ h.toBytes := by
  rw [toBytes, whole_eq, append, Bytes.joined_cons, ← g.whole_eq, toBytes, toBytes]

end Growing

end ValueInspector.Shell
