import Std.Data.HashMap
import ValueInspector.Shell.Utility.Records.Value

/-! # Arrays of scripts

The elements of an array by their subscripts, and the order in which a loop meets them. Subscripts stand
in buckets: by their texts, and by their numbers if they were given as numbers. What is looked up comes
to the front of its bucket. The texts of subscripts that were only used as numbers are put into buckets
when an order by texts is asked for at first.
-/
namespace ValueInspector.Shell.Records

inductive Key where
  | text (w : Bytes)
  | number (n : Int)

namespace Key

def ofValue (format : Bytes) (v : Value) : Key :=
  match v with
  | .number a =>
    match a.integral? with
    | some n =>
      if -2147483648 ≤ n && n ≤ 2147483647 then .number n else .text (Bytes.ofInt n)
    | none => .text (a.text format)
  | v => .text (v.asText format)

def asText : Key → Bytes
  | .text w => w
  | .number n => Bytes.ofInt n

/-- Which bucket a text belongs to, before it is brought down to the number of buckets. -/
def hash (w : Bytes) : Nat :=
  (w.foldl (fun h c => (h ^^^ UInt32.ofNat c.toNat) * 16777619) (2166136261 : UInt32)).toNat

/-- The number that a text is the usual form of. -/
def number? (w : Bytes) : Option Int :=
  let n? : Option Int := match w with
    | '-' :: digits => (Bytes.natural? digits).map fun n => -(n : Int)
    | digits => (Bytes.natural? digits).map fun n => (n : Int)
  n?.filter fun n => Bytes.ofInt n = w

end Key

structure Elements where
  values : Std.HashMap String Value
  texts : Array (List Bytes)
  /-- All subscripts stand in buckets of texts. -/
  named : Bool
  numbers : Array (List Int)
  /-- The elements are as a division of a text left them, with subscripts up to this one. -/
  divided : Option Nat

namespace Elements

def firstBuckets : Nat := 64

/-- So many subscripts a bucket has on average before there are more buckets. -/
def bucketLimit : Nat := 12

def withBuckets (n : Nat) : Elements := ⟨∅, Array.replicate n [], false, Array.replicate n [], none⟩

def empty : Elements := withBuckets firstBuckets

def size (e : Elements) : Nat := e.values.size

def value? (e : Elements) (k : Key) : Option Value := e.values[String.ofList k.asText]?

def textIndex (e : Elements) (w : Bytes) : Nat := Key.hash w % e.texts.size

def numberIndex (e : Elements) (n : Int) : Nat := (n % (e.numbers.size : Int)).toNat

/-- Brings a text to the front of its bucket. -/
def frontText (e : Elements) (w : Bytes) : Elements :=
  let i := e.textIndex w
  { e with texts := e.texts.modify i fun l => w :: l.filter (· ≠ w) }

def frontNumber (e : Elements) (n : Int) : Elements :=
  let i := e.numberIndex n
  { e with numbers := e.numbers.modify i fun l => n :: l.erase n }

/-- Puts the texts of all subscripts into buckets, if that was not done before. -/
def nameAll (e : Elements) : Elements :=
  if e.named then e
  else
    let e := { e with named := true, divided := none }
    e.numbers.foldl (fun e l => l.foldl (fun e n => e.frontText (Bytes.ofInt n)) e) e

/-- Twice as many buckets. -/
def grow (e : Elements) : Elements :=
  let n := e.texts.size
  let textStays (w : Bytes) : Bool := Key.hash w % (2 * n) < n
  let numberStays (k : Int) : Bool := k % (2 * n : Int) < n
  { e with
    texts := e.texts.map (·.filter textStays) ++ e.texts.map (·.filter fun w => !textStays w)
    numbers := e.numbers.map (·.filter numberStays) ++ e.numbers.map (·.filter fun k => !numberStays k) }

/-- A new element. -/
def add (e : Elements) (w : Bytes) : Elements :=
  let e := { e with values := e.values.insert (String.ofList w) .unset }
  if bucketLimit * e.texts.size < e.size then e.grow else e

/-- Looks a text up. An element that is not there is made if asked for. -/
def findText (e : Elements) (w : Bytes) (make : Bool) : Elements :=
  if e.size = 0 && !make then e
  else
    let e := e.nameAll
    if e.values.contains (String.ofList w) then e.frontText w
    else if make then (e.add w).frontText w
    else e

/-- Looks a number up. -/
def findNumber (e : Elements) (n : Int) (make : Bool) : Elements :=
  let direct : Bool := e.divided.any fun (m : Nat) => 1 ≤ n && n ≤ (m : Int)
  if (e.size = 0 && !make) || direct || (e.divided.isSome && !make) then e
  else
    let e := { e with divided := none }
    let w := Bytes.ofInt n
    if n ∈ e.numbers.getD (e.numberIndex n) [] then e.frontNumber n
    else if e.named then
      if e.values.contains (String.ofList w) || make then (e.findText w true).frontNumber n else e
    else if make then (e.add w).frontNumber n
    else e

/-- Looks a subscript up. -/
def find (e : Elements) (k : Key) (make : Bool) : Elements :=
  match k with
  | .text w => e.findText w make
  | .number n => e.findNumber n make

/-- Gives a subscript a value. -/
def set (e : Elements) (k : Key) (v : Value) : Elements :=
  let e := e.find k true
  { e with values := e.values.insert (String.ofList k.asText) v }

def erase (e : Elements) (k : Key) : Elements :=
  let w := k.asText
  if !e.values.contains (String.ofList w) then e
  else
    let e := { e with divided := none }.find k false
    let e := { e with values := e.values.erase (String.ofList w) }
    if e.size = 0 then empty
    else
      let i := e.textIndex w
      let e := { e with texts := e.texts.modify i (·.filter (· ≠ w)) }
      match Key.number? w with
      | some n =>
        let i := e.numberIndex n
        { e with numbers := e.numbers.modify i (·.erase n) }
      | none => e

/-- The subscripts in the order of the buckets of their texts. -/
def keys (e : Elements) : List Bytes := e.texts.toList.flatten

/-- Values under the numbers from one on. -/
def ofValues (vs : List Value) : Elements :=
  let n := vs.length
  let doublings := (List.range 32).find? fun k => n ≤ bucketLimit * (firstBuckets <<< k)
  let e := vs.zipIdx.foldl
    (fun e v =>
      let k := v.2 + 1
      { e with values := e.values.insert (String.ofList (Bytes.ofNat k)) v.1 }.frontNumber k)
    (withBuckets (firstBuckets <<< doublings.getD 0))
  { e with divided := if n = 0 then none else some n }

end Elements
end ValueInspector.Shell.Records
