import ValueInspector.Shell.Utility.Records.Machine
import ValueInspector.Shell.Utility.Records.Reader

/-! # Running scripts

What expressions and statements of a script do, and `awk`, which runs a script over its operands.
-/
namespace ValueInspector.Shell.Records

namespace Run

/-! ## Places of values -/

/-- A target whose subscripts are known. -/
inductive Location where
  | variable (w : Bytes)
  | param (k : Nat)
  | field (k : Nat)
  | element (a : ArrayPlace) (k : Key)

def load (c : Config) : Location → Run Value
  | .variable w => readVariable c w
  | .param k => do
    match (← get).frame[k]? with
    | some (.value v) => return v
    | _ => return .unset
  | .field k => field c k
  | .element a k => return ((← elements a).value? k).getD .unset

def save (c : Config) (l : Location) (v : Value) : Run Unit :=
  match l with
  | .variable w => setVariable c w v
  | .param k => modify fun s => { s with frame := s.frame.setIfInBounds k (.value v) }
  | .field k => setField c k v
  | .element a k => changeElements a (·.set k v)

/-! ## Operations -/

def calculate (op : Arithmetic) : Amount → Amount → Amount :=
  match op with
  | .add => .map₂ (· + ·)
  | .sub => .map₂ (· - ·)
  | .mul => .map₂ (· * ·)
  | .div => .map₂ (· / ·)
  | .mod => .remainder
  | .pow => .map₂ Float.pow

def relates (r : Relation) (o : Ordering) : Bool :=
  match r with
  | .less => o = .lt
  | .lessEqual => o ≠ .gt
  | .equal => o = .eq
  | .unequal => o ≠ .eq
  | .greater => o = .gt
  | .greaterEqual => o ≠ .lt

/-- The most cells that operands and parameters of running functions take. -/
def cellLimit : Nat := 1006

/-- The longest text. -/
def textLimit : Nat := 16777216

/-- Where a text stands in another one, counted from one. -/
def indexOf (part : Bytes) : Nat → Bytes → Nat
  | _, [] => if part.isEmpty then 1 else 0
  | k, c :: cs => if part.isPrefixOf (c :: cs) then k else
    match cs with
    | [] => 0
    | cs => indexOf part (k + 1) cs

/-- So many bytes from a place on, counted from one. A place below zero counts for the length too. -/
def part (text : Bytes) (start length : Int) : Bytes :=
  let length := if start < 0 then Int.bmod (length - start) 4294967296 else length
  (text.drop (max start 1 - 1).toNat).take length.toNat

/-- The next number of a sequence that looks like chance. -/
def nextChance (x : UInt64) : UInt64 := x * 6364136223846793005 + 1442695040888963407

def chanceOf (x : UInt64) : Amount := .real ((x >>> 11).toFloat / 9007199254740992.0)

/-- Seconds since the start of 1970. -/
def seconds : Run Nat := return Calendar.startSeconds + (← system .clock) / 1000000

/-- The seconds of a date that is written as year, month, day, hour, minute and second. -/
def secondsOf (text : Bytes) : Int :=
  let parts := (text.splitOnP Bytes.isSpace).filter fun w => !w.isEmpty
  let number (w : Bytes) : Option Int :=
    match w with
    | '-' :: digits => (Bytes.natural? digits).map fun n => -(n : Int)
    | digits => (Bytes.natural? digits).map fun n => (n : Int)
  match parts.mapM number with
  | some (year :: month :: day :: h :: m :: sec :: _) =>
    Calendar.daysOf year month day * Calendar.secondsPerDay + h * 3600 + m * 60 + sec
  | _ => -1

def fitsIn (r : Regex) (text : Bytes) : Bool := Regex.occursIn patternMode r text

/-- Whether a record was there, as a number. -/
def outcome : Option (Option Bytes) → Value
  | none => .ofInt (-1)
  | some none => .ofNat 0
  | some (some _) => .ofNat 1

/-- Whether a name passed to a function stands for an array. -/
def takesArray (c : Config) (f : Bytes) (k : Nat) : Bool := c.script.arrayParams.contains (f, k)

/-- What a name stands for as an array, if it is one. -/
def arrayOf? (c : Config) : Expr → Run (Option ArrayPlace)
  | .global w => return if c.script.arrays.contains w then some (.global w) else none
  | .param k => do
    match (← get).frame[k]? with
    | some (.array a) => return some a
    | _ => return none
  | _ => return none

def patternOfText (c : Config) (w : Bytes) : Run Regex :=
  match Pattern.ofText w with
  | .ok r => pure r
  | .error f => patternFault c f

/-! ## Expressions and statements -/

/-- Puts a record that was read where it belongs. -/
def received (c : Config) (l : Option Location) (w : Option (Option Bytes)) : Run Value := do
  match w with
  | some (some w) =>
    match l with
    | some l => save c l (.mixed w)
    | none => setRecord (.mixed w)
  | _ => pure ()
  return outcome w

mutual

/-- The value of an expression. `held` counts the cells in use. -/
def eval (c : Config) : Nat → Nat → Expr → Run Value
  | 0, _, _ => throw .failed
  | n + 1, held, e => do
    match e with
    | .number x => return .number (.ofFloat x)
    | .text w => return .text w
    | .regex r => return .ofBool (fitsIn r (← asText (← record)))
    | .global w => readVariable c w
    | .param k => load c (.param k)
    | .field _ | .element _ _ => load c (← locate c n held e)
    | .array _ | .tuple _ => return .unset
    | .group e => eval c n held e
    | .assign target op e =>
      let l ← locate c n held target
      let v ← eval c n (held + 1) e
      let v ← match op with
        | none => pure v
        | some op => do
          let old ← load c l
          pure (.number (calculate op old.amount v.amount))
      save c l v
      return v
    | .choose p a b => if (← eval c n held p).isTrue then eval c n held a else eval c n held b
    | .both a b =>
      if (← eval c n held a).isTrue then return .ofBool (← eval c n held b).isTrue
      else return .ofBool false
    | .either a b =>
      if (← eval c n held a).isTrue then return .ofBool true
      else return .ofBool (← eval c n held b).isTrue
    | .not e => return .ofBool !(← eval c n held e).isTrue
    | .negate e => return .number (← eval c n held e).amount.negate
    | .plus e => return .number (← eval c n held e).amount
    | .arithmetic op a b =>
      let x ← eval c n held a
      let y ← eval c n (held + 1) b
      return .number (calculate op x.amount y.amount)
    | .join a b =>
      let front ← asGrowing (← eval c n held a)
      let text := front.append (← asGrowing (← eval c n (held + 1) b))
      if textLimit < text.size then fail c (bytes "out of memory") else return .joined text
    | .compare r a b =>
      let x ← eval c n held a
      let y ← eval c n (held + 1) b
      return .ofBool (relates r (x.compare (← format) y))
    | .fits inverted a b =>
      let text ← asText (← eval c n held a)
      let r ← pattern c n (held + 1) b
      return .ofBool (fitsIn r text != inverted)
    | .within subscripts a =>
      let k ← key c n held subscripts
      let a ← arrayPlace a
      changeElements a (·.find k false)
      return .ofBool ((← elements a).value? k).isSome
    | .step up before target =>
      let l ← locate c n held target
      let old := (← load c l).amount
      let new := old.map fun x => if up then x + 1.0 else x - 1.0
      save c l (.number new)
      return .number (if before then new else old)
    | .call f arguments =>
      match c.script.functions.lookup f with
      | none => throw .failed
      | some g => call c n held g arguments
    | .builtin b arguments => builtin c n held b arguments
    | .line target =>
      let l ← target.mapM (locate c n held)
      let w ← nextMain c Sh.repeats
      received c l (some w)
    | .lineOfFile target file =>
      let l ← target.mapM (locate c n held)
      let name ← asText (← eval c n held file)
      received c l (← recordOf c (false, name))
    | .lineOfCommand target command =>
      let name ← asText (← eval c n held command)
      let l ← target.mapM (locate c n held)
      received c l (← recordOf c (true, name))

/-- The place that a target names. An element is made if there is none. -/
def locate (c : Config) : Nat → Nat → Expr → Run Location
  | 0, _, _ => throw .failed
  | n + 1, held, e => do
    match e with
    | .global w => return .variable w
    | .param k => return .param k
    | .field e =>
      let a := (← eval c n held e).amount
      let k := a.whole (-2147483648) 2147483647
      if k < 0 then fail c (bytes "negative field index $" ++ Bytes.ofInt k)
      else if fieldLimit < k then fail c (bytes "maximum field index exceeded")
      else return .field k.toNat
    | .element a subscripts =>
      let k ← key c n held subscripts
      let a ← arrayPlace a
      changeElements a (·.find k true)
      return .element a k
    | _ => throw .failed

/-- The subscript that expressions make together. -/
def key (c : Config) : Nat → Nat → List Expr → Run Key
  | 0, _, _ => throw .failed
  | n + 1, held, es => do
    match es with
    | [e] => return .ofValue (← format) (← eval c n held e)
    | es =>
      let texts ← (← values c n held es).mapM asText
      return .text (Bytes.join (← textOf "SUBSEP") texts)

def values (c : Config) : Nat → Nat → List Expr → Run (List Value)
  | 0, _, _ => throw .failed
  | n + 1, held, es => do
    match es with
    | [] => return []
    | e :: es =>
      let v ← eval c n held e
      return v :: (← values c n (held + 1) es)

/-- The regular expression that an operand stands for. -/
def pattern (c : Config) : Nat → Nat → Expr → Run Regex
  | 0, _, _ => throw .failed
  | n + 1, held, e => do
    match e with
    | .regex r => return r
    | e => patternOfText c (← asText (← eval c n held e))

/-- What the parameters of a function stand for in a call, from the `k`-th on. -/
def slots (c : Config) : Nat → Nat → Function → Nat → List Expr → Run (List Slot)
  | 0, _, _, _, _ => throw .failed
  | n + 1, held, f, k, es => do
    if f.arity ≤ k then return []
    else
      let isArray := takesArray c f.name k
      let fresh : Run Slot := do
        let s ← get
        set { s with nextArray := s.nextArray + 1 }
        return .array (.fresh s.nextArray)
      let slot ← match es with
        | [] => if isArray then fresh else pure (.value .unset)
        | e :: _ =>
          if isArray then do
            match ← arrayOf? c e with
            | some a => pure (.array a)
            | none => fresh
          else .value <$> eval c n held e
      return slot :: (← slots c n (held + 1) f (k + 1) (es.drop 1))

/-- Runs a function. Arrays that came into being with the call are forgotten after it. -/
def call (c : Config) : Nat → Nat → Function → List Expr → Run Value
  | 0, _, _, _ => throw .failed
  | n + 1, held, f, arguments => do
    system (.compute 1)
    let first := (← get).nextArray
    let given ← slots c n held f 0 arguments
    let frame := (← get).frame
    if cellLimit < held + f.arity then fail c (bytes "program limit exceeded: eval stack size=1024")
    else
      modify ({ · with frame := given.toArray })
      let back : Run Unit := modify fun s =>
        { s with
          frame
          arrays := s.arrays.filter fun e => match e.1 with
            | .fresh k => k < first
            | .global _ => true }
      let v ← tryCatch (do
        execAll c n (held + f.arity) f.body
        return Value.unset) fun
          | .returned v => return v
          | stop => throw stop
      back
      return v

/-- Runs a function of the language itself. -/
def builtin (c : Config) : Nat → Nat → Builtin → List Expr → Run Value
  | 0, _, _, _ => throw .failed
  | n + 1, held, b, arguments => do
    let float (f : Float → Float) : Run Value := do
      match ← values c n held arguments with
      | [v] => return .number (v.amount.map f)
      | _ => return .unset
    let textThrough (f : Bytes → Value) : Run Value := do
      match ← values c n held arguments with
      | [v] => return f (← asText v)
      | _ => return .unset
    match b with
    | .length =>
      match arguments with
      | [] => return .ofNat (← asText (← record)).length
      | e :: _ =>
        match ← arrayOf? c e with
        | some a => return .ofNat (← elements a).size
        | none => return .ofNat (← asGrowing (← eval c n held e)).size
    | .substr =>
      match ← values c n held arguments with
      | [t, a] =>
        let w ← asText t
        return .text (part w a.amount.low w.length)
      | [t, a, l] => return .text (part (← asText t) a.amount.low l.amount.low)
      | _ => return .unset
    | .index =>
      match ← values c n held arguments with
      | [t, w] =>
        let w ← asText w
        return .ofNat (indexOf w 1 (← asText t))
      | _ => return .unset
    | .split =>
      match arguments with
      | e :: .array a :: rest =>
        let text ← asText (← eval c n held e)
        let separator ← match rest with
          | [] => separatorOf c (← textOf "FS")
          | .regex r :: _ => pure (.pattern r)
          | e :: _ => do separatorOf c (← asText (← eval c n (held + 1) e))
        let vs := (separator.divide text).map Value.mixed
        changeElements (← arrayPlace a) fun _ => .ofValues vs
        return .ofNat vs.length
      | _ => return .unset
    | .sub => substitute c n held false arguments
    | .gsub => substitute c n held true arguments
    | .fit =>
      match arguments with
      | [e, p] =>
        let text ← asText (← eval c n held e)
        let r ← pattern c n (held + 1) p
        let (start, length) : Nat × Int := match Regex.search? patternMode r (.ofText text) with
          | some (a, b) => (a.index + 1, (b.index : Int) - a.index)
          | none => (0, -1)
        store (bytes "RSTART") (.ofNat start)
        store (bytes "RLENGTH") (.ofInt length)
        return .ofNat start
      | _ => return .unset
    | .sprintf =>
      match ← values c n held arguments with
      | f :: vs =>
        let f ← asText f
        let numbers ← format
        let (w, complete) := filled (Value.asText numbers) f (vs.map Value.fromOutside)
        if complete then return .text w
        else fail c (bytes "not enough arguments passed to sprintf(\"" ++ f ++ bytes "\")")
      | [] => return .unset
    | .lower => textThrough fun w => .text (w.map Char.toLower)
    | .upper => textThrough fun w => .text (w.map Char.toUpper)
    | .sin => float Float.sin
    | .cos => float Float.cos
    | .exp => float Float.exp
    | .log => float Float.log
    | .sqrt => float Float.sqrt
    | .int =>
      match ← values c n held arguments with
      | [v] => return .number v.amount.truncate
      | _ => return .unset
    | .atan2 =>
      match ← values c n held arguments with
      | [y, x] => return .number (.map₂ Float.atan2 y.amount x.amount)
      | _ => return .unset
    | .rand =>
      let x := nextChance (← get).chance
      modify ({ · with chance := x })
      return .number (chanceOf x)
    | .srand =>
      let vs ← values c n held arguments
      let old := (← get).seed
      let new ← match vs with
        | v :: _ => pure v
        | [] => do pure (.ofNat (← seconds))
      let number := new.amount.whole (-9223372036854775808) 9223372036854775807
      modify ({ · with seed := .number new.amount, chance := nextChance (UInt64.ofInt number) })
      return old
    | .system =>
      match ← values c n held arguments with
      | [v] =>
        let command ← asText v
        flushAll c
        let pid ← task (Task.fork (commandTask c (← get) command).program)
        return .ofNat (← awaited pid)
      | _ => return .unset
    | .close =>
      match ← values c n held arguments with
      | [v] => return .ofInt (← close c (← asText v))
      | _ => return .unset
    | .flush =>
      match ← values c n held arguments with
      | [] =>
        flushAll c
        return .ofNat 0
      | v :: _ =>
        let name ← asText v
        if name.isEmpty then
          flushAll c
          return .ofNat 0
        else
          let keys := ((← get).targets.map (·.1)).filter (·.2 = name)
          for key in keys do checked c key (← flushTarget key)
          return .ofInt (if keys.isEmpty then -1 else 0)
    | .systime => return .ofNat (← seconds)
    | .strftime =>
      let vs ← values c n held arguments
      let given ← match vs with
        | v :: _ => asText v
        | [] => pure []
      let format := if given.isEmpty then bytes "%c" else given
      let time : Int ← match vs with
        | _ :: v :: _ => pure (v.amount.whole (-9223372036854775808) 9223372036854775807)
        | _ => do pure ((← seconds : Nat) : Int)
      let universal := match vs with
        | [_, _, v] => v.isTrue
        | _ => false
      let m := Calendar.momentOf time 0 (bytes (if universal then "GMT" else "UTC")) 0
      return .text (Calendar.format m false format)
    | .mktime =>
      match ← values c n held arguments with
      | v :: _ => return .ofInt (secondsOf (← asText v))
      | [] => return .unset

/-- Replaces the first match or all matches, and yields their number. -/
def substitute (c : Config) : Nat → Nat → Bool → List Expr → Run Value
  | 0, _, _, _ => throw .failed
  | n + 1, held, all, arguments => do
    match arguments with
    | p :: w :: rest =>
      let r ← pattern c n held p
      let w ← asText (← eval c n (held + 1) w)
      let l ← match rest with
        | [] => pure (.field 0)
        | e :: _ => locate c n (held + 2) e
      let text ← asText (← load c l)
      let ps := Piece.ofText (w.length + 1) [] w
      if all then
        let (new, k) := replaceAll r ps text
        if k ≠ 0 then save c l (.text new)
        return .ofNat k
      else
        match replaceFirst r ps text with
        | some new =>
          save c l (.text new)
          return .ofNat 1
        | none => return .ofNat 0
    | _ => return .unset

/-- Where a statement prints, after it was opened. -/
def sinkKey (c : Config) : Nat → Nat → Option Sink → Run (Bool × Bytes)
  | 0, _, _ => throw .failed
  | n + 1, held, sink => do
    match sink with
    | none => return standardOutput
    | some s =>
      let name ← asText (← eval c n held s.name)
      let key : Bool × Bytes := (decide (s.kind = .pipe), name)
      openTarget c key (decide (s.kind = .append))
      return key

def exec (c : Config) : Nat → Nat → Statement → Run Unit
  | 0, _, _ => throw .failed
  | n + 1, held, s => do
    match s with
    | .expr e =>
      let _ ← eval c n held e
    | .print es sink =>
      let vs ← match es with
        | [] => do pure [← record]
        | es => values c n held es
      let numbers ← textOf "OFMT"
      let text := Bytes.join (← textOf "OFS") (vs.map (Value.asText numbers)) ++ (← textOf "ORS")
      let key ← sinkKey c n held sink
      emit c key text
    | .printf es sink =>
      match ← values c n held es with
      | [] => pure ()
      | f :: vs =>
        let f ← asText f
        let key ← sinkKey c n held sink
        let numbers ← format
        let (text, complete) := filled (Value.asText numbers) f vs
        emit c key text
        if complete then pure ()
        else fail c (bytes "not enough arguments passed to printf(\"" ++ f ++ bytes "\")")
    | .when p a b =>
      if (← eval c n held p).isTrue then exec c n held a
      else
        match b with
        | some b => exec c n held b
        | none => pure ()
    | .while p body =>
      if (← eval c n held p).isTrue then
        if ← pass c n held body then exec c n held (.while p body)
    | .repeat body p =>
      if ← pass c n held body then
        if (← eval c n held p).isTrue then exec c n held (.repeat body p)
    | .loop start p step body =>
      match start with
      | some e =>
        let _ ← eval c n held e
      | none => pure ()
      let goesOn ← match p with
        | some p => do pure (← eval c n held p).isTrue
        | none => pure true
      if goesOn then
        if ← pass c n held body then exec c n held (.loop step p step body)
    | .each target a body =>
      let l ← locate c n held target
      let a ← arrayPlace a
      if (← elements a).size ≠ 0 then changeElements a (·.nameAll)
      let keys := (← elements a).keys
      each c n held l keys body
    | .block body => execAll c n held body
    | .next => throw .next
    | .nextFile => throw .nextFile
    | .exit e =>
      match e with
      | some e =>
        let a := (← eval c n held e).amount
        modify ({ · with status := (a.whole (-2147483648) 2147483647 % 256).toNat })
      | none => pure ()
      throw .exit
    | .return e =>
      match e with
      | some e => throw (.returned (← eval c n held e))
      | none => throw (.returned .unset)
    | .break => throw .leave
    | .continue => throw .again
    | .delete a subscripts =>
      let k ← key c n held subscripts
      let a ← arrayPlace a
      changeElements a (·.erase k)
    | .clear a => do changeElements (← arrayPlace a) fun _ => .empty

def execAll (c : Config) : Nat → Nat → List Statement → Run Unit
  | 0, _, _ => throw .failed
  | n + 1, held, ss => do
    match ss with
    | [] => pure ()
    | s :: ss =>
      exec c n held s
      execAll c n held ss

/-- One pass of a loop; tells whether the loop goes on. -/
def pass (c : Config) : Nat → Nat → Statement → Run Bool
  | 0, _, _ => throw .failed
  | n + 1, held, body => do
    system (.compute 1)
    tryCatch (do
      exec c n held body
      return true) fun
        | .leave => return false
        | .again => return true
        | stop => throw stop

/-- Passes of a loop over subscripts. -/
def each (c : Config) : Nat → Nat → Location → List Bytes → Statement → Run Unit
  | 0, _, _, _, _ => throw .failed
  | n + 1, held, l, keys, body => do
    match keys with
    | [] => pure ()
    | k :: keys =>
      save c l (.text k)
      if ← pass c n held body then each c n held l keys body

end

/-! ## Rules -/

/-- Whether a rule applies to the record; `k` is its number. -/
def applies (c : Config) (k : Nat) (condition : Condition) : Run Bool := do
  let holds (e : Expr) : Run Bool := do return (← eval c Sh.repeats 0 e).isTrue
  match condition with
  | .always => return true
  | .when e => holds e
  | .range first last =>
    let inside := k ∈ (← get).active
    if inside || (← holds first) then
      let ended ← holds last
      modify fun s => { s with
        active := if ended then s.active.filter (· ≠ k) else if inside then s.active else k :: s.active }
      return true
    else return false

/-- Applies rules to the record. -/
def applyAll (c : Config) : Nat → List Rule → Run Unit
  | _, [] => pure ()
  | k, r :: rest => do
    if ← applies c k r.condition then
      match r.body with
      | some body => execAll c Sh.repeats 0 body
      | none => exec c Sh.repeats 0 (.print [] none)
    applyAll c (k + 1) rest

/-- Applies the rules to all records. -/
def overRecords (c : Config) : Nat → Run Unit
  | 0 => pure ()
  | n + 1 => do
    system (.compute 1)
    match ← nextMain c Sh.repeats with
    | none => pure ()
    | some w =>
      setRecord (.mixed w)
      tryCatch (applyAll c 0 c.script.rules) fun
        | .next => pure ()
        | .nextFile => leaveInput
        | stop => throw stop
      overRecords c n

/-- Whether a part of a script came to its end; an exit leaves it. -/
def unlessExit (x : Run Unit) : Run Bool :=
  tryCatch (do
    x
    return true) fun
      | .exit => return false
      | stop => throw stop

/-- Writes all that waits, and waits for the commands that were written to. -/
def finish (c : Config) : Run Unit := do
  for e in (← get).targets do
    if e.2.child.isSome then
      let _ ← closeTarget c e.1
  for e in (← get).targets do
    checked c e.1 (← flushTarget e.1)

/-- All parts of a script. -/
def all (c : Config) : Run Unit := do
  let blocks (bs : List (List Statement)) : Run Unit := bs.forM (execAll c Sh.repeats 0)
  let s := c.script
  let goesOn ← unlessExit (blocks s.begins)
  if goesOn && !(s.rules.isEmpty && s.ends.isEmpty) then
    let _ ← unlessExit (overRecords c Sh.repeats)
  let _ ← unlessExit (blocks s.ends)
  finish c

end Run

/-! ## The command line -/

/-- What the command line asks for. -/
structure Request where
  separator : Option Bytes
  assignments : List Bytes
  files : List Bytes
  operands : List Bytes

inductive RequestFault where
  | unknown (word : Bytes)
  | missing (letter : Char)
deriving Repr

inductive Requested where
  | run (r : Request)
  | version
  | help

namespace Request

/-- Reads options up to the first operand. -/
def read : Nat → Request → List Bytes → Except RequestFault Requested
  | 0, r, words => .ok (.run { r with operands := words })
  | n + 1, r, words =>
    match words with
    | ['-', '-'] :: rest => .ok (.run { r with operands := rest })
    | ('-' :: '-' :: name) :: rest => special n r name rest ('-' :: '-' :: name)
    | ('-' :: c :: cs) :: rest =>
      if c ∈ ['F', 'v', 'f', 'W'] then
        match cs, rest with
        | [], [] => .error (.missing c)
        | [], w :: rest => option n r c w rest
        | cs, rest => option n r c cs rest
      else .error (.unknown ('-' :: c :: cs))
    | words => .ok (.run { r with operands := words })
where
  option (n : Nat) (r : Request) (c : Char) (w : Bytes) (rest : List Bytes) :
      Except RequestFault Requested :=
    match c with
    | 'F' => read n { r with separator := some w } rest
    | 'v' => read n { r with assignments := w :: r.assignments } rest
    | 'f' => read n { r with files := w :: r.files } rest
    | _ => special n r w rest w
  /-- An option that goes by a name, or by the start of one. -/
  special (n : Nat) (r : Request) (name : Bytes) (rest : List Bytes) (word : Bytes) :
      Except RequestFault Requested :=
    match name.head? with
    | some 'v' => .ok .version
    | some 'h' | some 'u' => .ok .help
    | some 'e' =>
      match rest with
      | file :: rest => .ok (.run { r with files := file :: r.files, operands := rest })
      | [] => .error (.unknown word)
    | _ => read n r rest

end Request

open Run in
/-- The state before a script runs. -/
def startMachine (i : Invocation) (operands : List Bytes) : Machine :=
  let text (name value : String) : Bytes × Value := (bytes name, .text (bytes value))
  let number (name : String) (n : Int) : Bytes × Value := (bytes name, .ofInt n)
  let given := [i.arguments.headD (bytes "awk")] ++ operands
  let arguments := given.zipIdx.foldl
    (fun (e : Elements) a => e.set (.number a.2) (.mixed a.1)) .empty
  let environment := i.environment.foldl
    (fun (e : Elements) v => e.set (.text v.1) (.mixed v.2)) .empty
  { bindings :=
      [text "FS" " ", text "OFS" " ", text "ORS" "\n", text "RS" "\n", text "SUBSEP" "\x1c",
       text "CONVFMT" "%.6g", text "OFMT" "%.6g", text "FILENAME" "", number "NR" 0,
       number "FNR" 0, number "ARGC" given.length]
    frame := #[]
    arrays := [(.global (bytes "ARGV"), arguments), (.global (bytes "ENVIRON"), environment)]
    nextArray := 0
    record := ⟨.text [], none, false, [' ']⟩
    input := none, operand := 1, begun := false, ended := false, sources := []
    targets := [(standardOutput, ⟨1, [], 0, none⟩)], active := [], status := 0
    chance := 88172645463325252, seed := .ofNat 1 }

/-- The text of a script, from files or the first operand, and the operands that are left. -/
def scriptText (i : Invocation) (r : Request) : Task (Except Bytes (Option Bytes × List Bytes)) := do
  if r.files.isEmpty then
    match r.operands with
    | text :: rest => return .ok (some text, rest)
    | [] => return .ok (none, [])
  else
    let rec collect : List Bytes → List Bytes → Task (Except Bytes (List Bytes))
      | [], acc => return .ok acc.reverse
      | name :: rest, acc => do
        match ← Utility.contents i name with
        | .ok data => collect rest (data :: acc)
        | .error f => return .error (bytes "cannot open \"" ++ name ++ bytes "\" (" ++ f.text ++ bytes ")")
    match ← collect r.files.reverse [] with
    | .ok texts => return .ok (some (Bytes.join ['\n'] texts), r.operands)
    | .error m => return .error m

/-- Runs a script that was read, over operands. -/
def runScript (c : Config) (r : Request) (operands : List Bytes) : Task Nat := do
  let setup : Run Unit := do
    match r.separator with
    | some w => Run.setVariable c (bytes "FS") (.text (Token.unescaped (w.length + 1) w))
    | none => pure ()
    for w in r.assignments.reverse do
      match Run.assignment? w with
      | some (name, value) => Run.setVariable c name (Run.givenValue value)
      | none => pure ()
    Run.all c
  let (outcome, s) ← setup.run.run (startMachine c.invocation operands)
  match outcome with
  | .ok () => return s.status
  | .error _ =>
    let _ ← (Run.flushAll c).run.run s
    return 2

end ValueInspector.Shell.Records

namespace ValueInspector.Shell.Utility

open Records in
/-- Runs a script over records. -/
def awk (starter : Starter) : Utility := fun i => do
  let usage := bytes "Usage: mawk [Options] [Program] [file ...]\n"
  let words := operands i
  match Request.read (words.length + 1) ⟨none, [], [], []⟩ words with
  | .error (.unknown w) => refuse i (bytes "not an option: " ++ w) 2
  | .error (.missing l) => refuse i (bytes "option -" ++ [l] ++ bytes " lacks argument") 2
  | .ok .version => put i (bytes "mawk 1.3.4 20240123\n")
  | .ok .help => put i usage
  | .ok (.run r) =>
    match r.assignments.reverse.find? fun w => (Run.assignment? w).isNone with
    | some w => refuse i (bytes "improper assignment: -v " ++ w) 2
    | none =>
      match ← scriptText i r with
      | .error message => refuse i message 2
      | .ok (none, _) =>
        if words.isEmpty then
          let _ ← Task.call (.write 2 usage)
        return 0
      | .ok (some text, rest) =>
        match Script.ofText text with
        | .error message => refuse i (bytes "line 1: " ++ message) 2
        | .ok script => runScript ⟨i, starter, script⟩ r rest

end ValueInspector.Shell.Utility
