import ValueInspector.Shell.Calendar

/-! # Reading dates

Dates as people write them: numbers between dashes, slashes and colons, names of months, days and zones,
and distances such as `2 days ago`. The parts may stand in any order, and each may stand once.
-/
namespace ValueInspector.Shell
namespace Calendar

/-! ## Words -/

inductive TimeUnit where
  | year
  | month
  | day
  | hour
  | minute
  | second
deriving DecidableEq, Repr

inductive Word where
  /-- With how many seconds come after noon or midnight. -/
  | half (afternoon : Bool)
  | month (n : Nat)
  | weekday (n : Nat)
  /-- Seconds east of the first meridian. -/
  | zone (east : Int)
  | summer
  | unit (u : TimeUnit) (factor : Int)
  /-- So many days from now. -/
  | shift (days : Int)
  | ordinal (n : Int)
  | direction (sign : Int)
deriving DecidableEq, Repr

def zones : List (String × Int) :=
  [("GMT", 0), ("UT", 0), ("UTC", 0), ("WET", 0), ("WEST", 1), ("BST", 1), ("CET", 1), ("MET", 1), ("CEST", 2),
   ("MEST", 2), ("EET", 2), ("SAST", 2), ("EEST", 3), ("EAT", 3), ("MSK", 3), ("MSD", 4), ("SGT", 8), ("JST", 9),
   ("NZST", 12), ("NZDT", 13), ("ART", -3), ("BRT", -3), ("BRST", -2), ("AST", -4), ("ADT", -3), ("CLT", -4),
   ("CLST", -3), ("EST", -5), ("EDT", -4), ("CST", -6), ("CDT", -5), ("MST", -7), ("MDT", -6), ("PST", -8),
   ("PDT", -7), ("AKST", -9), ("AKDT", -8), ("HST", -10), ("HAST", -10), ("HADT", -9), ("SST", -11)]

def unitNames : List (String × Word) :=
  [("YEAR", .unit .year 1), ("MONTH", .unit .month 1), ("FORTNIGHT", .unit .day 14), ("WEEK", .unit .day 7),
   ("DAY", .unit .day 1), ("HOUR", .unit .hour 1), ("MINUTE", .unit .minute 1), ("MIN", .unit .minute 1),
   ("SECOND", .unit .second 1), ("SEC", .unit .second 1)]

def relativeNames : List (String × Word) :=
  [("TOMORROW", .shift 1), ("YESTERDAY", .shift (-1)), ("TODAY", .shift 0), ("NOW", .shift 0),
   ("LAST", .ordinal (-1)), ("THIS", .ordinal 0), ("NEXT", .ordinal 1), ("FIRST", .ordinal 1),
   ("THIRD", .ordinal 3), ("FOURTH", .ordinal 4), ("FIFTH", .ordinal 5), ("SIXTH", .ordinal 6),
   ("SEVENTH", .ordinal 7), ("EIGHTH", .ordinal 8), ("NINTH", .ordinal 9), ("TENTH", .ordinal 10),
   ("ELEVENTH", .ordinal 11), ("TWELFTH", .ordinal 12), ("AGO", .direction (-1)), ("HENCE", .direction 1)]

/-- A word by its name; months and days may be cut to three letters, and units may have an `S`. -/
def wordOf? (text : Bytes) : Option Word :=
  let upper := text.map Char.toUpper
  let name := String.ofList upper
  let cut := upper.length = 3 || (upper.length = 4 && upper.getLast? = some '.')
  let start := upper.take 3
  let among (names : List String) : Option Nat :=
    names.findIdx? fun n =>
      let n := n.toList.map Char.toUpper
      n = upper || (cut && n.take 3 = start)
  let other := List.lookup name
    [("SEPT", Word.month 9), ("TUES", .weekday 2), ("WEDNES", .weekday 3), ("THUR", .weekday 4), ("THURS", .weekday 4)]
  let halves := List.lookup name
    [("AM", Word.half false), ("A.M.", .half false), ("PM", .half true), ("P.M.", .half true)]
  let zone := ((zones.lookup name).map fun h => Word.zone (3600 * h)).or
    (if name = "DST" then some .summer else none)
  let single := if name.endsWith "S" then unitNames.lookup (String.ofList upper.dropLast) else none
  let military : Option Word :=
    match upper with
    | [c] =>
      let n : Int := c.toNat
      if 'A' ≤ c && c ≤ 'I' then some (.zone (3600 * (n - 64)))
      else if 'K' ≤ c && c ≤ 'M' then some (.zone (3600 * (n - 65)))
      else if 'N' ≤ c && c ≤ 'Y' then some (.zone (-3600 * (n - 77)))
      else if c = 'Z' || c = 'J' then some (.zone 0)
      else none
    | _ => none
  let unit := (unitNames.lookup name).or (single.or (relativeNames.lookup name))
  halves.or (((among months).map fun k => Word.month (k + 1)).or (((among weekdays).map Word.weekday).or
    (other.or (zone.or (unit.or military)))))

/-! ## Tokens -/

inductive DateToken where
  /-- A number with its sign, if it has one, how many digits it has, and its part after the point. -/
  | number (sign : Option Char) (n digits : Nat) (fraction : Option Bytes)
  | word (w : Word)
  | sign (c : Char)
deriving DecidableEq, Repr

/-- The rest after a comment in parentheses. -/
def afterComment : Nat → Bytes → Bytes
  | _, [] => []
  | depth, c :: rest =>
    if c = '(' then afterComment (depth + 1) rest
    else if c = ')' then (if depth ≤ 1 then rest else afterComment (depth - 1) rest)
    else afterComment depth rest

def tokens : Nat → Bytes → List DateToken → Option (List DateToken)
  | 0, _, _ => none
  | n + 1, cs, acc =>
    match cs with
    | [] => some acc.reverse
    | c :: rest =>
      if Bytes.isSpace c then tokens n rest acc
      else
        let signed := c = '-' || c = '+'
        let start := if signed then rest.dropWhile Bytes.isSpace else cs
        let digits := start.takeWhile Char.isDigit
        if !digits.isEmpty then
          let after := start.drop digits.length
          let (fraction, after) := match after with
            | p :: d :: more =>
              if (p = '.' || p = ',') && d.isDigit then
                let part := (d :: more).takeWhile Char.isDigit
                (some part, (d :: more).drop part.length)
              else (none, p :: d :: more)
            | after => (none, after)
          let token : DateToken :=
            .number (if signed then some c else none) ((Bytes.natural? digits).getD 0) digits.length fraction
          tokens n after (token :: acc)
        else if signed then tokens n start acc
        else if c.isAlpha then
          let word := cs.takeWhile fun d => d.isAlpha || d = '.'
          if word = ['T'] || word = ['t'] then tokens n (cs.drop 1) (.sign 'T' :: acc)
          else
            match wordOf? word with
            | some w => tokens n (cs.drop word.length) (.word w :: acc)
            | none => none
        else if c = '(' then tokens n (afterComment 0 cs) acc
        else tokens n rest (.sign c :: acc)

/-! ## Parts -/

/-- What is known of a date while it is read. -/
structure Sketch where
  date : Option (Option Int × Nat × Nat)
  /-- The day of the week, and which of the next ones. -/
  weekday : Option (Int × Nat)
  /-- Hour, minute, second, nanoseconds, and the half of the day if it was named. -/
  time : Option (Nat × Nat × Nat × Nat × Option Bool)
  east : Option Int
  /-- The year was given in some way. -/
  hasYear : Bool
  moved : Bool
  months : Int
  days : Int
  seconds : Int
  nanos : Int
deriving Repr

namespace Sketch

def blank : Sketch := ⟨none, none, none, none, false, false, 0, 0, 0, 0⟩

def setDate (s : Sketch) (year : Option Int) (month day : Nat) : Option Sketch :=
  if s.date.isSome then none else some { s with date := some (year, month, day), hasYear := year.isSome || s.hasYear }

def setTime (s : Sketch) (h m sec nanos : Nat) (half : Option Bool) : Option Sketch :=
  if s.time.isSome then none else some { s with time := some (h, m, sec, nanos, half) }

def setZone (s : Sketch) (east : Int) : Option Sketch :=
  if s.east.isSome then none else some { s with east := some east }

def setWeekday (s : Sketch) (ordinal : Int) (day : Nat) : Option Sketch :=
  if s.weekday.isSome then none else some { s with weekday := some (ordinal, day) }

def move (s : Sketch) (u : TimeUnit) (n : Int) (nanos : Int) : Sketch :=
  let s := { s with moved := true }
  match u with
  | .year => { s with months := s.months + 12 * n }
  | .month => { s with months := s.months + n }
  | .day => { s with days := s.days + n }
  | .hour => { s with seconds := s.seconds + 3600 * n }
  | .minute => { s with seconds := s.seconds + 60 * n }
  | .second => { s with seconds := s.seconds + n, nanos := s.nanos + nanos }

end Sketch

/-- A year as it was written: two digits stand for a year of this century or of the last one. -/
def yearOf (n digits : Nat) : Int := if digits = 2 then (if n < 69 then n + 2000 else n + 1900) else n

/-- A fraction in nanoseconds. -/
def nanosOf (digits : Bytes) : Nat :=
  (Bytes.natural? ((digits.take 9) ++ List.replicate (9 - digits.length) '0')).getD 0

/-- The distance of a zone from the digits after its sign, and from minutes after a colon. -/
def zoneDistance (sign : Char) (n digits : Nat) (minutes : Option Nat) : Option Int :=
  let (h, m) := match minutes with
    | some m => (n, m)
    | none => if digits ≤ 2 then (n, 0) else (n / 100, n % 100)
  let all : Int := 3600 * h + 60 * m
  if 24 * 3600 < all then none else some (if sign = '-' then -all else all)

/-- A zone behind a time. -/
def zoneAfter (s : Sketch) : List DateToken → Option (Sketch × List DateToken)
  | .number (some sign) n digits none :: .sign ':' :: .number none m _ none :: rest => do
    let east ← zoneDistance sign n digits (some m)
    return (← s.setZone east, rest)
  | .number (some sign) n digits none :: rest => do
    let east ← zoneDistance sign n digits none
    return (← s.setZone east, rest)
  | rest => some (s, rest)

/-- A time at the front. -/
def timeAt? (s : Sketch) : List DateToken → Option (Option (Sketch × List DateToken))
  | .number none h _ none :: .sign ':' :: .number none m _ none :: .sign ':' :: .number none sec _ f :: rest =>
    match rest with
    | .word (.half p) :: rest => (s.setTime h m sec (nanosOf (f.getD [])) (some p)).map fun s => some (s, rest)
    | rest => do return some (← zoneAfter (← s.setTime h m sec (nanosOf (f.getD [])) none) rest)
  | .number none h _ none :: .sign ':' :: .number none m _ none :: rest =>
    match rest with
    | .word (.half p) :: rest => (s.setTime h m 0 0 (some p)).map fun s => some (s, rest)
    | rest => do return some (← zoneAfter (← s.setTime h m 0 0 none) rest)
  | .number none h _ none :: .word (.half p) :: rest => (s.setTime h 0 0 0 (some p)).map fun s => some (s, rest)
  | .number none _ _ none :: .number (some _) _ _ _ :: .word (.unit _ _) :: _ => some none
  | .number none h _ none :: .number (some sign) n digits none :: rest => do
    return some (← zoneAfter (← s.setTime h 0 0 0 none) (.number (some sign) n digits none :: rest))
  | _ => some none

/-- A date at the front. -/
def dateAt? (s : Sketch) : List DateToken → Option (Option (Sketch × List DateToken))
  | .number none a da none :: .sign '/' :: .number none b _ none :: .sign '/' :: .number none c dc none :: rest =>
    if 4 ≤ da then (s.setDate (some a) b c).map fun s => some (s, rest)
    else (s.setDate (some (yearOf c dc)) a b).map fun s => some (s, rest)
  | .number none a _ none :: .sign '/' :: .number none b _ none :: rest =>
    (s.setDate none a b).map fun s => some (s, rest)
  | .number none d _ none :: .word (.month m) :: .number (some '-') y dy none :: rest =>
    (s.setDate (some (yearOf y dy)) m d).map fun s => some (s, rest)
  | .word (.month m) :: .number (some '-') d _ none :: .number (some '-') y dy none :: rest =>
    (s.setDate (some (yearOf y dy)) m d).map fun s => some (s, rest)
  | .word (.month m) :: .number none d _ none :: .sign ',' :: .number none y dy none :: rest =>
    (s.setDate (some (yearOf y dy)) m d).map fun s => some (s, rest)
  | .word (.month _) :: .number none _ _ none :: .sign ':' :: _ => none
  | .word (.month m) :: .number none d _ none :: rest => (s.setDate none m d).map fun s => some (s, rest)
  | .number none d _ none :: .word (.month m) :: .number none y dy none :: .sign ':' :: rest =>
    (s.setDate none m d).map fun s => some (s, .number none y dy none :: .sign ':' :: rest)
  | .number none d _ none :: .word (.month m) :: .number none y dy none :: rest =>
    (s.setDate (some (yearOf y dy)) m d).map fun s => some (s, rest)
  | .number none d _ none :: .word (.month m) :: rest => (s.setDate none m d).map fun s => some (s, rest)
  | .number none y dy none :: .number (some '-') m _ none :: .number (some '-') d _ none :: rest => do
    let s ← s.setDate (some (yearOf y dy)) m d
    match rest with
    | .sign 'T' :: rest =>
      match ← timeAt? s rest with
      | some found => return some found
      | none => failure
    | rest => return some (s, rest)
  | _ => some none

/-- A distance in time after its number, and the direction behind it. -/
def distanceAt (s : Sketch) (n nanos : Int) (u : TimeUnit) (f : Int) :
    List DateToken → Sketch × List DateToken
  | .word (.direction d) :: rest => (s.move u (n * f * d) (nanos * f * d), rest)
  | rest => (s.move u (n * f) (nanos * f), rest)

/-- Any one part at the front. -/
def partAt (s : Sketch) (ts : List DateToken) : Option (Sketch × List DateToken) := do
  match ← dateAt? s ts with
  | some found => return found
  | none =>
    match ← timeAt? s ts with
    | some found => return found
    | none =>
      match ts with
      | .sign 'T' :: rest => return (← s.setZone (-7 * 3600), rest)
      | .word (.zone east) :: .word .summer :: rest => return (← s.setZone (east + 3600), rest)
      | .word (.zone east) :: .number (some sign) n digits none :: .word (.unit u f) :: rest =>
        return (← s.setZone east, .number (some sign) n digits none :: .word (.unit u f) :: rest)
      | .word (.zone east) :: .number (some sign) n digits none :: .sign ':' :: .number none m _ none :: rest =>
        return (← s.setZone (east + (← zoneDistance sign n digits (some m))), rest)
      | .word (.zone east) :: .number (some sign) n digits none :: rest =>
        return (← s.setZone (east + (← zoneDistance sign n digits none)), rest)
      | .word (.zone east) :: rest => return (← s.setZone east, rest)
      | .word (.weekday d) :: .sign ',' :: rest => return (← s.setWeekday 0 d, rest)
      | .word (.weekday d) :: rest => return (← s.setWeekday 0 d, rest)
      | .word (.ordinal k) :: .word (.weekday d) :: rest => return (← s.setWeekday k d, rest)
      | .number none n _ none :: .word (.weekday d) :: rest => return (← s.setWeekday n d, rest)
      | .word (.ordinal k) :: .word (.unit u f) :: rest => return distanceAt s k 0 u f rest
      | .word (.unit u f) :: rest => return distanceAt s 1 0 u f rest
      | .word (.shift days) :: rest => return (s.move .day days 0, rest)
      | .number sign n _ fraction :: .word (.unit u f) :: rest =>
        if fraction.isSome && u ≠ .second then failure
        else
          let direction : Int := if sign = some '-' then -1 else 1
          return distanceAt s (direction * n) (direction * nanosOf (fraction.getD [])) u f rest
      | .number none n digits none :: rest =>
        if s.date.isSome && !s.hasYear && !s.moved && (s.time.isSome || 2 < digits) then
          let date := s.date.map fun d => (some (yearOf n digits), d.2.1, d.2.2)
          return ({ s with date, hasYear := true }, rest)
        else if 4 < digits then
          return (← s.setDate (some (yearOf (n / 10000) (digits - 4))) (n / 100 % 100) (n % 100), rest)
        else if digits ≤ 2 then return (← zoneAfter (← s.setTime n 0 0 0 none) rest)
        else return (← zoneAfter (← s.setTime (n / 100) (n % 100) 0 0 none) rest)
      | _ => failure

/-- All parts. -/
def sketch : Nat → List DateToken → Sketch → Option Sketch
  | 0, _, _ => none
  | _, [], s => some s
  | n + 1, ts, s => do
    let (s, rest) ← partAt s ts
    sketch n rest s

/-! ## The date -/

/-- The hour of the day of an hour in one half of it. -/
def hourOf (h : Nat) : Option Bool → Option Nat
  | none => if h < 24 then some h else none
  | some afternoon => if h < 1 || 12 < h then none else some (h % 12 + if afternoon then 12 else 0)

/-- The seconds and nanoseconds of a sketch, seen from now. -/
def instantOf (now : Moment) (s : Sketch) : Option (Int × Nat) := do
  let (year, month, day) := match s.date with
    | some (y, m, d) => (y.getD now.year, m, d)
    | none => (now.year, now.month, now.day)
  if month < 1 || 12 < month || day < 1 || daysInMonth year month < day then failure
  let (time, nanos) ← match s.time with
    | some (h, m, sec, nanos, half) =>
      match hourOf h half with
      | some h => if m < 60 && sec < 60 then some (h * 3600 + m * 60 + sec, nanos) else none
      | none => none
    | none =>
      if s.moved && s.date.isNone && s.weekday.isNone then some (now.time, now.nanos) else some (0, 0)
  let days := daysOf year month day
  let (year, month, day) := match s.weekday with
    | some (ordinal, wanted) =>
      if s.date.isSome then (year, month, day)
      else
        let weekday := ((days + 4) % 7).toNat
        let late : Int := if 0 < ordinal && weekday ≠ wanted then 1 else 0
        dateOf (days + ((wanted + 7 - weekday) % 7 : Nat) + 7 * (ordinal - late))
    | none => (year, month, day)
  let days := daysOf year (month + s.months) (day + s.days)
  let all := (days * secondsPerDay + time + s.seconds - s.east.getD now.east) * 1000000000 + nanos + s.nanos
  return (all / 1000000000, (all % 1000000000).toNat)

/-- Reads a date, seen from now. A number after an at sign counts seconds. -/
def read? (now : Moment) (text : Bytes) : Option (Int × Nat) :=
  match text.dropWhile Bytes.isSpace with
  | '@' :: rest =>
    match tokens (rest.length + 1) rest [] with
    | some [.number sign n _ fraction] =>
      let all : Int := n * 1000000000 + nanosOf (fraction.getD [])
      let all := if sign = some '-' then -all else all
      some (all / 1000000000, (all % 1000000000).toNat)
    | _ => none
  | _ => do
    let ts ← tokens (text.length + 1) text []
    let s ← sketch (ts.length + 1) ts .blank
    instantOf now (if ts.isEmpty then { s with time := some (0, 0, 0, 0, none) } else s)

end Calendar
end ValueInspector.Shell
