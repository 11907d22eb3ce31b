import ValueInspector.Shell.Bytes

/-! # The calendar

Seconds since the start of 1970 and the dates of the Gregorian calendar that they are, and dates written
by a format in which a percent sign stands before a letter for each part.
-/
namespace ValueInspector.Shell

/-- A date with the time of day, in a zone that is so many seconds east. -/
structure Moment where
  year : Int
  month : Nat
  day : Nat
  /-- Seconds since midnight. -/
  time : Nat
  nanos : Nat
  /-- The days since Sunday, and since the start of the year. -/
  weekday : Nat
  yearday : Nat
  seconds : Int
  zone : Bytes
  east : Int
deriving Repr

namespace Calendar

/-- When a run begins. -/
def startSeconds : Nat := 1750000000

/-! ## Days -/

/-- The days from the start of 1970 to a date. Months and days may lie outside their bounds. -/
def daysOf (year : Int) (month : Int) (day : Int) : Int :=
  let months := year * 12 + (month - 1)
  -- years begin in March, so that a day that is put in comes last
  let shifted := months - 2
  let y := shifted / 12
  let m := shifted % 12
  365 * y + y / 4 - y / 100 + y / 400 + (153 * m + 2) / 5 + (day - 1) - 719468

/-- The date that is so many days after the start of 1970. -/
def dateOf (days : Int) : Int × Nat × Nat :=
  let z := days + 719468
  let era := z / 146097
  let inEra := z % 146097
  let y := (inEra - inEra / 1460 + inEra / 36524 - inEra / 146096) / 365
  let inYear := inEra - (365 * y + y / 4 - y / 100)
  let m := (5 * inYear + 2) / 153
  let day := inYear - (153 * m + 2) / 5 + 1
  let month := if m < 10 then m + 3 else m - 9
  (y + era * 400 + (if month ≤ 2 then 1 else 0), month.toNat, day.toNat)

def isLeap (year : Int) : Bool := year % 4 = 0 && (year % 100 ≠ 0 || year % 400 = 0)

def daysInMonth (year : Int) (month : Nat) : Nat :=
  if month = 2 then (if isLeap year then 29 else 28)
  else if month = 4 || month = 6 || month = 9 || month = 11 then 30 else 31

def secondsPerDay : Nat := 86400

/-- The date at so many seconds after the start of 1970. -/
def momentOf (seconds : Int) (nanos : Nat) (zone : Bytes) (east : Int) : Moment :=
  let here := seconds + east
  let days := here / secondsPerDay
  let (year, month, day) := dateOf days
  { year, month, day, time := (here % secondsPerDay).toNat, nanos
    weekday := ((days + 4) % 7).toNat, yearday := (days - daysOf year 1 1).toNat
    seconds, zone, east }

/-! ## Weeks -/

/-- The week of the year if weeks begin with a day and those before the first such day are week zero. -/
def weekFrom (m : Moment) (first : Nat) : Nat := (m.yearday + 7 - (m.weekday + 7 - first) % 7) / 7

/-- The year and week to which a day belongs if weeks begin on Mondays and the first one has a Thursday. -/
def weekOfYear (m : Moment) : Int × Nat :=
  let sinceMonday := (m.weekday + 6) % 7
  -- the Thursday of the week decides
  let thursday : Int := m.yearday - sinceMonday + 3
  let length (y : Int) : Int := if isLeap y then 366 else 365
  if thursday < 0 then (m.year - 1, ((thursday + length (m.year - 1)) / 7 + 1).toNat)
  else if length m.year ≤ thursday then (m.year + 1, 1)
  else (m.year, (thursday / 7 + 1).toNat)

/-! ## Names -/

def weekdays : List String :=
  ["Sunday", "Monday", "Tuesday", "Wednesday", "Thursday", "Friday", "Saturday"]

def months : List String :=
  ["January", "February", "March", "April", "May", "June", "July", "August", "September", "October",
   "November", "December"]

def weekdayName (m : Moment) : Bytes := bytes (weekdays[m.weekday]?.getD "?")
def monthName (m : Moment) : Bytes := bytes (months[m.month - 1]?.getD "?")

/-! ## Formats -/

/-- What stands between a percent sign and its letter. -/
structure Directive where
  pad : Option Char
  width : Option Nat
  capitals : Bool
  swapped : Bool
  colons : Nat

namespace Directive

def plain : Directive := ⟨none, none, false, false, 0⟩

/-- Fills up to the width. A sign stands before zeros and after blanks. -/
def fill (d : Directive) (width : Nat) (usual : Char) (sign text : Bytes) : Bytes :=
  let pad := d.pad.getD usual
  let missing := d.width.getD width - (sign.length + text.length)
  if pad = '-' then sign ++ text
  else if pad = '_' then List.replicate missing ' ' ++ sign ++ text
  else sign ++ List.replicate missing '0' ++ text

def number (d : Directive) (width : Nat) (usual : Char) (n : Int) : Bytes :=
  let sign := if n < 0 then ['-'] else
    if d.pad = some '+' && (d.width.any (width < ·) || width < (Bytes.ofNat n.natAbs).length) then ['+']
    else []
  d.fill width usual sign (Bytes.ofNat n.natAbs)

def text (d : Directive) (t : Bytes) : Bytes :=
  let t := if d.capitals then t.map Char.toUpper else t
  match d.pad with
  | some '-' => t
  | some '0' | some '+' => List.replicate (d.width.getD 0 - t.length) '0' ++ t
  | _ => List.replicate (d.width.getD 0 - t.length) ' ' ++ t

/-- The distance of a zone, with as many parts as colons say. -/
def distance (d : Directive) (east : Int) : Bytes :=
  let sign := if east < 0 then ['-'] else ['+']
  let all := east.natAbs
  let (h, m, s) := (all / 3600, all / 60 % 60, all % 60)
  let two (n : Nat) : Bytes := Directive.plain.number 2 '0' n
  match d.colons with
  | 0 => d.fill 5 '0' sign (Bytes.ofNat (h * 100 + m))
  | 1 => d.fill 6 '0' sign (Bytes.ofNat h ++ ':' :: two m)
  | 2 => d.fill 9 '0' sign (Bytes.ofNat h ++ ':' :: two m ++ ':' :: two s)
  | _ =>
    if s ≠ 0 then d.fill 9 '0' sign (Bytes.ofNat h ++ ':' :: two m ++ ':' :: two s)
    else if m ≠ 0 then d.fill 6 '0' sign (Bytes.ofNat h ++ ':' :: two m)
    else d.fill 3 '0' sign (Bytes.ofNat h)

end Directive

/-- The part of a second in as many digits as the width says. -/
def fraction (d : Directive) (nanos : Nat) : Bytes :=
  let nine := Directive.plain.fill 9 '0' [] (Bytes.ofNat nanos)
  match d.pad with
  | some '-' => nine
  | pad =>
    let width := d.width.getD 9
    let shown := nine.take width
    if pad = some '_' then
      let kept := (shown.reverse.dropWhile (· = '0')).reverse
      let kept := if kept.isEmpty then shown.take 1 else kept
      kept ++ List.replicate (width - kept.length) ' '
    else shown ++ List.replicate (width - shown.length) '0'

/-- What a letter stands for. Fractions of seconds are known to those who ask for them. -/
def part? (m : Moment) (fractions : Bool) (d : Directive) (letter : Char) : Option Bytes :=
  let plain := Directive.plain
  let hour := m.time / 3600
  let twelve := (hour + 11) % 12 + 1
  let two (n : Nat) : Bytes := plain.number 2 '0' n
  let clock : Bytes := two hour ++ ':' :: two (m.time / 60 % 60)
  let seconds : Bytes := two (m.time % 60)
  let name (t : Bytes) : Bytes := { d with capitals := d.capitals || d.swapped }.text t
  let short (t : Bytes) : Bytes := name (t.take 3)
  let day := two m.day
  let month := two m.month
  let inCentury := (m.year % 100).toNat
  let half (a b : String) : Bytes := bytes (if hour < 12 then a else b)
  let (weekYear, week) := weekOfYear m
  let century := m.year / 100
  match letter with
  | '%' => some ['%']
  | 'n' => some (d.text ['\n'])
  | 't' => some (d.text ['\t'])
  | 'a' => some (short (weekdayName m))
  | 'A' => some (name (weekdayName m))
  | 'b' | 'h' => some (short (monthName m))
  | 'B' => some (name (monthName m))
  | 'c' =>
    some (d.text ((weekdayName m).take 3 ++ ' ' :: (monthName m).take 3 ++ ' ' :: plain.number 2 '_' m.day ++
      ' ' :: clock ++ ':' :: seconds ++ ' ' :: Bytes.ofInt m.year))
  | 'C' => some (d.number 2 '0' century)
  | 'd' => some (d.number 2 '0' m.day)
  | 'D' | 'x' => some (d.text (month ++ '/' :: day ++ '/' :: two inCentury))
  | 'e' => some (d.number 2 '_' m.day)
  | 'F' =>
    let year : Directive :=
      { d with
        pad := if d.width.isNone then d.pad.or (some '+') else d.pad
        width := some (max 4 ((d.width.getD 0) - 6)) }
    some (year.number 4 '0' m.year ++ '-' :: month ++ '-' :: day)
  | 'g' => some (d.number 2 '0' (weekYear % 100))
  | 'G' => some (d.number 4 '0' weekYear)
  | 'H' => some (d.number 2 '0' hour)
  | 'I' => some (d.number 2 '0' twelve)
  | 'j' => some (d.number 3 '0' (m.yearday + 1))
  | 'k' => some (d.number 2 '_' hour)
  | 'l' => some (d.number 2 '_' twelve)
  | 'm' => some (d.number 2 '0' m.month)
  | 'M' => some (d.number 2 '0' (m.time / 60 % 60))
  | 'N' => if fractions then some (fraction d m.nanos) else none
  | 'p' => some (d.text (if d.swapped && !d.capitals then half "am" "pm" else half "AM" "PM"))
  | 'P' => some (d.text (half "am" "pm"))
  | 'q' => if fractions then some (d.number 1 '0' ((m.month - 1) / 3 + 1)) else none
  | 'r' => some (d.text (two twelve ++ ':' :: two (m.time / 60 % 60) ++ ':' :: seconds ++ ' ' :: half "AM" "PM"))
  | 'R' => some (d.text clock)
  | 's' => some (d.number 1 '0' m.seconds)
  | 'S' => some (d.number 2 '0' (m.time % 60))
  | 'T' | 'X' => some (d.text (clock ++ ':' :: seconds))
  | 'u' => some (d.number 1 '0' ((m.weekday + 6) % 7 + 1))
  | 'U' => some (d.number 2 '0' (weekFrom m 0))
  | 'V' => some (d.number 2 '0' week)
  | 'w' => some (d.number 1 '0' m.weekday)
  | 'W' => some (d.number 2 '0' (weekFrom m 1))
  | 'y' => some (d.number 2 '0' inCentury)
  | 'Y' => some (d.number 4 '0' m.year)
  | 'z' => some (d.distance m.east)
  | 'Z' => some (d.text (if d.swapped && !d.capitals then m.zone.map Char.toLower else m.zone))
  | _ => none

/-- Flags, a width, and marks before a letter. -/
def directive (cs : Bytes) : Directive × Bytes :=
  let flags := cs.takeWhile (· ∈ "_-0+^#".toList)
  let cs := cs.drop flags.length
  let width := cs.takeWhile Char.isDigit
  let cs := cs.drop width.length
  let colons := cs.takeWhile (· = ':')
  let cs := cs.drop colons.length
  let pad := (flags.reverse.find? (· ∈ "_-0+".toList))
  (⟨pad, Bytes.natural? width, '^' ∈ flags, '#' ∈ flags, colons.length⟩, cs)

/-- Letters that another way of writing may be asked for with `E` or with `O` before them. -/
def mayVary (mark letter : Char) : Bool :=
  if mark = 'E' then letter ∈ "cCxXyY".toList else letter ∈ "deHIklmMuUVwWyS".toList

/-- Writes a date by a format. What stands for nothing is left as it is. -/
def written (m : Moment) (fractions : Bool) : Nat → Bytes → Bytes
  | 0, _ => []
  | n + 1, cs =>
    match cs with
    | [] => []
    | '%' :: rest =>
      let (d, after) := directive rest
      let (letter?, after) := match after with
        | mark :: letter :: more =>
          if (mark = 'E' || mark = 'O') && mayVary mark letter then (some letter, more)
          else (some mark, letter :: more)
        | [letter] => (some letter, [])
        | [] => (none, [])
      let part := letter?.bind fun c =>
        if d.colons = 0 || (c = 'z' && fractions && d.colons < 4) then part? m fractions d c else none
      match part with
      | some text => text ++ written m fractions n after
      | none =>
        let source := '%' :: rest.take (rest.length - after.length)
        { d with capitals := false, pad := none }.text source ++ written m fractions n after
    | c :: rest => c :: written m fractions n rest

/-- Writes a date by a format. -/
def format (m : Moment) (fractions : Bool) (text : Bytes) : Bytes := written m fractions text.length text

end Calendar
end ValueInspector.Shell
