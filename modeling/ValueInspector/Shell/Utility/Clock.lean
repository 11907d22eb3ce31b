import ValueInspector.Shell.Calendar.Reader
import ValueInspector.Shell.Utility.Basic

/-! # The date

`date` writes the current date, a date that is told in words, or the one when a file was changed.
-/
namespace ValueInspector.Shell.Utility

/-! ## Zones -/

/-- Hours, and minutes and seconds after colons. -/
def clockDistance (text : Bytes) : Int :=
  let parts := (text.splitOn ':').map fun w => (Bytes.natural? w).getD 0
  match parts with
  | h :: rest => (3600 * h + 60 * rest.head?.getD 0 + rest[1]?.getD 0 : Nat)
  | [] => 0

/-- The zone that a variable describes: its name, and how many seconds west it is. -/
def zoneOf (text : Option Bytes) : Bytes × Int :=
  let usual : Bytes × Int := (bytes "UTC", 0)
  match text with
  | none => usual
  | some text =>
    let text := if text.head? = some ':' then text.drop 1 else text
    let (name, rest) := match text with
      | '<' :: more =>
        let name := more.takeWhile (· ≠ '>')
        (name, more.drop (name.length + 1))
      | _ =>
        let name := text.takeWhile Char.isAlpha
        (name, text.drop name.length)
    if name.length < 3 then (if text.isEmpty then usual else ([], 0))
    else
      let (sign, rest) : Int × Bytes := match rest with
        | '-' :: more => (1, more)
        | '+' :: more => (-1, more)
        | more => (-1, more)
      let digits := rest.takeWhile fun c => c.isDigit || c = ':'
      (name, sign * clockDistance digits)

/-! ## Formats -/

def isoFormats : List (String × String) :=
  [("hours", "%Y-%m-%dT%H%:z"), ("minutes", "%Y-%m-%dT%H:%M%:z"), ("date", "%Y-%m-%d"),
   ("seconds", "%Y-%m-%dT%H:%M:%S%:z"), ("ns", "%Y-%m-%dT%H:%M:%S,%N%:z")]

def dateFormats : List (String × String) :=
  [("date", "%Y-%m-%d"), ("seconds", "%Y-%m-%d %H:%M:%S%:z"), ("ns", "%Y-%m-%d %H:%M:%S.%N%:z")]

/-- The formats that options ask for. -/
def dateFormatsOf (o : Options) : Except Bytes (List Bytes) :=
  o.found.filterMapM fun f =>
    match f.1 with
    | "R" => .ok (some (bytes "%a, %d %b %Y %H:%M:%S %z"))
    | "I" =>
      if f.2.isEmpty then .ok (some (bytes "%Y-%m-%d"))
      else (choose "--iso-8601" (isoFormats.map (·.1)) f.2).map fun k => (isoFormats.lookup k).map bytes
    | "rfc-3339" =>
      (choose "--rfc-3339" (dateFormats.map (·.1)) f.2).map fun k => (dateFormats.lookup k).map bytes
    | _ => .ok none

/-- The largest distance from 1970 in seconds that has a year. -/
def dateLimit : Nat := 67767976233532799

/-- Writes dates. -/
def date : Utility :=
  let manual : Manual :=
    { usage := " [OPTION]... [+FORMAT]", version := versionOf "date"
      options :=
        ["d,date=", "debug", "f,file=", "I,iso-8601[=]", "resolution", "r,reference=", "R,rfc-email,rfc-822,rfc-2822",
         "rfc-3339=", "s,set=", "u,utc,uct,universal"]
      mixed := true, trouble := 1 }
  withOptions manual fun o rest i => do
    let now ← Task.call .clock
    let (zone, east) := if o.has "u" then (bytes "UTC", 0) else zoneOf (i.environment.lookup (bytes "TZ"))
    let moment (t : Int × Nat) : Moment := Calendar.momentOf t.1 t.2 zone east
    let current := moment (Calendar.startSeconds + now / 1000000, now % 1000000 * 1000)
    let told := ["d", "f", "r", "resolution"].filter o.has
    match dateFormatsOf o with
    | .error message => refuseUse i message 1
    | .ok formats =>
      let operand := rest.head?.filter fun w => w.head? = some '+'
      let formats := formats ++ (operand.map fun w => w.drop 1).toList
      if 1 < told.length then
        refuseUse i (bytes "the options to specify dates for printing are mutually exclusive") 1
      else if !told.isEmpty && o.has "s" then
        refuseUse i (bytes "the options to print and set the time may not be used together") 1
      else
        match rest with
        | _ :: extra :: _ => refuseUse i (bytes "extra operand " ++ quoted extra) 1
        | _ =>
          match rest.find? fun w => w.head? ≠ some '+' with
          | some w =>
            if told.isEmpty && !o.has "s" then refuse i (bytes "invalid date " ++ quoted w) 1
            else
              let rule := " lacks a leading '+';\nwhen using an option to specify date(s), any non-option\n" ++
                "argument must be a format string beginning with '+'"
              refuseUse i (bytes "the argument " ++ quoted w ++ bytes rule) 1
          | none =>
            if 1 < formats.length then refuse i (bytes "multiple output formats specified") 1
            else if o.has "resolution" then put i (bytes "0.000000001\n")
            else
              let format := formats.head?.getD (bytes "%a %b %e %H:%M:%S %Z %Y")
              let line (m : Moment) : Bytes := Calendar.format m true format ++ ['\n']
              let shown (text : Bytes) (status : Nat) : Task Nat :=
                match Calendar.read? current text with
                | some t =>
                  if dateLimit < t.1.natAbs then
                    refuse i (bytes "time " ++ quoted (Bytes.ofInt t.1) ++ bytes " is out of range") 1
                  else do return max status (← put i (line (moment t)))
                | none => refuse i (bytes "invalid date " ++ quoted text) 1
              match o.value? "s", o.value? "f", o.value? "r" with
              | some text, _, _ =>
                if (Calendar.read? current text).isSome then complain i (bytes "cannot set date: Operation not permitted")
                let _ ← shown text 1
                return 1
              | none, some name, _ => do
                match ← contents i name with
                | .error f => refuse i (name ++ bytes ": " ++ f.text) 1
                | .ok data =>
                  let rec each : List Bytes → Nat → Task Nat
                    | [], status => return status
                    | l :: rest, status => do
                      let k ← shown l 0
                      each rest (max status k)
                  each (Bytes.lines data) 0
              | none, none, some name => do
                match ← Task.call (.inspect true (pathOf i name)) with
                | .error f => refuse i (name ++ bytes ": " ++ f.text) 1
                | .ok info =>
                  put i (line (moment (Calendar.startSeconds + info.changed / 1000000, info.changed % 1000000 * 1000)))
              | none, none, none =>
                match o.value? "d" with
                | some text => shown text 0
                | none => put i (line current)

end ValueInspector.Shell.Utility
