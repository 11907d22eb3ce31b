import ValueInspector.Shell.Digest
import ValueInspector.Shell.Utility.Basic

/-! # Utilities that tell files apart by short numbers -/
namespace ValueInspector.Shell.Utility

/-- A kind of digest: its name, how many digits it has, and the digest of a text. -/
structure DigestKind where
  name : String
  digits : Nat
  digest : Bytes → Bytes

def digestKinds : List (String × DigestKind) :=
  [("md5", ⟨"MD5", 32, Digest.md5⟩), ("sha1", ⟨"SHA1", 40, Digest.sha1⟩),
   ("sha224", ⟨"SHA224", 56, Digest.sha224⟩), ("sha256", ⟨"SHA256", 64, Digest.sha256⟩),
   ("sha384", ⟨"SHA384", 96, Digest.sha384⟩), ("sha512", ⟨"SHA512", 128, Digest.sha512⟩)]

/-- Shows something about each file, with a complaint about those that cannot be read. -/
def eachFile (i : Invocation) (names : List Bytes) (row : Bytes → Bytes → Bytes) : Task Nat := do
  let statuses ← (if names.isEmpty then [['-']] else names).mapM fun name => do
    match ← contents i name with
    | .ok data => put i (row name data)
    | .error f => refuse i (quoteName name ++ bytes ": " ++ f.text) 1
  return statuses.foldl max 0

/-- A line with a digest and a name. -/
def digestRow (k : DigestKind) (tagged zero : Bool) (name data : Bytes) : Bytes :=
  let digest := k.digest data
  let stop := if zero then [Char.ofNat 0] else ['\n']
  if tagged then bytes k.name ++ bytes " (" ++ name ++ bytes ") = " ++ digest ++ stop
  else digest ++ bytes "  " ++ name ++ stop

/-- A digest and a name from a line of a list. -/
def listed? (k : DigestKind) (line : Bytes) : Option (Bytes × Bytes) :=
  match Bytes.after? (bytes k.name ++ bytes " (") line with
  | some rest =>
    let tail := rest.reverse.take (k.digits + 4)
    let name := rest.take (rest.length - tail.length)
    (Bytes.after? (bytes ") = ") tail.reverse).map fun digest => (digest, name)
  | none =>
    let digest := line.takeWhile fun c => (Text.digitValue? 16 c).isSome
    match line.drop digest.length with
    | ' ' :: _ :: name =>
      if digest.length = k.digits && !name.isEmpty then some (digest.map Char.toLower, name) else none
    | _ => none

/-- What checking a list of digests came to. -/
structure CheckCount where
  wellFormed : Nat
  malformed : Nat
  different : Nat
  unreadable : Nat

/-- Checks the files of a list against their digests. -/
def checkList (i : Invocation) (k : DigestKind) (o : Options) (name : Bytes) : Task Nat := do
  match ← contents i name with
  | .error f => refuse i (quoteName name ++ bytes ": " ++ f.text) 1
  | .ok data =>
    let rec go : List Bytes → CheckCount → Task CheckCount
      | [], n => return n
      | line :: rest, n => do
        match listed? k line with
        | none => go rest { n with malformed := n.malformed + 1 }
        | some (digest, file) =>
          let n := { n with wellFormed := n.wellFormed + 1 }
          match ← contents i file with
          | .error f =>
            if f = .missing && o.has "ignore-missing" then go rest n
            else
              complain i (quoteName file ++ bytes ": " ++ f.text)
              let _ ← if o.has "status" then pure 0 else put i (file ++ bytes ": FAILED open or read\n")
              go rest { n with unreadable := n.unreadable + 1 }
          | .ok found =>
            let same := k.digest found = digest
            let silent := o.has "status" || (same && o.has "quiet")
            let _ ← if silent then pure 0
              else put i (file ++ bytes (if same then ": OK\n" else ": FAILED\n"))
            go rest (if same then n else { n with different := n.different + 1 })
    let n ← go (Bytes.lines data) ⟨0, 0, 0, 0⟩
    if n.wellFormed = 0 then
      refuse i (quoteName name ++ bytes ": no properly formatted checksum lines found") 1
    else
      unless o.has "status" do
        let warn (count : Nat) (one many : String) : Task Unit :=
          if count = 0 then pure ()
          else complain i (bytes "WARNING: " ++ Bytes.ofNat count ++ bytes (if count = 1 then one else many))
        warn n.malformed " line is improperly formatted" " lines are improperly formatted"
        warn n.unreadable " listed file could not be read" " listed files could not be read"
        warn n.different " computed checksum did NOT match" " computed checksums did NOT match"
      return if n.different = 0 && n.unreadable = 0 && (n.malformed = 0 || !o.has "strict") then 0 else 1

def digestUtility (name : String) (k : DigestKind) : Utility :=
  let manual : Manual :=
    { usage := " [OPTION]... [FILE]...", version := versionOf name
      options :=
        ["b,binary", "c,check", "ignore-missing", "quiet", "status", "strict", "t,text", "tag", "w,warn",
         "z,zero"]
      mixed := true, trouble := 1 }
  withOptions manual fun o rest i => do
    if o.has "c" then
      let statuses ← (if rest.isEmpty then [['-']] else rest).mapM (checkList i k o)
      return statuses.foldl max 0
    else
      eachFile i rest fun name data =>
        let row := digestRow k (o.has "tag") (o.has "z") name data
        if o.has "b" && !o.has "tag" then row.take (k.digits + 1) ++ '*' :: row.drop (k.digits + 2) else row

/-- The name of a file after its numbers; none for standard input. -/
def nameAfter (given : Bool) (name : Bytes) : Bytes := if given then ' ' :: name else []

def cksum : Utility :=
  let manual : Manual :=
    { usage := " [OPTION]... [FILE]...", version := versionOf "cksum"
      options :=
        ["a,algorithm=", "base64", "c,check", "l,length=", "raw", "tag", "untagged", "z,zero",
         "ignore-missing", "quiet", "status", "strict", "w,warn", "debug"]
      mixed := true, trouble := 1 }
  withOptions manual fun o rest i => do
    let crc (name data : Bytes) : Bytes :=
      Bytes.ofNat (Digest.cyclic data).toNat ++ ' ' :: Bytes.ofNat data.length ++
        nameAfter (!rest.isEmpty) name ++ ['\n']
    match o.value? "a" with
    | none => eachFile i rest crc
    | some name =>
      if name = bytes "crc" then eachFile i rest crc
      else
        match digestKinds.lookup (String.ofList name) with
        | some k => eachFile i rest (digestRow k (!o.has "untagged") (o.has "z"))
        | none => refuseUse i (bytes "invalid argument " ++ quoted name ++ bytes " for '--algorithm'") 1

def sum : Utility :=
  withOptions ⟨" [OPTION]... [FILE]...", versionOf "sum", ["r", "s,sysv"], true, 1⟩ fun o rest i =>
    eachFile i rest fun name data =>
      if o.last? ["r", "s"] = some "s" then
        Bytes.ofNat (Digest.plain data) ++ ' ' :: Bytes.ofNat ((data.length + 511) / 512) ++
          nameAfter (!rest.isEmpty) name ++ ['\n']
      else
        let total := Bytes.ofNat (Digest.turned data)
        let size := Bytes.ofNat ((data.length + 1023) / 1024)
        List.replicate (5 - total.length) '0' ++ total ++ ' ' :: List.replicate (5 - size.length) ' ' ++
          size ++ nameAfter (!rest.isEmpty) name ++ ['\n']

end ValueInspector.Shell.Utility
