import ValueInspector.Shell.Bytes

/-! # Permissions of files

Nine bits tell who may read, write and run a file: its owner, its group and all others. A symbolic
mode such as `u+x,go-w` changes some of them.
-/
namespace ValueInspector.Shell.Permissions

/-- The places of the users that letters name, as one bit for each class of users. -/
def placesOf (letters : Bytes) : Nat :=
  letters.foldl
    (fun acc c => acc ||| (match c with
      | 'u' => 64
      | 'g' => 8
      | 'o' => 1
      | _ => 73))
    0

/-- Changes permissions as a symbolic mode says: users, signs and rights, in clauses between commas.
`users` are those that the clause names, and `mask` has the bits that stay as they are when a clause
names none. Yields `none` if the mode is malformed. -/
def changed (mask before : Nat) : Nat → Nat → Nat → Bytes → Option Nat
  | 0, _, mode, _ => some mode
  | _ + 1, _, mode, [] => some mode
  | n + 1, users, mode, cs =>
    let named := cs.takeWhile (· ∈ ['a', 'u', 'g', 'o'])
    let users := users ||| placesOf named
    let places := if users = 0 then 73 else users
    match cs.drop named.length with
    | [] => some mode
    | sign :: rest =>
      if sign ∉ ['=', '+', '-'] then none
      else
        let rights := rest.takeWhile (· ∈ ['r', 'w', 'x', 'u', 'g', 'o', 'X', 's', 't'])
        let bits := rights.foldl
          (fun acc c => acc ||| (match c with
            | 'r' => 4
            | 'w' => 2
            | 'x' => 1
            | 'u' => before / 64 % 8
            | 'g' => before / 8 % 8
            | 'o' => before % 8
            | 'X' => if before &&& 73 = 0 then 0 else 1
            | _ => 0))
          0
        let chosen := bits * places
        let chosen := if users = 0 then chosen - (chosen &&& mask) else chosen
        let mode := match sign with
          | '-' => mode - (mode &&& chosen)
          | '+' => mode ||| chosen
          | _ => chosen ||| (mode - (mode &&& (places * 7)))
        match rest.drop rights.length with
        | [] => some mode
        | ',' :: more => changed mask before n 0 mode more
        | c :: more =>
          if c ∈ ['=', '+', '-'] then changed mask before n users mode (c :: more) else none

/-- The bits as nine letters and dashes. -/
def text (mode : Nat) : Bytes :=
  (List.range 9).map fun k =>
    if mode.testBit (8 - k) then (['r', 'w', 'x'][k % 3]?).getD '-' else '-'

/-- The bits in octal digits. -/
def octal (mode : Nat) : Bytes := Nat.toDigits 8 mode

end ValueInspector.Shell.Permissions
