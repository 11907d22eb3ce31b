import ValueInspector.Shell.Utility.Basic

/-! # Prime factors

`factor` takes numbers apart. Small factors are found by division; what is left is tested for being
prime, and otherwise split at a repetition among the values of a polynomial.
-/
namespace ValueInspector.Shell.Utility

/-- A number with a factor taken out as often as it goes, and how often that is. -/
def takeOut (p : Nat) : Nat → Nat → Nat → Nat × Nat
  | 0, n, count => (n, count)
  | fuel + 1, n, count => if p ≤ n && n % p = 0 then takeOut p fuel (n / p) (count + 1) else (n, count)

/-- A power modulo a number. -/
def powerModulo (n : Nat) : Nat → Nat → Nat → Nat
  | 0, _, _ => 1 % n
  | fuel + 1, base, exponent =>
    if exponent = 0 then 1 % n
    else
      let half := powerModulo n fuel (base * base % n) (exponent / 2)
      if exponent % 2 = 0 then half else half * base % n

/-- Whether repeated squares of a residue reach the one before zero. -/
def reachesMinusOne (n : Nat) : Nat → Nat → Bool
  | 0, _ => false
  | k + 1, x => x + 1 = n || reachesMinusOne n k (x * x % n)

/-- Whether an odd number that has none of the first primes as a factor is prime. -/
def isPrime (n : Nat) : Bool :=
  let (odd, twos) := takeOut 2 (n.log2 + 1) (n - 1) 0
  [2, 3, 5, 7, 11, 13, 17, 19, 23, 29, 31, 37, 41].all fun a =>
    n = a ||
      let x := powerModulo n (n.log2 + 2) (a % n) odd
      x = 1 || reachesMinusOne n twos x

/-- A factor where two walks along the values of `x * x + c`, one twice as fast, meet. -/
def meeting (n c : Nat) : Nat → Nat → Nat → Nat
  | 0, _, _ => n
  | fuel + 1, x, y =>
    let next (x : Nat) : Nat := (x * x + c) % n
    let x := next x
    let y := next (next y)
    let g := Nat.gcd (max x y - min x y) n
    if g = 1 then meeting n c fuel x y else g

/-- How many steps walks may take. -/
def walkLimit : Nat := 20000000

/-- The prime factors of a number without small ones. -/
def largeFactors : Nat → Nat → List Nat
  | 0, n => [n]
  | fuel + 1, n =>
    if n = 1 then []
    else if isPrime n then [n]
    else
      let g? := (List.range 20).findSome? fun c =>
        let g := meeting n (c + 1) walkLimit 2 2
        if g = n then none else some g
      match g? with
      | some g => largeFactors fuel g ++ largeFactors fuel (n / g)
      | none => [n]

/-- The prime factors of a number, from the smallest on. -/
def primeFactors (n : Nat) : List Nat :=
  let small := 2 :: (List.range 2048).map fun k => 2 * k + 3
  let rec divide : List Nat → Nat → List Nat → List Nat × Nat
    | [], n, acc => (acc, n)
    | p :: ps, n, acc =>
      if n < p * p then (acc, n)
      else
        let (n, count) := takeOut p (n.log2 + 1) n 0
        divide ps n (List.replicate count p ++ acc)
  if n < 2 then []
  else
    let (found, rest) := divide small n []
    let large := if rest < 4096 * 4096 then [rest].filter (1 < ·) else largeFactors rest.log2 rest
    (found ++ large).mergeSort (· ≤ ·)

/-- A number and its factors as they are written, with powers if that is asked for. -/
def factorLine (powers : Bool) (n : Nat) : Bytes :=
  let groups := (primeFactors n).splitBy (· = ·)
  let part (g : List Nat) : Bytes :=
    let p := Bytes.ofNat (g.head?.getD 0)
    if powers then
      ' ' :: p ++ if g.length = 1 then [] else '^' :: Bytes.ofNat g.length
    else (g.map fun _ => ' ' :: p).flatten
  Bytes.ofNat n ++ [':'] ++ (groups.map part).flatten ++ ['\n']

/-- A positive number, as it is read. -/
def positive? (w : Bytes) : Option Nat :=
  let w := w.dropWhile (· = ' ')
  Bytes.natural? (if w.head? = some '+' then w.drop 1 else w)

/-- Writes numbers with their prime factors. -/
def factor : Utility :=
  withOptions ⟨" [OPTION] [NUMBER]...", versionOf "factor", ["h,exponents"], true, 1⟩ fun o rest i => do
    let all (words : List Bytes) : Task Nat := do
      let wrong := words.filter fun w => (positive? w).isNone
      wrong.forM fun w => complain i (quoted w ++ bytes " is not a valid positive integer")
      let status ← put i ((words.filterMap positive?).map (factorLine (o.has "h"))).flatten
      return if wrong.isEmpty then status else 1
    if !rest.isEmpty then all rest
    else
      match ← contents i ['-'] with
      | .error f => refuse i (bytes "error reading input: " ++ f.text) 1
      | .ok data =>
        let isGap (c : Char) : Bool := c = '\n' || c = '\t' || c = ' ' || c = Char.ofNat 0
        all ((data.splitOnP isGap).filter fun w => !w.isEmpty)

end ValueInspector.Shell.Utility
