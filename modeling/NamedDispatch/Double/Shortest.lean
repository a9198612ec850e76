/-
The decimal digits of a finite number: the fewest that still single it out among the numbers of the
64-bit format, and of those the nearest to it.
-/
import NamedDispatch.Double.Basic

namespace NamedDispatch

/-- A positive decimal: its digits, the first not zero, and the power of ten of the first. -/
structure Decimal where
  digits : List Char
  exponent : Int
deriving DecidableEq, Repr

namespace Double

/-! ## Exact comparison with decimals -/

/-- Compares `c · 10^p` with `k · 2^e`. -/
def compareDecimal (c : Nat) (p : Int) (k : Nat) (e : Int) : Ordering :=
  compare ((c * pow10 p.toNat) <<< (-e).toNat) ((k * pow10 (-p).toNat) <<< e.toNat)

/-- Whether `c · 10^p` rounds to `m · 2^q`. In quarters of the last place the bounds are `4m ± 2`,
the lower one closer where the numbers below stand closer; a bound rounds to an even `m`. -/
def roundsTo (m : Nat) (q : Int) (c : Nat) (p : Int) : Bool :=
  let lower := if m = 1 <<< 52 ∧ Format.double.least < q then 4 * m - 1 else 4 * m - 2
  let even := m % 2 == 0
  let above := match compareDecimal c p lower (q - 2) with
    | .gt => true
    | .eq => even
    | .lt => false
  let below := match compareDecimal c p (4 * m + 2) (q - 2) with
    | .lt => true
    | .eq => even
    | .gt => false
  above && below

/-! ## The search -/

/-- The exponent of the power of ten at or below the ratio of two positive numbers. -/
def floorLog10 (num den : Nat) : Int :=
  if den ≤ num then ((Nat.toDigits 10 (num / den)).length : Int) - 1
  else -((Nat.toDigits 10 ((den - 1) / num)).length : Int)

/-- The nearer of the two neighbours of `m · 2^q` among the multiples of `10^p`, if one of them
rounds to it; a tie goes to the even multiple. -/
def neighbour? (m : Nat) (q : Int) (p : Int) : Option Nat :=
  let num := (m * pow10 (-p).toNat) <<< q.toNat
  let den := pow10 p.toNat <<< (-q).toNat
  let c := num / den
  match roundsTo m q c p, roundsTo m q (c + 1) p with
  | true, true =>
    match compare (2 * (num % den)) den with
    | .lt => some c
    | .gt => some (c + 1)
    | .eq => some (if c % 2 = 0 then c else c + 1)
  | true, false => some c
  | false, true => some (c + 1)
  | false, false => none

/-- The first count of digits, from `n` on, whose grid has a neighbour that rounds to `m · 2^q`. -/
def searchDigits (m : Nat) (q log : Int) : Nat → Nat → Nat × Int
  | 0, n => (m <<< q.toNat, log - n)
  | tries + 1, n =>
    match neighbour? m q (log - n + 1) with
    | some c => (c, log - n + 1)
    | none => searchDigits m q log tries (n + 1)

/-- The digits without the zeros at their end. -/
def dropZeros (ds : List Char) : List Char := (ds.reverse.dropWhile (· == '0')).reverse

/-- The shortest decimal of `m · 2^q`, for a positive `m`; seventeen digits always suffice. -/
def shortest (m : Nat) (q : Int) : Decimal :=
  let r := (Double.finite false m q).ratio
  let (c, p) := searchDigits m q (floorLog10 r.1 r.2) 17 1
  let ds := Nat.toDigits 10 c
  ⟨dropZeros ds, p + ds.length - 1⟩

end Double

end NamedDispatch
