/-
The text of a finite number: positional within a range of exponents, with an exponent outside it.
-/
import NamedDispatch.Double.Shortest

namespace NamedDispatch

/-- Which exponents are written positionally. -/
structure PositionalRange where
  least : Int
  most : Int

/-- Decimals from `0.00001` up to below `10^16` are written positionally. -/
def Decimal.positional : PositionalRange := ⟨-5, 15⟩

namespace Decimal

/-- Digits around the point, at least one on each side. -/
def plain (d : Decimal) : List Char :=
  if d.exponent < 0 then
    ['0', '.'] ++ List.replicate ((-d.exponent).toNat - 1) '0' ++ d.digits
  else
    let n := d.exponent.toNat + 1
    let whole := d.digits.take n
    let fraction := d.digits.drop n
    whole ++ List.replicate (n - whole.length) '0' ++ ['.'] ++
      (if fraction.isEmpty then ['0'] else fraction)

/-- One digit before the point and the exponent with its sign; no point when no digit follows it. -/
def scientific (d : Decimal) : List Char :=
  let fraction := d.digits.drop 1
  d.digits.take 1 ++ (if fraction.isEmpty then [] else '.' :: fraction) ++
    ['e', if d.exponent < 0 then '-' else '+'] ++ Nat.toDigits 10 d.exponent.natAbs

/-- The text of a decimal: `plain` within the positional range, `scientific` outside it. -/
def text (d : Decimal) : List Char :=
  if positional.least ≤ d.exponent ∧ d.exponent ≤ positional.most then d.plain else d.scientific

end Decimal

/-- The text of a finite number; an infinity has none. -/
def Double.text? : Double → Option (List Char)
  | .infinite _ => none
  | .finite s m q =>
    let sign := if s then ['-'] else []
    if m = 0 then some (sign ++ ['0', '.', '0'])
    else some (sign ++ (Double.shortest m q).text)

end NamedDispatch
