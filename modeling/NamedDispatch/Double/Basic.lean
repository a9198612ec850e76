/-
Binary floating point numbers as a sign, a significand and a power of two. Every operation takes the
exact ratio of naturals and rounds it once, to the nearest number of the format, a tie to the even
significand.
-/

namespace NamedDispatch

/-- A binary format: the bits of a significand and the least and greatest power of two it scales. -/
structure Format where
  digits : Nat
  least : Int
  most : Int
deriving DecidableEq, Repr

/-- The 64-bit format. -/
def Format.double : Format := ⟨53, -1074, 971⟩

/-- The 32-bit format. -/
def Format.single : Format := ⟨24, -149, 104⟩

/-- The number `± m · 2^q`, or an infinity. -/
inductive Double where
  | finite (negative : Bool) (m : Nat) (q : Int)
  | infinite (negative : Bool)
deriving DecidableEq, Repr

namespace Double

/-! ## Rounding a ratio -/

/-- The exponent of the power of two at or below the ratio of two positive numbers. -/
def floorLog2 (num den : Nat) : Int :=
  let e : Int := (num.log2 : Int) - (den.log2 : Int)
  let below := if 0 ≤ e then den <<< e.toNat ≤ num else den ≤ num <<< (-e).toNat
  if below then e else e - 1

/-- The quotient rounded to the nearest whole number, a tie to the even one. -/
def roundEven (num den : Nat) : Nat :=
  let whole := num / den
  let twice := 2 * (num % den)
  if twice > den || (twice == den && whole % 2 == 1) then whole + 1 else whole

/-- The number of the format nearest to the ratio; a ratio over zero is infinite. -/
def round (f : Format) (negative : Bool) (num den : Nat) : Double :=
  if den = 0 then .infinite negative
  else if num = 0 then .finite negative 0 f.least
  else
    let q := max (floorLog2 num den - f.digits + 1) f.least
    let m := if 0 ≤ q then roundEven num (den <<< q.toNat) else roundEven (num <<< (-q).toNat) den
    -- rounding up may come to the next power of two, which needs one bit more
    if m = 1 <<< f.digits then
      if q + 1 > f.most then .infinite negative else .finite negative (m / 2) (q + 1)
    else if q > f.most then .infinite negative
    else .finite negative m q

/-! ## The exact value -/

/-- Whether the sign is a minus, that of a zero included. -/
def negative : Double → Bool
  | .finite s _ _ => s
  | .infinite s => s

/-- The magnitude as a ratio; an infinity is one over zero. -/
def ratio : Double → Nat × Nat
  | .finite _ m q => if 0 ≤ q then (m <<< q.toNat, 1) else (m, 1 <<< (-q).toNat)
  | .infinite _ => (1, 0)

/-- Whether the number is `0` or `-0`. -/
def isZero : Double → Bool
  | .finite _ m _ => m == 0
  | .infinite _ => false

/-! ## Arithmetic -/

/-- The number with the other sign. -/
def neg : Double → Double
  | .finite s m q => .finite (!s) m q
  | .infinite s => .infinite (!s)

/-- The number nearest to a natural number. -/
def ofNat (n : Nat) : Double := round .double false n 1

/-- The number of the format `f` nearest to an integer. -/
def ofInt (f : Format) (i : Int) : Double := round f (decide (i < 0)) i.natAbs 1

/-- The product, rounded once. -/
def mul (x y : Double) : Double :=
  round .double (x.negative != y.negative) (x.ratio.1 * y.ratio.1) (x.ratio.2 * y.ratio.2)

/-- The quotient, rounded once; over a zero it is infinite. -/
def div (x y : Double) : Double :=
  round .double (x.negative != y.negative) (x.ratio.1 * y.ratio.2) (x.ratio.2 * y.ratio.1)

/-- The number of the format nearest to a number. -/
def fit (f : Format) (x : Double) : Double := round f x.negative x.ratio.1 x.ratio.2

/-! ## Decimals -/

/-- The power `10^n`. -/
def pow10 (n : Nat) : Nat := Nat.pow 10 n

/-- The number nearest to `10^n`. -/
def tenPower (n : Nat) : Double := ofNat (pow10 n)

/-- The greatest power of ten that is scaled by in one step. -/
def tenStep : Nat := 308

/-- Divides by a power of ten, at most `tenStep` of it at a time, until nothing is left. -/
def scaleDown (x : Double) (n : Nat) : Double :=
  if n ≤ tenStep then x.div (tenPower n)
  else if x.isZero then x
  else scaleDown (x.div (tenPower tenStep)) (n - tenStep)
termination_by n
decreasing_by simp only [tenStep] at *; omega

/-- The decimal `significand · 10^exponent`: the significand is rounded, then scaled with one more
rounding. Nothing when it exceeds every finite number. -/
def ofDecimal? (significand : Nat) (exponent : Int) : Option Double :=
  let x := ofNat significand
  if exponent < 0 then some (scaleDown x (-exponent).toNat)
  else if exponent ≤ (tenStep : Int) then
    match x.mul (tenPower exponent.toNat) with
    | .infinite _ => none
    | y => some y
  else if x.isZero then some x
  else none

end Double

end NamedDispatch
