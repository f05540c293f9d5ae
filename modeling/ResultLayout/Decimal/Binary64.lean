/-!
# Binary floating point with 53 bits

Finite numbers that are not negative, kept as `mantissa * 2 ^ scale`. The mantissa has 53 bits, or
fewer at the least scale, and a result between two such numbers goes to the nearer one, a tie to the
one with the even mantissa. Numbers beyond the greatest have no value.
-/
namespace ResultLayout

structure Binary64 where
  mantissa : Nat
  scale : Int
deriving DecidableEq, Repr

namespace Binary64

def leastScale : Int := -1074

def greatestScale : Int := 971

protected def zero : Binary64 := ⟨0, leastScale⟩

/-- The ratio `num / den` times `2 ^ power`, as a ratio of natural numbers. -/
def scaled (num den : Nat) (power : Int) : Nat × Nat :=
  (num * Nat.pow 2 power.toNat, den * Nat.pow 2 (-power).toNat)

/-- The integer nearest to `num / den`; a tie goes to the even one. -/
def roundDiv (num den : Nat) : Nat :=
  let quotient := num / den
  let twice := 2 * (num % den)
  if twice < den ∨ twice = den ∧ quotient % 2 = 0 then quotient else quotient + 1

/-- The greatest `e` with `2 ^ e ≤ num / den`, for positive numbers. -/
def ratioLog2 (num den : Nat) : Int :=
  let guess : Int := num.log2 - den.log2
  let (n, d) := scaled num den (-guess)
  if n < d then guess - 1 else guess

/-- The number nearest to a ratio. -/
def ofRatio? (num den : Nat) : Option Binary64 :=
  if num = 0 then some .zero
  else
    let scale := max (ratioLog2 num den - 52) leastScale
    let (n, d) := scaled num den (-scale)
    let mantissa := roundDiv n d
    let rounded : Binary64 :=
      if mantissa = Nat.pow 2 53 then ⟨Nat.pow 2 52, scale + 1⟩ else ⟨mantissa, scale⟩
    if rounded.scale ≤ greatestScale then some rounded else none

/-- The number as a ratio of natural numbers. -/
def ratio (x : Binary64) : Nat × Nat := scaled x.mantissa 1 x.scale

def mul? (x y : Binary64) : Option Binary64 :=
  ofRatio? (x.ratio.1 * y.ratio.1) (x.ratio.2 * y.ratio.2)

def div? (x y : Binary64) : Option Binary64 :=
  ofRatio? (x.ratio.1 * y.ratio.2) (x.ratio.2 * y.ratio.1)

/-- The greatest power of ten that has a value. -/
def greatestPower : Nat := 308

/-- The number nearest to `10 ^ exponent`, for exponents up to the greatest. -/
def powerOfTen (exponent : Nat) : Binary64 := (ofRatio? (Nat.pow 10 exponent) 1).getD .zero

/-- Divides so many times by the greatest power of ten, unless nothing is left before. -/
def divideByGreatestPower? : (times : Nat) → Binary64 → Option Binary64
  | 0, x => some x
  | times + 1, x =>
    if x.mantissa = 0 then some x
    else (x.div? (powerOfTen greatestPower)).bind (divideByGreatestPower? times)

/-- `x * 10 ^ exponent`, rounded after each multiplication or division by a power of ten. A negative
exponent is taken off in steps of the greatest power; a positive one must not exceed it. -/
def scaleByTen? (x : Binary64) (exponent : Int) : Option Binary64 :=
  let power := exponent.natAbs
  if exponent < 0 then
    let times := (power - 1) / greatestPower
    (divideByGreatestPower? times x).bind fun y =>
      y.div? (powerOfTen (power - times * greatestPower))
  else if power ≤ greatestPower then x.mul? (powerOfTen power)
  else if x.mantissa = 0 then some x
  else none

/-- The number read from decimal digits and a power of ten. -/
def ofDecimal? (digits : Nat) (exponent : Int) : Option Binary64 :=
  (ofRatio? digits 1).bind fun x => x.scaleByTen? exponent

end Binary64
end ResultLayout
