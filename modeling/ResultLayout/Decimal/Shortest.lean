import ResultLayout.Decimal.Binary64
/-!
# Shortest decimal text

The decimal with the fewest digits that still reads back as the same binary number. Such a decimal
lies in the interval of the numbers that round to the value; of two with equally many digits the
nearer one is taken.
-/
namespace ResultLayout

/-- The decimal `digits * 10 ^ exponent`. -/
structure Decimal where
  digits : Nat
  exponent : Int
deriving DecidableEq, Repr

namespace Binary64

/-- Whether a decimal lies among the numbers that round to `x`. Below a power of two the neighbour is
half as far away; the ends belong to the interval if the mantissa is even. -/
def reads (x : Binary64) (decimal : Decimal) : Bool :=
  let power := decimal.exponent.toNat
  let inverse := (-decimal.exponent).toNat
  -- all in units of a quarter of the last binary place
  let (n, d) := scaled (decimal.digits * Nat.pow 10 power) (Nat.pow 10 inverse) (2 - x.scale)
  let low :=
    if x.mantissa = Nat.pow 2 52 ∧ leastScale < x.scale then 4 * x.mantissa - 1 else 4 * x.mantissa - 2
  let high := 4 * x.mantissa + 2
  if x.mantissa % 2 = 0 then low * d ≤ n && n ≤ high * d else low * d < n && n < high * d

/-- The decimals with last place `10 ^ exponent` next to `x`, the nearer one first. -/
def neighbours (x : Binary64) (exponent : Int) : List Decimal :=
  let (n, d) := x.ratio
  let n := n * Nat.pow 10 (-exponent).toNat
  let d := d * Nat.pow 10 exponent.toNat
  let below := n / d
  let rest := 2 * (n % d)
  if rest < d ∨ rest = d ∧ below % 2 = 0 then [⟨below, exponent⟩, ⟨below + 1, exponent⟩]
  else [⟨below + 1, exponent⟩, ⟨below, exponent⟩]

/-- The greatest `e` from `start` downwards with `10 ^ e ≤ x`, within so many steps. -/
def log10From (x : Binary64) : (steps : Nat) → (start : Int) → Int
  | 0, start => start
  | steps + 1, start =>
    let (n, d) := x.ratio
    if d * Nat.pow 10 start.toNat ≤ n * Nat.pow 10 (-start).toNat then start
    else log10From x steps (start - 1)

/-- The greatest power of ten below a positive number. -/
def log10 (x : Binary64) : Int := x.log10From 640 309

/-- The first decimal that reads back, with one digit more at each step. -/
def shortestFrom (x : Binary64) : (steps : Nat) → (exponent : Int) → Decimal
  | 0, exponent => (x.neighbours exponent).headD ⟨0, 0⟩
  | steps + 1, exponent =>
    match (x.neighbours exponent).find? x.reads with
    | some decimal => decimal
    | none => shortestFrom x steps (exponent - 1)

def shortest (x : Binary64) : Decimal :=
  if x.mantissa = 0 then ⟨0, 0⟩ else x.shortestFrom 17 x.log10

end Binary64

/-- Where a decimal is written with all its places, and where with an exponent. -/
structure DecimalStyle where
  /-- The greatest number of places before the point. -/
  placesBefore : Int
  /-- The greatest number of zeros between the point and the first digit. -/
  zerosAfter : Int
  /-- The sign of an exponent above zero. -/
  plus : String

/-- Sixteen places before the point, four zeros behind it, and a sign before every exponent. -/
def DecimalStyle.standard : DecimalStyle := ⟨16, 4, "+"⟩

namespace Decimal

def zeros (n : Int) : String := String.ofList (List.replicate n.toNat '0')

/-- The decimal without zeros at its end, for decimals of at most so many digits. -/
def strip : (steps : Nat) → Decimal → Decimal
  | 0, decimal => decimal
  | steps + 1, ⟨digits, exponent⟩ =>
    if digits ≠ 0 ∧ digits % 10 = 0 then strip steps ⟨digits / 10, exponent + 1⟩
    else ⟨digits, exponent⟩

/-- The text of a decimal; a number without fraction keeps `.0` unless it has an exponent. -/
def render (style : DecimalStyle) (decimal : Decimal) : String :=
  if decimal.digits = 0 then "0.0"
  else
    let decimal := decimal.strip 20
    let text := toString decimal.digits
    let point : Int := text.length + decimal.exponent
    if 0 ≤ decimal.exponent ∧ point ≤ style.placesBefore then
      text ++ zeros decimal.exponent ++ ".0"
    else if 0 < point ∧ point ≤ style.placesBefore then
      String.ofList (text.toList.take point.toNat) ++ "." ++
        String.ofList (text.toList.drop point.toNat)
    else if -style.zerosAfter ≤ point ∧ point ≤ 0 then "0." ++ zeros (-point) ++ text
    else
      let first := String.ofList (text.toList.take 1)
      let rest := String.ofList (text.toList.drop 1)
      (if text.length = 1 then text else first ++ "." ++ rest) ++ "e" ++
        (if 0 < point - 1 then style.plus else "") ++ toString (point - 1)

example : render .standard ⟨1, 15⟩ = "1000000000000000.0" ∧ render .standard ⟨1, 16⟩ = "1e+16" := by
  decide +kernel

example : render .standard ⟨1, -5⟩ = "0.00001" ∧ render .standard ⟨15, -7⟩ = "1.5e-6" := by
  decide +kernel

end Decimal

/-- The shortest text of a number, with its sign. -/
def Binary64.render (negative : Bool) (x : Binary64) : String :=
  (if negative then "-" else "") ++ x.shortest.render .standard

end ResultLayout
