import Mathlib

/-! Positive normal doubles by their bits: the double nearest to a ratio, the shortest decimal that is nearest to a
double, and a fast way to read a decimal that rounds twice. All of it is exact integer arithmetic. -/

namespace Double

/-- The number nearest to `n / d`, and of two the even one. -/
def roundDiv (n d : ℕ) : ℕ :=
  if 2 * (n % d) < d then n / d else if d < 2 * (n % d) then n / d + 1 else n / d + n / d % 2

/-- The bits of the double nearest to `n / d`. -/
def ofRatio (n d : ℕ) : ℕ :=
  let scaled := fun e : Int => (n * 2 ^ (-e).toNat, d * 2 ^ e.toNat)
  let guess : Int := n.log2 - d.log2 - 52
  -- the mantissa has 53 bits, or one less at the guessed exponent
  let e := if (scaled guess).1 / (scaled guess).2 < 2 ^ 52 then guess - 1 else guess
  -- a mantissa that is rounded up to 54 bits carries over into the exponent
  (e + 1074).toNat * 2 ^ 52 + roundDiv (scaled e).1 (scaled e).2

/-- A double as a ratio. -/
def toRatio (bits : ℕ) : ℕ × ℕ :=
  let e : Int := bits / 2 ^ 52 - 1075
  ((2 ^ 52 + bits % 2 ^ 52) * 2 ^ e.toNat, 2 ^ (-e).toNat)

/-- The digits and the number of decimal places with which a double is written: as few places as still make it the
nearest double, but at least one. Doubles that are written with an exponent have no such form. -/
def toDecimal (bits : ℕ) : Option (ℕ × ℕ) :=
  let (n, d) := toRatio bits
  if n * 100000 < d ∨ 10 ^ 16 * d ≤ n then none
  else ((List.range' 1 22).map fun places => (roundDiv (n * 10 ^ places) d, places)).find?
    fun decimal => ofRatio decimal.1 (10 ^ decimal.2) = bits

/-- The double that is read when the digits are converted to one first, and then divided by the power of ten. -/
def ofParts (digits places : ℕ) : ℕ :=
  let (n, d) := toRatio (ofRatio digits 1)
  ofRatio n (d * 10 ^ places)

example : toDecimal 4629487979381582466 = some (31245270191439438, 15) := by decide +kernel

end Double
