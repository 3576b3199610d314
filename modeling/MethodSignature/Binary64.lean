/-
# MethodSignature.Binary64 -- the binary number a decimal stands for

A number written with a point or an exponent stands for the binary64 number nearest
to it, and for the one with the even significand if two are equally near.  Binary64
numbers are the multiples `significand * 2 ^ exponent` with a significand of at most
53 bits and an exponent from -1074 to 971.  A decimal beyond all of them stands for no
finite number.

Everything is computed in whole numbers, so nothing is rounded twice.
-/
namespace MethodSignature

set_option autoImplicit false

structure Binary64 where
  significand : Int
  exponent : Int
  deriving DecidableEq, Repr

namespace Binary64

def leastExponent : Int := -1074

def greatestExponent : Int := 971

/-- The quotient rounded to the nearest whole number, a half to the even one. -/
def roundDiv (num den : Nat) : Nat :=
  let quotient := num / den
  let rest := num % den
  if 2 * rest < den then quotient
  else if den < 2 * rest then quotient + 1
  else quotient + quotient % 2

/-- `num / den` as a fraction in units of `2 ^ exponent`. -/
def inUnits (num den : Nat) (exponent : Int) : Nat × Nat :=
  let scale := Nat.pow 2 exponent.natAbs
  if exponent < 0 then (num * scale, den) else (num, den * scale)

/-- The exponent of the units in which `num / den` has 53 bits before the point, or
the least exponent there is. -/
def unitExponent (num den : Nat) : Int :=
  let guess : Int := num.log2 - den.log2 - 52
  let (scaled, unit) := inUnits num den guess
  max leastExponent (if scaled < Nat.pow 2 52 * unit then guess - 1 else guess)

/-- The binary64 number nearest to the positive quotient `num / den`. -/
def ofQuotient? (num den : Nat) : Option (Nat × Int) :=
  let exponent := unitExponent num den
  let (scaled, unit) := inUnits num den exponent
  let significand := roundDiv scaled unit
  if greatestExponent < exponent ∨ (exponent = greatestExponent ∧ significand = Nat.pow 2 53) then none
  else some (significand, exponent)

/-- The binary64 number that `mantissa * 10 ^ exponent` stands for.  Decimals of more
than 310 digits before the point are beyond all numbers, and those with more than 330
zeros behind it stand for zero, so no larger power of ten is computed. -/
def ofDecimal? (mantissa exponent : Int) : Option Binary64 :=
  let digits := mantissa.natAbs
  let order : Int := (Nat.toDigits 10 digits).length + exponent
  if mantissa = 0 ∨ order < -330 then some ⟨0, 0⟩
  else if 310 < order then none
  else
    let power := Nat.pow 10 exponent.natAbs
    let nearest :=
      if exponent < 0 then ofQuotient? digits power else ofQuotient? (digits * power) 1
    nearest.map fun (significand, exponent) => ⟨mantissa.sign * significand, exponent⟩

/-- The integer a number is equal to, if it is equal to one. -/
def toInt? (number : Binary64) : Option Int :=
  let power : Int := Nat.pow 2 number.exponent.natAbs
  if 0 ≤ number.exponent then some (number.significand * power)
  else if number.significand % power = 0 then some (number.significand / power)
  else none

end Binary64

end MethodSignature
