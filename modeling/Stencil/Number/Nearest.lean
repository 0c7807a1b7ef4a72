/- # Nearest -- the double nearest to a decimal

A decimal `digits * 10 ^ exponent` is rounded once, by exact division of natural numbers, to the
nearest double, a tie to the even significand. Decimals too small for the least double give zero, and
decimals that round past the greatest give none.
-/
import Stencil.Number.Binary64

namespace Stencil.Binary64
set_option autoImplicit false

/-- Quotient rounded to nearest, ties to even. -/
def roundDiv (num den : Nat) : Nat :=
  let q := num / den
  let twice := 2 * (num % den)
  if twice < den then q else if den < twice then q + 1 else q + q % 2

/-- Bits of the magnitude nearest to `num / den` for positive numbers: the scale is the one at which
the quotient has fifty-three bits, and not below the least. -/
def magnitudeOfRatio (num den : Nat) : Nat :=
  let guess := (num.log2 : Int) - den.log2 - 53
  let quotientAt (q : Int) := (num * Nat.pow 2 (-q).toNat, den * Nat.pow 2 q.toNat)
  let tall := let (n, d) := quotientAt guess; Nat.pow 2 53 ≤ n / d
  let scale := max (-1074) (if tall then guess + 1 else guess)
  let (n, d) := quotientAt scale
  (scale + 1074).toNat * Nat.pow 2 52 + roundDiv n d

/-- Bits of positive infinity. -/
def infinityBits : Nat := 2047 * Nat.pow 2 52

/-- The double nearest to `digits * 10 ^ exponent`, or none where that is infinite. Decimals that are
certainly out of range are settled by their number of digits alone. -/
def ofDecimal? (negative : Bool) (digits : Nat) (exponent : Int) : Option Binary64 :=
  if digits = 0 then some (ofMagnitude negative 0)
  else
    let width : Int := (Nat.toDigits 10 digits).length
    if 310 < exponent + width then none
    else if exponent + width < -330 then some (ofMagnitude negative 0)
    else
      let magnitude :=
        magnitudeOfRatio (digits * Nat.pow 10 exponent.toNat) (Nat.pow 10 (-exponent).toNat)
      if magnitude < infinityBits then some (ofMagnitude negative magnitude) else none

/-- The double nearest to an integer. -/
def ofInt? (n : Int) : Option Binary64 := ofDecimal? (n < 0) n.natAbs 0

end Stencil.Binary64
