/- # Binary64 -- double-precision numbers known by their bits

A double is kept as its sixty-four bits, so that equality tells `0.0` from `-0.0`, holds of a NaN
and itself, and separates two NaNs with different payloads. The accessors read the three fields of
the format; a finite magnitude is `significand * 2 ^ scale`.
-/

namespace Stencil
set_option autoImplicit false

/-- A double-precision number, given by its bits. -/
structure Binary64 where
  bits : UInt64
deriving DecidableEq

namespace Binary64

/-- The sign bit. -/
def negative (x : Binary64) : Bool := Nat.pow 2 63 ≤ x.bits.toNat

/-- The eleven bits of the biased exponent. -/
def biased (x : Binary64) : Nat := x.bits.toNat / Nat.pow 2 52 % Nat.pow 2 11

/-- The fifty-two bits below the exponent. -/
def fraction (x : Binary64) : Nat := x.bits.toNat % Nat.pow 2 52

def isNaN (x : Binary64) : Bool := x.biased == 2047 && x.fraction != 0

def isInfinite (x : Binary64) : Bool := x.biased == 2047 && x.fraction == 0

def isFinite (x : Binary64) : Bool := x.biased != 2047

/-- The integer significand of a finite double; the leading bit is implicit above the least
exponent. -/
def significand (x : Binary64) : Nat :=
  if x.biased = 0 then x.fraction else x.fraction + Nat.pow 2 52

/-- The power of two that the significand is scaled by. -/
def scale (x : Binary64) : Int :=
  if x.biased = 0 then -1074 else (x.biased : Int) - 1075

/-- Whether the neighbour below lies at half the distance of the neighbour above, which happens at
the powers of two. -/
def tightBelow (x : Binary64) : Bool := x.fraction == 0 && 1 < x.biased

/-- Put a sign in front of the bits of a magnitude. -/
def ofMagnitude (negative : Bool) (magnitude : Nat) : Binary64 :=
  ⟨UInt64.ofNat (if negative then Nat.pow 2 63 + magnitude else magnitude)⟩

end Binary64

end Stencil
