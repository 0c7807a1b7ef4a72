/- # Shortest -- the fewest decimal digits that read back as the same double

Every real strictly between the midpoints to the two neighbouring doubles reads back as the double
itself, and the midpoints do so too when the significand is even. The shortest decimal is a multiple
of the largest power of ten that has a multiple in this interval; of the multiples of that power the
nearest is taken, and the upper one when two are equally near. All tests are exact comparisons of
natural numbers.
-/
import Stencil.Number.Binary64

namespace Stencil.Binary64
set_option autoImplicit false

/-- The interval of reals that round to a double, scaled to natural numbers on the grid of the
multiples of `10 ^ grid`: a multiple `c` stands for `c * step`, the double for `centre`. -/
structure Window where
  step : Nat
  lower : Nat
  centre : Nat
  upper : Nat
  closed : Bool

/-- The window of a finite double on the grid `10 ^ grid`. -/
def window (x : Binary64) (grid : Int) : Window :=
  let two := x.scale - 2
  let unit := Nat.pow 2 two.toNat * Nat.pow 10 (-grid).toNat
  let m := x.significand
  { step := Nat.pow 2 (-two).toNat * Nat.pow 10 grid.toNat
    lower := (4 * m - (if x.tightBelow then 1 else 2)) * unit
    centre := 4 * m * unit
    upper := (4 * m + 2) * unit
    closed := m % 2 == 0 }

/-- Whether a multiple of the step lies in the window. -/
def Window.holds (w : Window) (c : Nat) : Bool :=
  let point := c * w.step
  if w.closed then w.lower ≤ point && point ≤ w.upper
  else w.lower < point && point < w.upper

/-- The multiple in the window that is nearest to its centre, the upper of two. -/
def Window.nearest? (w : Window) : Option Nat :=
  let below := w.centre / w.step
  let above := below + 1
  match w.holds below && 0 < below, w.holds above with
  | true, true =>
    if w.centre - below * w.step < above * w.step - w.centre then some below else some above
  | true, false => some below
  | false, true => some above
  | false, false => none

/-- The first grid, going down from `10 ^ grid`, with a multiple in the window. -/
def searchGrid (x : Binary64) : Nat → Int → Nat × Int
  | 0, grid => (0, grid)
  | steps + 1, grid =>
    match (x.window grid).nearest? with
    | some c => (c, grid)
    | none => x.searchGrid steps (grid - 1)

/-- A power of ten above a finite double that is not zero. -/
def ceilingGrid (x : Binary64) : Int :=
  ((x.significand.log2 : Int) + x.scale + 1) * 30103 / 100000 + 1

/-- Digits `c` and exponent `k` of the shortest decimal `c * 10 ^ k` for the magnitude of a finite
double that is not zero. Seventeen digits always suffice, so the search ends within its steps. -/
def shortest (x : Binary64) : Nat × Int := x.searchGrid 24 x.ceilingGrid

/-! ## Text -/

/-- `ds` times a power of ten with the point written: `point` digits stand before it. At least one
digit stands on either side. -/
def positional (ds : List Char) (point : Int) : List Char :=
  if point ≤ 0 then
    '0' :: '.' :: (List.replicate (-point).toNat '0' ++ ds)
  else if ds.length ≤ point.toNat then
    ds ++ List.replicate (point.toNat - ds.length) '0' ++ ['.', '0']
  else
    ds.take point.toNat ++ '.' :: ds.drop point.toNat

/-- Decimal text of an integer, with a minus sign where it is negative. -/
def integerChars (n : Int) : List Char :=
  if n < 0 then '-' :: Nat.toDigits 10 n.natAbs else Nat.toDigits 10 n.natAbs

/-- One digit, the others after a point, and the exponent without sign or padding. -/
def scientific (ds : List Char) (exponent : Int) : List Char :=
  ds.take 1 ++ (if ds.length ≤ 1 then [] else '.' :: ds.drop 1) ++ 'e' :: integerChars exponent

/-- Text of the magnitude: positional from `10 ^ -4` up to below `10 ^ 16`, else scientific. -/
def magnitudeChars (x : Binary64) : List Char :=
  if x.significand = 0 then ['0', '.', '0']
  else
    let (c, grid) := x.shortest
    let ds := Nat.toDigits 10 c
    let leading := grid + ds.length - 1
    if -4 ≤ leading ∧ leading < 16 then positional ds (leading + 1)
    else scientific ds leading

/-- Text of a double: the fewest digits that read back. A NaN has no sign. -/
def chars (x : Binary64) : List Char :=
  if x.isNaN then ['N', 'a', 'N']
  else (if x.negative then ['-'] else []) ++
    (if x.isInfinite then ['i', 'n', 'f'] else x.magnitudeChars)

def text (x : Binary64) : String := String.ofList x.chars

end Stencil.Binary64
