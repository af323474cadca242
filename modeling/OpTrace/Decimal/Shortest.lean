import OpTrace.Decimal.Binary64

/-!
# The fewest digits that read back

Reading a decimal gives the binary value nearest to it. So each binary value stands for an
interval of decimals, from halfway to its lower neighbour to halfway to its upper one, and the
ends belong to the interval exactly when the significand is even.

`Binary64.shortest` looks at the multiples of a power of ten, for one power after another from
the coarsest grid to the finest. The first grid with a point in the interval has the fewest
digits; of two points the nearer is taken. Where both are equally near, it is for the format to say
which one. All comparisons are between natural numbers.
-/

namespace OpTrace

/-- The decimal `digits * 10 ^ exponent`. -/
structure Decimal where
  digits : Nat
  exponent : Int
  deriving DecidableEq, Repr

/-- Which one of two equally near neighbours is taken. -/
inductive Tie where
  | upper
  /-- the one whose last digit is even -/
  | even
  deriving DecidableEq, Repr

namespace Decimal

/-- Compares the decimal with `n * 2 ^ j`. -/
def compareBinary (d : Decimal) (n : Nat) (j : Int) : Ordering :=
  compare (d.digits * Nat.pow 10 d.exponent.toNat * Nat.pow 2 (-j).toNat)
    (n * Nat.pow 2 j.toNat * Nat.pow 10 (-d.exponent).toNat)

end Decimal

namespace Binary64

/-- Does reading the decimal give the size of `x`? -/
def readsBack (x : Binary64) (d : Decimal) : Bool :=
  let below := if x.isNarrowBelow then 4 * x.significand - 1 else 4 * x.significand - 2
  let above := 4 * x.significand + 2
  let closed := x.significand % 2 == 0
  let toBelow := d.compareBinary below (x.exponent - 2)
  let toAbove := d.compareBinary above (x.exponent - 2)
  (toBelow == .gt || closed && toBelow == .eq) && (toAbove == .lt || closed && toAbove == .eq)

/-- The multiple of `10 ^ grid` that reads back, if there is one. Only the neighbours of the value
on the grid can; of both the nearer one is taken. -/
def onGrid? (tie : Tie) (x : Binary64) (grid : Int) : Option Decimal :=
  let floor := x.significand * Nat.pow 2 x.exponent.toNat * Nat.pow 10 (-grid).toNat /
    (Nat.pow 2 (-x.exponent).toNat * Nat.pow 10 grid.toNat)
  let lower : Decimal := ⟨floor, grid⟩
  let upper : Decimal := ⟨floor + 1, grid⟩
  let middle : Decimal := ⟨2 * floor + 1, grid⟩
  match x.readsBack lower, x.readsBack upper with
  | true, true =>
    some <| match middle.compareBinary (2 * x.significand) x.exponent with
      | .gt => lower
      | .lt => upper
      | .eq => if tie = .even ∧ floor % 2 = 0 then lower else upper
  | true, false => some lower
  | false, true => some upper
  | false, false => none

/-- The exponents of the grids, from one that is coarser than every value to one on which the
smallest value has seventeen digits. -/
def grids : List Int := (List.range 661).map fun (i : Nat) ↦ 309 - (i : Int)

def exactDecimal (x : Binary64) : Decimal :=
  if 0 ≤ x.exponent then ⟨x.significand * Nat.pow 2 x.exponent.toNat, 0⟩
  else ⟨x.significand * Nat.pow 5 (-x.exponent).toNat, x.exponent⟩

/-- The decimal with the fewest digits that reads back to the size of `x`. -/
def shortest (tie : Tie) (x : Binary64) : Decimal :=
  (grids.findSome? (onGrid? tie x)).getD x.exactDecimal

end Binary64

end OpTrace
