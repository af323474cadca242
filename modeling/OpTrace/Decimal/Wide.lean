import OpTrace.Decimal.Shortest

/-!
# Digits by repeated scaling

A positive binary number of any size is brought between `10 ^ 17` and `10 ^ 19` by multiplying it
with powers of ten, the coarse ones first. The products are rounded to numbers of 64 significant
bits, a half going to the even one, so the last of the eighteen or nineteen digits of the result
need not be those of the number itself.
-/

namespace OpTrace

/-- The quotient rounded to a whole number, a half going to the even one. -/
def roundHalfEven (num den : Nat) : Nat :=
  let quotient := num / den
  match compare (2 * (num % den)) den with
  | .lt => quotient
  | .gt => quotient + 1
  | .eq => if quotient % 2 = 0 then quotient else quotient + 1

/-- The positive number `significand * 2 ^ exponent`, where the significand has 64 bits. -/
structure Wide where
  significand : Nat
  exponent : Int
  deriving DecidableEq, Repr

namespace Wide

def precision : Nat := 64

/-- The number nearest to `num / den * 2 ^ exponent`. -/
def ofQuotient (num den : Nat) (exponent : Int) : Wide :=
  let shift : Int := (precision : Int) + Nat.log2 den - Nat.log2 num
  let isLow := num * Nat.pow 2 shift.toNat < Nat.pow 2 precision * (den * Nat.pow 2 (-shift).toNat)
  let shift := if isLow then shift else shift - 1
  let rounded := roundHalfEven (num * Nat.pow 2 shift.toNat) (den * Nat.pow 2 (-shift).toNat)
  if rounded = Nat.pow 2 precision then ⟨Nat.pow 2 (precision - 1), exponent - shift + 1⟩
  else ⟨rounded, exponent - shift⟩

/-- The number nearest to a power of ten. -/
def powerOfTen (power : Int) : Wide :=
  ofQuotient (Nat.pow 10 power.toNat) (Nat.pow 10 (-power).toNat) 0

def mul (x y : Wide) : Wide :=
  ofQuotient (x.significand * y.significand) 1 (x.exponent + y.exponent)

def lt (x y : Wide) : Bool :=
  x.exponent < y.exponent || (x.exponent == y.exponent && x.significand < y.significand)

def floor (x : Wide) : Nat :=
  x.significand * Nat.pow 2 x.exponent.toNat / Nat.pow 2 (-x.exponent).toNat

/-- A number together with a power of ten that it is still to be multiplied with. -/
structure Scaled where
  number : Wide
  power : Int

namespace Scaled

/-- Divides by a power of ten as long as the number is not below a bound, but at most `count`
times. -/
def lower (power bound : Int) : Nat → Scaled → Scaled
  | 0, x => x
  | count + 1, x =>
    if x.number.lt (powerOfTen bound) then x
    else lower power bound count ⟨x.number.mul (powerOfTen (-power)), x.power + power⟩

/-- Multiplies with a power of ten as long as the number is below a bound, but at most `count`
times. -/
def raise (power bound : Int) : Nat → Scaled → Scaled
  | 0, x => x
  | count + 1, x =>
    if x.number.lt (powerOfTen bound) then
      raise power bound count ⟨x.number.mul (powerOfTen power), x.power - power⟩
    else x

/-- Brings the number between `10 ^ 17` and `10 ^ 19`. -/
def settle (x : Scaled) : Scaled :=
  if x.number.lt (powerOfTen 19) then
    ((x.raise 100 (-97) 4).raise 10 7 11).raise 1 17 11
  else ((x.lower 100 119 4).lower 10 29 11).lower 1 19 11

end Scaled

end Wide

/-- The digits of a binary number that is neither zero nor infinite, as far as scaling keeps
them. -/
def Binary64.scaledDecimal (x : Binary64) : Decimal :=
  let settled := Wide.Scaled.settle ⟨Wide.ofQuotient x.significand 1 x.exponent, 0⟩
  ⟨settled.number.floor, settled.power⟩

end OpTrace
