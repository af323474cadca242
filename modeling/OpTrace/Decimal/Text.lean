import OpTrace.Decimal.Wide

/-!
# Numbers as text

A binary number is written in four forms. `plain` writes the fewest digits that read back, always
positionally, and `scientific` does so with an exponent for very large and very small values; of two
equally near numbers `plain` takes the upper one and `scientific` the even one. `fixed` rounds the
exact value to a given number of places, a half going to the even neighbour. `general` rounds the
digits that scaling keeps to fifteen.
-/

namespace OpTrace

def digitsOf (n : Nat) : List Char := Nat.toDigits 10 n

/-- Writes `digits * 10 ^ (-places)` positionally, with at least one digit before the point. -/
def placed (digits places : Nat) : List Char :=
  let written := digitsOf digits
  let padded := List.replicate (places + 1 - written.length) '0' ++ written
  let whole := padded.take (padded.length - places)
  if places = 0 then whole else whole ++ '.' :: padded.drop (padded.length - places)

namespace Decimal

/-- Writes a decimal positionally and with no digit that it does not need. -/
def positional (d : Decimal) : List Char :=
  placed (d.digits * Nat.pow 10 d.exponent.toNat) (-d.exponent).toNat

/-- Rounds a decimal to at most `count` digits; a half goes up. -/
def cut (d : Decimal) (count : Nat) : Decimal :=
  let excess := (digitsOf d.digits).length - count
  ⟨(d.digits + 5 * Nat.pow 10 excess / 10) / Nat.pow 10 excess, d.exponent + excess⟩

/-- Writes a decimal positionally while its first digit stands less than sixteen places before or
five places after the point, with at least one place. Beyond that an exponent with a sign
follows. -/
def scientific (d : Decimal) : List Char :=
  let written := digitsOf d.digits
  let point : Int := written.length + d.exponent
  if 0 ≤ d.exponent ∧ point ≤ 16 then d.positional ++ ['.', '0']
  else if -5 < point ∧ point ≤ 16 then d.positional
  else
    let power := point - 1
    let mantissa := match written with
      | [] => []
      | [c] => [c]
      | c :: rest => c :: '.' :: rest
    mantissa ++ 'e' :: (if power < 0 then '-' else '+') :: digitsOf power.natAbs

end Decimal

namespace Binary64

/-- Puts the sign in front of the text of a finite value, and names the values that are not. -/
def signed (x : Binary64) (size : List Char) : String :=
  let sign := if x.isNegative then ['-'] else []
  if x.isFinite then String.ofList (sign ++ size)
  else if x.fraction = 0 then String.ofList (sign ++ "inf".toList)
  else "NaN"

/-- The fewest digits that read back, without an exponent. -/
def plain (x : Binary64) : String :=
  x.signed (if x.significand = 0 then ['0'] else (x.shortest .upper).positional)

/-- The fewest digits that read back, with an exponent where they would stand far from the
point. -/
def scientific (x : Binary64) : String :=
  x.signed (if x.significand = 0 then "0.0".toList else (x.shortest .even).scientific)

/-- The exact value, rounded to the given number of places. -/
def fixed (x : Binary64) (places : Nat) : String :=
  let num := x.significand * Nat.pow 2 x.exponent.toNat * Nat.pow 10 places
  x.signed (placed (roundHalfEven num (Nat.pow 2 (-x.exponent).toNat)) places)

/-- The value with at most fifteen digits, without zeros at the end but always with a point
and a digit behind it. An exponent of at least two digits follows when the first digit stands more
than fifteen places before or four places after the point. A zero has no sign. -/
def general (x : Binary64) : String :=
  let d := x.scaledDecimal.cut 15
  let written := digitsOf d.digits
  let power : Int := written.length + d.exponent - 1
  let kept := (written.reverse.dropWhile (· = '0')).reverse
  let orZero (digits : List Char) := if digits = [] then ['0'] else digits
  if x.significand = 0 then "0.0"
  else x.signed <|
    if power < -4 ∨ 14 < power then
      let size := digitsOf power.natAbs
      kept.take 1 ++ '.' :: orZero (kept.drop 1) ++ 'e' :: (if power < 0 then '-' else '+') ::
        (List.replicate (2 - size.length) '0' ++ size)
    else if power < 0 then '0' :: '.' :: (List.replicate (-power - 1).toNat '0' ++ kept)
    else
      let whole := power.toNat + 1
      kept.take whole ++ List.replicate (whole - kept.length) '0' ++ '.' :: orZero (kept.drop whole)

end Binary64

end OpTrace
