/-!
# Binary numbers of 64 bits

A number that is not whole is kept as the 64 bits of its binary form: a sign, an exponent field of
eleven bits and a fraction of 52 bits. A finite value is exactly `significand * 2 ^ exponent`, up
to its sign, and all text is made from these two integers.
-/

namespace OpTrace

/-- A binary number, given by its bits. -/
structure Binary64 where
  bits : UInt64
  deriving DecidableEq, Repr

namespace Binary64

def ofFloat (x : Float) : Binary64 := ⟨x.toBits⟩

def toFloat (x : Binary64) : Float := Float.ofBits x.bits

def isNegative (x : Binary64) : Bool := x.bits >>> 63 == 1

def exponentField (x : Binary64) : Nat := ((x.bits >>> 52) &&& 0x7FF).toNat

def fraction (x : Binary64) : Nat := (x.bits &&& 0xFFFFFFFFFFFFF).toNat

/-- Neither an infinity nor a value that is no number. -/
def isFinite (x : Binary64) : Bool := x.exponentField != 0x7FF

/-- The whole number that the exponent scales; values too small for the leading bit lack it. -/
def significand (x : Binary64) : Nat :=
  if x.exponentField = 0 then x.fraction else Nat.pow 2 52 + x.fraction

/-- The power of two that scales the significand. -/
def exponent (x : Binary64) : Int :=
  if x.exponentField = 0 then -1074 else (x.exponentField : Int) - 1075

/-- The value below is only half as far away as the value above. -/
def isNarrowBelow (x : Binary64) : Bool := x.fraction == 0 && x.exponentField > 1

def equalsInt (x : Binary64) (n : Int) : Bool :=
  let signed : Int := if x.isNegative then -(x.significand : Int) else x.significand
  x.isFinite && signed * Int.pow 2 x.exponent.toNat == n * Int.pow 2 (-x.exponent).toNat

def le (x y : Binary64) : Bool :=
  let scaled (z : Binary64) : Int :=
    (if z.isNegative then -(z.significand : Int) else z.significand) *
      Int.pow 2 (z.exponent + 1074).toNat
  scaled x ≤ scaled y

end Binary64

end OpTrace
