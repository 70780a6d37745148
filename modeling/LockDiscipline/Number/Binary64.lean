/-!
# Binary floating point

Floating literals denote numbers of the 64-bit binary format. A value is kept as its bit pattern,
which decides equality and needs no machine arithmetic. `Binary64.ofDecimal` reads a decimal number
exactly: the nearest representable value, the even one of two at equal distance.
-/

namespace LockDiscipline

/-- A number of the 64-bit binary format, by its bit pattern. -/
structure Binary64 where
  bits : UInt64
deriving DecidableEq, Repr, Inhabited

namespace Binary64

/-- The least exponent of two: subnormal numbers are multiples of two to this power. -/
def leastExponent : Int := -1074

/-- The bit pattern of positive infinity. -/
def infinityBits : Nat := 2047 * Nat.pow 2 52

/-- The quotient of two natural numbers rounded to the nearest one, a half to the even one. -/
def roundDiv (numerator denominator : Nat) : Nat :=
  let quotient := numerator / denominator
  let twice := 2 * (numerator % denominator)
  if twice < denominator then quotient
  else if denominator < twice then quotient + 1
  else if quotient % 2 = 0 then quotient else quotient + 1

/-- The greatest power of two, as an exponent, that does not exceed a positive fraction. -/
def floorLog2 (numerator denominator : Nat) : Int :=
  let guess : Int := (numerator.log2 : Int) - (denominator.log2 : Int)
  let reached : Bool :=
    if 0 ≤ guess then denominator * Nat.pow 2 guess.toNat ≤ numerator
    else denominator ≤ numerator * Nat.pow 2 (-guess).toNat
  if reached then guess else guess - 1

/-- The bit pattern of a positive fraction. The significand is rounded to the unit of the binade, at
least `leastExponent`; a carry out of it lands in the exponent field, which is where it belongs. -/
def fractionBits (numerator denominator : Nat) : Nat :=
  let exponent := max (floorLog2 numerator denominator - 52) leastExponent
  let significand :=
    if 0 ≤ exponent then roundDiv numerator (denominator * Nat.pow 2 exponent.toNat)
    else roundDiv (numerator * Nat.pow 2 (-exponent).toNat) denominator
  min infinityBits ((exponent - leastExponent).toNat * Nat.pow 2 52 + significand)

/-- The number of decimal digits of a natural number; zero has none. -/
def digitCount (number : Nat) : Nat :=
  if number = 0 then 0 else (Nat.toDigits 10 number).length

/-- The value nearest to `digits` times ten to the power `exponent`. Beyond 310 places before the
point every number is infinite and beyond 330 behind it every number is zero, so that no power of
ten larger than that is ever computed. -/
def ofDecimal (digits : Nat) (exponent : Int) : Binary64 :=
  let magnitude := (digitCount digits : Int) + exponent
  if digits = 0 ∨ magnitude < -330 then ⟨0⟩
  else if 310 < magnitude then ⟨UInt64.ofNat infinityBits⟩
  else if 0 ≤ exponent then ⟨UInt64.ofNat (fractionBits (digits * Nat.pow 10 exponent.toNat) 1)⟩
  else ⟨UInt64.ofNat (fractionBits digits (Nat.pow 10 (-exponent).toNat))⟩

/-- The significand and the exponent of two of a finite nonnegative value. -/
def decode (value : Binary64) : Nat × Int :=
  let bits := value.bits.toNat
  let field := bits / Nat.pow 2 52
  if field = 0 then (bits % Nat.pow 2 52, leastExponent)
  else (bits % Nat.pow 2 52 + Nat.pow 2 52, leastExponent + (field - 1 : Nat))

/-- The value nearest to a nonnegative fraction times a power of two. -/
def ofScaled (numerator denominator : Nat) (exponent : Int) : Binary64 :=
  if numerator = 0 then ⟨0⟩
  else if 0 ≤ exponent then
    ⟨UInt64.ofNat (fractionBits (numerator * Nat.pow 2 exponent.toNat) denominator)⟩
  else ⟨UInt64.ofNat (fractionBits numerator (denominator * Nat.pow 2 (-exponent).toNat))⟩

/-- The product of two finite nonnegative values, rounded once. -/
def mul (first second : Binary64) : Binary64 :=
  let (significand, exponent) := first.decode
  let (otherSignificand, otherExponent) := second.decode
  ofScaled (significand * otherSignificand) 1 (exponent + otherExponent)

/-- The quotient of a finite nonnegative value and a finite positive one, rounded once. -/
def div (first second : Binary64) : Binary64 :=
  let (significand, exponent) := first.decode
  let (otherSignificand, otherExponent) := second.decode
  ofScaled significand otherSignificand (exponent - otherExponent)

/-- Whether the value is positive infinity. -/
def isInfinite (value : Binary64) : Bool :=
  value.bits.toNat == infinityBits

end Binary64
end LockDiscipline
