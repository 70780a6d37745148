import LockDiscipline.Number.Binary64
/-!
# The shortest decimal text of a binary number

A finite value is the one nearest to every decimal in an interval around it. `Binary64.shortest?`
finds the fewest digits for which some decimal lies in the interval, and of those the one nearest to
the value. `Binary64.render` lays the digits out by a `DecimalLayout`.
-/

namespace LockDiscipline.Binary64

/-- A positive finite value with the ends of the interval that rounds to it, as fractions with one
denominator. The ends belong to the interval exactly for an even significand. -/
structure RoundingInterval where
  lower : Nat
  value : Nat
  upper : Nat
  denominator : Nat
  closed : Bool

/-- The interval of a positive finite value. Below a power of two the neighbours are twice as
close, except at the bottom of the range. -/
def roundingInterval (number : Binary64) : RoundingInterval :=
  let (significand, exponent) := number.decode
  let scaled : Nat × Nat :=
    if 0 ≤ exponent then (Nat.pow 2 exponent.toNat, 4) else (1, 4 * Nat.pow 2 (-exponent).toNat)
  let below := if significand = Nat.pow 2 52 ∧ leastExponent < exponent then 1 else 2
  { lower := (4 * significand - below) * scaled.1
    value := 4 * significand * scaled.1
    upper := (4 * significand + 2) * scaled.1
    denominator := scaled.2
    closed := significand % 2 == 0 }

/-- Whether `digits` times ten to the power `exponent` lies in the interval. -/
def RoundingInterval.admits (interval : RoundingInterval) (digits : Nat) (exponent : Int) :
    Bool :=
  let grown := if 0 ≤ exponent then digits * Nat.pow 10 exponent.toNat * interval.denominator
    else digits * interval.denominator
  let scale := if 0 ≤ exponent then 1 else Nat.pow 10 (-exponent).toNat
  if interval.closed then interval.lower * scale ≤ grown && grown ≤ interval.upper * scale
  else interval.lower * scale < grown && grown < interval.upper * scale

/-- The candidate of the decimal grid with step ten to the power `exponent`: of the two neighbours
of the value on the grid those in the interval, and of two the nearer. -/
def RoundingInterval.candidate? (interval : RoundingInterval) (exponent : Int) : Option Nat :=
  let top := if 0 ≤ exponent then interval.value else interval.value * Nat.pow 10 (-exponent).toNat
  let bottom := if 0 ≤ exponent then interval.denominator * Nat.pow 10 exponent.toNat
    else interval.denominator
  let below := top / bottom
  match interval.admits below exponent, interval.admits (below + 1) exponent with
  | true, true => some (if 2 * (top % bottom) ≤ bottom then below else below + 1)
  | true, false => some below
  | false, true => some (below + 1)
  | false, false => none

/-- The power of ten of the leading digit of a positive fraction, by search around an estimate from
the bit lengths. -/
def leadingPower (numerator denominator : Nat) : Int :=
  let estimate : Int :=
    Int.fdiv (((numerator.log2 : Int) - (denominator.log2 : Int)) * 30103) 100000 + 2
  let reaches (power : Int) : Bool :=
    if 0 ≤ power then denominator * Nat.pow 10 power.toNat ≤ numerator
    else denominator ≤ numerator * Nat.pow 10 (-power).toNat
  let rec descend : Nat → Int → Int
    | 0, power => power
    | steps + 1, power => if reaches power then power else descend steps (power - 1)
  descend 6 estimate

/-- The first grid, from coarse to fine, on which the interval has a candidate. -/
def firstCandidate? (interval : RoundingInterval) (leading : Int) :
    List Nat → Option (Nat × Int)
  | [] => none
  | places :: finer =>
      let exponent := leading + 1 - (places : Int)
      match interval.candidate? exponent with
      | some digits => some (digits, exponent)
      | none => firstCandidate? interval leading finer

/-- The shortest digits and their power of ten for a positive finite value. Seventeen digits always
suffice. -/
def shortest? (number : Binary64) : Option (Nat × Int) :=
  let interval := number.roundingInterval
  firstCandidate? interval (leadingPower interval.value interval.denominator)
    ((List.range 17).map (· + 1))

/-- How the digits of a number are laid out. The position of the point counts the digits before
it. -/
structure DecimalLayout where
  /-- The point positions that are written without an exponent. -/
  positionalFrom : Int
  positionalTo : Int
  /-- A whole number written without an exponent keeps a zero behind the point. -/
  keepFraction : Bool
  exponentMark : String
  infinity : String

/-- Digits with the point behind the first `position` of them, zeros filled in on either side. -/
def positional (keepFraction : Bool) (digits : List Char) (position : Int) : String :=
  let count : Int := digits.length
  if position ≤ 0 then
    String.ofList ('0' :: '.' :: List.replicate (-position).toNat '0' ++ digits)
  else if count ≤ position then
    String.ofList (digits ++ List.replicate (position - count).toNat '0' ++
      (if keepFraction then ['.', '0'] else []))
  else
    String.ofList (digits.take position.toNat ++ '.' :: digits.drop position.toNat)

/-- The first digit, a point before the others if there are any, and the exponent. -/
def scientific (mark : String) (digits : List Char) (position : Int) : String :=
  let mantissa := match digits with
    | first :: second :: rest => first :: '.' :: second :: rest
    | short => short
  String.ofList mantissa ++ mark ++ toString (position - 1)

/-- Digits without the zeros at their end. -/
def significantDigits (digits : Nat) : List Char :=
  ((Nat.toDigits 10 digits).reverse.dropWhile (· == '0')).reverse

/-- The text of a nonnegative value in a layout. -/
def render (layout : DecimalLayout) (number : Binary64) : String :=
  if number.isInfinite then layout.infinity
  else if number.bits = 0 then if layout.keepFraction then "0.0" else "0"
  else match number.shortest? with
    | none => ""
    | some (digits, exponent) =>
        let position := ((Nat.toDigits 10 digits).length : Int) + exponent
        let shown := significantDigits digits
        if layout.positionalFrom ≤ position ∧ position ≤ layout.positionalTo then
          positional layout.keepFraction shown position
        else scientific layout.exponentMark shown position

end LockDiscipline.Binary64
