import LockDiscipline.Number.Shortest
/-!
# Numbers in JSON

A number without a point and an exponent that fits into 64 bits is an integer; every other number is
a floating value. A floating value keeps as many digits as fit into 64 bits and is scaled by a power
of ten in one rounded step, so it is not always the nearest one.
-/

namespace LockDiscipline

/-- A number of a JSON text. -/
inductive JsonNumber where
  | integer (value : Int)
  | floating (negative : Bool) (magnitude : Binary64)
deriving DecidableEq, Repr, Inhabited

namespace JsonNumber

/-- The layout of floating numbers in messages. -/
def layout : Binary64.DecimalLayout :=
  ⟨-4, 16, true, "e", "inf"⟩

/-- A number as messages show it. -/
def text : JsonNumber → String
  | .integer value => toString value
  | .floating negative magnitude =>
      (if negative then "-" else "") ++ Binary64.render layout magnitude

/-- The greatest number of 64 bits. -/
def greatestWord : Nat := Nat.pow 2 64 - 1

/-- Digits read so far: the number that they denote, the power of ten of the last one, and whether a
digit was left out because the number would not have fitted. -/
structure Digits where
  value : Nat
  exponent : Int
  full : Bool
deriving DecidableEq, Repr, Inhabited

namespace Digits

/-- No digits. -/
def none : Digits := ⟨0, 0, false⟩

/-- The number with one more digit. -/
def grown (digits : Digits) (c : Char) : Nat :=
  10 * digits.value + (c.toNat - '0'.toNat)

/-- One more digit before the point. Behind a digit that was left out, all are. -/
def whole (digits : Digits) (c : Char) : Digits :=
  if digits.full || greatestWord < digits.grown c then
    { digits with exponent := digits.exponent + 1, full := true }
  else { digits with value := digits.grown c }

/-- One more digit behind the point. Behind a digit that was left out, all are. -/
def part (digits : Digits) (c : Char) : Digits :=
  if digits.full || greatestWord < digits.grown c then { digits with full := true }
  else { digits with value := digits.grown c, exponent := digits.exponent - 1 }

/-- Digits before the point and behind it. -/
def ofParts (whole part : List Char) : Digits :=
  let before := whole.foldl Digits.whole none
  part.foldl Digits.part { before with full := false }

end Digits

/-- The exponent of the greatest power of ten that is a floating value. -/
def greatestPower : Nat := 308

/-- A value divided by ten to a power, at most `greatestPower` of it at a time. A value that has
become zero stays zero, so four steps are as many as it takes. -/
def scaleDown : (steps : Nat) → Binary64 → Nat → Binary64
  | 0, value, _ => value
  | steps + 1, value, power =>
      if power ≤ greatestPower then value.div (.ofDecimal 1 power)
      else scaleDown steps (value.div (.ofDecimal 1 greatestPower)) (power - greatestPower)

/-- A floating value from its digits and a power of ten, if it is in range. -/
def floating? (negative : Bool) (value : Nat) (exponent : Int) : Option JsonNumber :=
  let start := Binary64.ofDecimal value 0
  if value = 0 then some (.floating negative start)
  else if exponent < 0 then some (.floating negative (scaleDown 4 start (-exponent).toNat))
  else if (greatestPower : Int) < exponent then none
  else
    let scaled := start.mul (.ofDecimal 1 exponent)
    if scaled.isInfinite then none else some (.floating negative scaled)

/-- A number without a point and an exponent. A negative zero is a floating value. -/
def whole? (negative : Bool) (digits : List Char) : Option JsonNumber :=
  let read := digits.foldl Digits.whole .none
  let value : Int := if negative then -(read.value : Int) else read.value
  if read.full || (negative && (read.value = 0 || Nat.pow 2 63 < read.value)) then
    floating? negative read.value read.exponent
  else some (.integer value)

/-- The number that digits denote. -/
def natural (digits : List Char) : Nat :=
  digits.foldl (fun value c => 10 * value + (c.toNat - '0'.toNat)) 0

/-- The digits at the start of a text, and the rest. -/
def spanDigits (text : List Char) : List Char × List Char :=
  text.span Char.isDigit

/-- The power of ten behind an exponent mark, and the rest. -/
def readPower? (text : List Char) : Option (Int × List Char) :=
  let (negative, text) := match text with
    | '-' :: rest => (true, rest)
    | '+' :: rest => (false, rest)
    | _ => (false, text)
  match spanDigits text with
  | ([], _) => none
  | (digits, rest) =>
      let power : Int := natural digits
      some (if negative then -power else power, rest)

/-- A number from its digits, with the exponent that may follow. -/
def readExponent? (negative : Bool) (digits : Digits) (text : List Char) :
    Option (JsonNumber × List Char) := do
  let (power, rest) ← match text with
    | 'e' :: rest | 'E' :: rest => readPower? rest
    | _ => some (0, text)
  return (← floating? negative digits.value (digits.exponent + power), rest)

/-- A number behind its sign, and the rest of the text. -/
def readMagnitude? (negative : Bool) (text : List Char) : Option (JsonNumber × List Char) :=
  let (digits, rest) := spanDigits text
  match digits, rest with
  | [], _ | '0' :: _ :: _, _ => none
  | _, '.' :: rest =>
      match spanDigits rest with
      | ([], _) => none
      | (part, rest) => readExponent? negative (.ofParts digits part) rest
  | _, 'e' :: _ | _, 'E' :: _ => readExponent? negative (.ofParts digits []) rest
  | _, _ => (whole? negative digits).map (·, rest)

/-- A number at the start of a text, and the rest. -/
def read? : List Char → Option (JsonNumber × List Char)
  | '-' :: rest => readMagnitude? true rest
  | text => readMagnitude? false text

end JsonNumber
end LockDiscipline
