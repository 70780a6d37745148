import LockDiscipline.Number.Binary64
/-!
# Literal values

What the text of a literal denotes. Integers are read without a sign and take the value of the same
64 bits in two's complement, so that hexadecimal masks keep their bits. Escapes are decoded by
recursion on the text behind the backslash; a text with a malformed escape denotes nothing.
-/

namespace LockDiscipline.Literal

/-- The value of a digit in a base up to sixteen. -/
def digitValue? (base : Nat) (c : Char) : Option Nat :=
  let value? : Option Nat :=
    if '0' ≤ c ∧ c ≤ '9' then some (c.toNat - '0'.toNat)
    else if 'a' ≤ c ∧ c ≤ 'f' then some (c.toNat - 'a'.toNat + 10)
    else if 'A' ≤ c ∧ c ≤ 'F' then some (c.toNat - 'A'.toNat + 10)
    else none
  value?.filter (· < base)

/-- The number that digits denote after those already read. -/
def digitsValue? (base value : Nat) : List Char → Option Nat
  | [] => some value
  | c :: rest => do digitsValue? base (base * value + (← digitValue? base c)) rest

/-- The number that a nonempty digit string denotes. -/
def natural? (base : Nat) (digits : List Char) : Option Nat :=
  if digits.isEmpty then none else digitsValue? base 0 digits

/-- Digits without the underscores between them. -/
def withoutUnderscores (digits : List Char) : List Char :=
  digits.filter (· ≠ '_')

/-- The 64-bit integer with the bits of a digit string, if it fits into 64 bits. -/
def integer? (base : Nat) (digits : List Char) : Option Int64 := do
  let value ← natural? base (withoutUnderscores digits)
  if value < Nat.pow 2 64 then some (UInt64.ofNat value).toInt64 else none

/-- A decimal digit string with a leading zero and more digits is octal. -/
def decimalInteger? (digits : List Char) : Option Int64 :=
  match withoutUnderscores digits with
  | '0' :: _ :: _ => integer? 8 digits
  | _ => integer? 10 digits

/-- The decimal number that digits with a point and an exponent denote, as a digit string and a
power of ten. -/
def decimalParts (text : List Char) : Nat × Int :=
  let isExponentMark (c : Char) : Bool := c == 'e' || c == 'E'
  let mantissa := text.takeWhile (fun c => !isExponentMark c)
  let exponentText := (text.dropWhile (fun c => !isExponentMark c)).drop 1
  let whole := mantissa.takeWhile (· ≠ '.')
  let fraction := (mantissa.dropWhile (· ≠ '.')).drop 1
  let exponent : Int := match exponentText with
    | '-' :: digits => -((digitsValue? 10 0 digits).getD 0 : Int)
    | '+' :: digits => (digitsValue? 10 0 digits).getD 0
    | digits => (digitsValue? 10 0 digits).getD 0
  ((digitsValue? 10 0 (whole ++ fraction)).getD 0, exponent - fraction.length)

/-- The value of a floating literal without its type suffix. -/
def floating (text : List Char) : Binary64 :=
  let (digits, exponent) := decimalParts (withoutUnderscores text)
  Binary64.ofDecimal digits exponent

/-- The character with a code point, unless that is a surrogate or too large. -/
def charOfCode? (code : Nat) : Option Char :=
  if code.isValidChar then some (Char.ofNat code) else none

/-- The escapes of one letter. -/
def simpleEscape? : Char → Option Char
  | 'n' => some '\n'
  | 'r' => some '\r'
  | 't' => some '\t'
  | 'b' => some '\x08'
  | 'f' => some '\x0c'
  | 's' => some ' '
  | '\\' => some '\\'
  | '\'' => some '\''
  | '"' => some '"'
  | _ => none

/-- The code point that up to four hexadecimal digits denote; one plus sign may stand before
them. -/
def unicodeCode? : List Char → Option Nat
  | '+' :: digits => natural? 16 digits
  | digits => natural? 16 digits

/-- The value of an octal escape whose first digit is known, and how many further digits it takes:
two at most, and none that would lead beyond 255. -/
def octalEscape (first : Nat) : List Char → Nat × Nat
  | [] => (first, 0)
  | second :: rest =>
      match digitValue? 8 second with
      | none => (first, 0)
      | some d =>
          let value := 8 * first + d
          match rest with
          | [] => (value, 1)
          | third :: _ =>
              match digitValue? 8 third with
              | some e => if 8 * value + e ≤ 255 then (8 * value + e, 2) else (value, 1)
              | none => (value, 1)

/-- Decode a text from the point where `skip` more characters belong to an escape already read. -/
def decodeFrom? : Nat → List Char → Option (List Char)
  | _, [] => some []
  | skip + 1, _ :: rest => decodeFrom? skip rest
  | 0, '\\' :: rest =>
      match rest with
      | [] => none
      | 'u' :: _ =>
          let digits := rest.dropWhile (· == 'u')
          let taken := digits.take 4
          match (unicodeCode? taken).bind charOfCode? with
          | none => none
          | some c =>
              (decodeFrom? (rest.length - digits.length + taken.length) rest).map (c :: ·)
      | letter :: more =>
          match simpleEscape? letter with
          | some c => (decodeFrom? 1 rest).map (c :: ·)
          | none =>
              match digitValue? 8 letter with
              | none => none
              | some d =>
                  let (code, further) := octalEscape d more
                  (decodeFrom? (1 + further) rest).map (Char.ofNat code :: ·)
  | 0, c :: rest => (decodeFrom? 0 rest).map (c :: ·)

/-- The characters that the text between the quotes of a literal denotes. -/
def decode? (body : List Char) : Option (List Char) :=
  decodeFrom? 0 body

end LockDiscipline.Literal
