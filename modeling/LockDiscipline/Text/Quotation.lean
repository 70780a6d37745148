import LockDiscipline.Text.Hidden
/-!
# Quotations

Texts and characters in quotes, so that every character can be told: the quote itself and the usual
control characters are escaped, and what cannot be shown on its own is given by number.
-/

namespace LockDiscipline.Text

/-- A character by its number. -/
def numberEscape (c : Char) : String :=
  "\\u\x7b" ++ String.ofList (Nat.toDigits 16 c.toNat) ++ "\x7d"

/-- A character inside quotes of a kind. -/
def quotedChar (quote c : Char) : String :=
  if c = quote ∨ c = '\\' then String.ofList ['\\', c]
  else if c = '\n' then "\\n"
  else if c = '\r' then "\\r"
  else if c = '\t' then "\\t"
  else if c = '\x00' then "\\0"
  else if 0x20 ≤ c.toNat ∧ c.toNat < 0x7f then String.singleton c
  else if hiddenChars.contains c then numberEscape c
  else String.singleton c

/-- A text in double quotes. -/
def quotation (text : String) : String :=
  "\"" ++ String.join (text.toList.map (quotedChar '"')) ++ "\""

/-- A character in single quotes. -/
def charQuotation (c : Char) : String :=
  "'" ++ quotedChar '\'' c ++ "'"

end LockDiscipline.Text
