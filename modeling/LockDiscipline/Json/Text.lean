/-!
# Writing JSON

Values are written over several lines: one item or field a line, two more blanks of indentation at
each depth, and nothing inside an empty list or record. Strings escape only what has to be escaped.
-/

namespace LockDiscipline

/-- A value of a JSON report. The fields of a record keep their order. -/
inductive JsonValue where
  | nat (value : Nat)
  | bool (value : Bool)
  | string (text : String)
  | list (items : List JsonValue)
  | record (fields : List (String × JsonValue))
deriving Inhabited

namespace JsonValue

/-- A byte as two hexadecimal digits in lower case. -/
def hexByte (value : Nat) : String :=
  String.ofList [Nat.digitChar (value / 16), Nat.digitChar (value % 16)]

/-- A character inside a quoted string. -/
def escape (c : Char) : String :=
  if c = '"' then "\\\""
  else if c = '\\' then "\\\\"
  else if c = '\n' then "\\n"
  else if c = '\r' then "\\r"
  else if c = '\t' then "\\t"
  else if c = '\x08' then "\\b"
  else if c = '\x0c' then "\\f"
  else if c.toNat < 0x20 then "\\u00" ++ hexByte c.toNat
  else String.singleton c

/-- A text as a quoted string. -/
def quote (text : String) : String :=
  "\"" ++ String.join (text.toList.map escape) ++ "\""

/-- The start of a new line at a depth. -/
def newline (depth : Nat) : String :=
  "\n" ++ String.ofList (List.replicate (2 * depth) ' ')

mutual

/-- A value at a depth. -/
def textAt (depth : Nat) : JsonValue → String
  | .nat value => toString value
  | .bool value => if value then "true" else "false"
  | .string text => quote text
  | .list [] => "[]"
  | .list (item :: rest) =>
      "[" ++ newline (depth + 1) ++ textAt (depth + 1) item ++ restOfItems (depth + 1) rest ++
        newline depth ++ "]"
  | .record [] => "\x7b\x7d"
  | .record ((name, value) :: rest) =>
      "\x7b" ++ newline (depth + 1) ++ quote name ++ ": " ++ textAt (depth + 1) value ++
        restOfFields (depth + 1) rest ++ newline depth ++ "\x7d"

/-- The items behind the first one, each on a line of its own. -/
def restOfItems (depth : Nat) : List JsonValue → String
  | [] => ""
  | item :: rest => "," ++ newline depth ++ textAt depth item ++ restOfItems depth rest

/-- The fields behind the first one, each on a line of its own. -/
def restOfFields (depth : Nat) : List (String × JsonValue) → String
  | [] => ""
  | (name, value) :: rest =>
      "," ++ newline depth ++ quote name ++ ": " ++ textAt depth value ++ restOfFields depth rest

end

/-- The text of a value. -/
def text (value : JsonValue) : String :=
  value.textAt 0

end JsonValue
end LockDiscipline
