import Mathlib

/-!
# Compact JSON

The text of `json.dumps` with `ensure_ascii=False` and without blanks, built
from the texts of the parts.
-/

namespace Pallium.JsonText

/-- Lower-case hexadecimal digit. -/
def hexDigit (value : ℕ) : Char :=
  if value < 10 then Char.ofNat (48 + value) else Char.ofNat (87 + value)

/-- A character as it stands in a JSON string. -/
def escape (c : Char) : List Char :=
  if c = '"' then ['\\', '"']
  else if c = '\\' then ['\\', '\\']
  else if c = '\n' then ['\\', 'n']
  else if c = '\r' then ['\\', 'r']
  else if c = '\t' then ['\\', 't']
  else if c.toNat = 8 then ['\\', 'b']
  else if c.toNat = 12 then ['\\', 'f']
  else if c.toNat < 32 then
    ['\\', 'u', '0', '0', hexDigit (c.toNat / 16), hexDigit (c.toNat % 16)]
  else [c]

def text (value : String) : String :=
  "\"" ++ String.ofList (value.toList.flatMap escape) ++ "\""

def integer (value : ℤ) : String := toString value

def boolean (value : Bool) : String := if value then "true" else "false"

/-- `null` for a missing value. -/
def nullable {α : Type} (render : α → String) : Option α → String
  | none => "null"
  | some value => render value

def array (items : List String) : String := "[" ++ ",".intercalate items ++ "]"

/-- An object from its keys and the texts of its values. -/
def object (fields : List (String × String)) : String :=
  "\x7b" ++ ",".intercalate (fields.map fun field => text field.1 ++ ":" ++ field.2) ++ "\x7d"

example : object [("a", text "x\ny"), ("b", array [integer 3, nullable integer none])] =
    "\x7b\"a\":\"x\\ny\",\"b\":[3,null]\x7d" := by decide

end Pallium.JsonText
