import Mathlib

/-!
# JSON values

What `json.loads` returns.  Integers and floats are different types of the host
language, and a float may be infinite or not a number.
-/

namespace Pallium

/-- A number as the host language reads it. -/
inductive Number
  | int (value : ℤ)
  | float (value : ℚ)
  | infinite (negative : Bool)
  | notANumber
deriving DecidableEq

/-- `math.isfinite`. -/
def Number.isFinite : Number → Bool
  | int _ => true
  | float _ => true
  | infinite _ => false
  | notANumber => false

/-- `value == count` for an integer. -/
def Number.equals (count : ℤ) : Number → Bool
  | int value => value == count
  | float value => value == count
  | infinite _ => false
  | notANumber => false

inductive Json
  | null
  | bool (value : Bool)
  | number (value : Number)
  | string (value : String)
  | array (items : List Json)
  | object (fields : List (String × Json))

namespace Json

mutual

/-- Two values read from the same text. -/
def same : Json → Json → Bool
  | null, null => true
  | bool value, bool other => value == other
  | number value, number other => value == other
  | string value, string other => value == other
  | array items, array others => sameItems items others
  | object fields, object others => sameFields fields others
  | _, _ => false

def sameItems : List Json → List Json → Bool
  | [], [] => true
  | item :: items, other :: others => same item other && sameItems items others
  | _, _ => false

def sameFields : List (String × Json) → List (String × Json) → Bool
  | [], [] => true
  | (name, value) :: fields, (other, found) :: others =>
    name == other && same value found && sameFields fields others
  | _, _ => false

end

/-- The fields of a `dict`. -/
def fields? : Json → Option (List (String × Json))
  | object fields => some fields
  | _ => none

/-- `fields[name]`, if there is one. -/
def lookup (fields : List (String × Json)) (name : String) : Option Json :=
  (fields.find? fun field => field.1 == name).map Prod.snd

/-- `fields.get(name)`. -/
def getD (fields : List (String × Json)) (name : String) : Json :=
  (lookup fields name).getD null

/-- `name in fields`. -/
def has (fields : List (String × Json)) (name : String) : Bool := (lookup fields name).isSome

def text? : Json → Option String
  | string value => some value
  | _ => none

def bool? : Json → Option Bool
  | bool value => some value
  | _ => none

def optionalText : Option String → Json
  | none => null
  | some value => string value

/-- A text or `None`; any other value is no answer. -/
def optionalText? : Json → Option (Option String)
  | null => some none
  | string value => some (some value)
  | _ => none

/-- `value == text`. -/
def isText (value : Json) (text : String) : Bool := value.text? == some text

/-- `value == flag`, where the numbers one and zero equal the truth values. -/
def equalsBool (value : Json) (flag : Bool) : Bool :=
  match value with
  | bool found => found == flag
  | number found => found.equals (if flag then 1 else 0)
  | _ => false

/-- `value == 1`. -/
def isOne : Json → Bool
  | bool value => value
  | number value => value.equals 1
  | _ => false

@[simp]
theorem optionalText?_optionalText (value : Option String) :
    (optionalText value).optionalText? = some value := by
  cases value <;> rfl

end Json

end Pallium
