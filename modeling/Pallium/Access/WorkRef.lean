import Pallium.Core.Json
import Pallium.Core.Text

/-!
# Work references

The work references that metadata name, in their normal form: case folded, with
every run of separators written as one hyphen, without repetitions and at most
five of them.  Case folding and redaction are given.
-/

namespace Pallium.Access

open Pallium.Text

/-- The text functions by which work references are read. -/
structure WorkRefRules where
  casefold : String → String
  redactSensitive : String → String

/-- A character of `[\s_\-]`. -/
def isSeparator (c : Char) : Bool := isSpace c || c == '_' || c == '-'

/-- `_WORK_REF_SEPARATOR_RE.sub("-", ·)`, given whether a run has begun. -/
def collapseSeparators : Bool → List Char → List Char
  | _, [] => []
  | inside, c :: rest =>
    if isSeparator c then
      if inside then collapseSeparators true rest else '-' :: collapseSeparators true rest
    else c :: collapseSeparators false rest

/-- `str.strip("-")`. -/
def stripHyphens (chars : List Char) : List Char :=
  ((chars.dropWhile (· == '-')).reverse.dropWhile (· == '-')).reverse

def WorkRefRules.normalizeWorkRef (rules : WorkRefRules) (raw : String) : Option String :=
  let value := rules.casefold (strip raw)
  if value = "" ∨ 128 < value.length then none
  else
    let chars := stripHyphens (collapseSeparators false value.toList)
    if chars = [] then none else some (String.ofList chars)

def maxWorkRefs : ℕ := 5

/-- The loop of `_normalize_work_refs` after the references found before. -/
def WorkRefRules.collectWorkRefs (rules : WorkRefRules) (found : List String) :
    List String → List String
  | [] => found
  | item :: rest =>
    match rules.normalizeWorkRef item with
    | none => rules.collectWorkRefs found rest
    | some normalized =>
      if normalized ∈ found then rules.collectWorkRefs found rest
      else if (found ++ [normalized]).length = maxWorkRefs then found ++ [normalized]
      else rules.collectWorkRefs (found ++ [normalized]) rest

/-- Whether the `safe` list of `work_refs_from_metadata` takes the text. -/
def WorkRefRules.isSafe (rules : WorkRefRules) (item : String) : Bool :=
  !item.toList.contains '\x00' && !item.toList.tails.any "[REDACTED".toList.isPrefixOf &&
    rules.redactSensitive item == item

def WorkRefRules.workRefsFromMetadata (rules : WorkRefRules) (metadata : Option Json) :
    List String :=
  match (metadata.bind Json.fields?).bind (Json.lookup · "pallium_work_refs") with
  | some (.array items) => rules.collectWorkRefs [] ((items.filterMap Json.text?).filter rules.isSafe)
  | _ => []

variable {rules : WorkRefRules}

end Pallium.Access
