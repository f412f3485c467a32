import Mathlib

/-!
# Text operations of the host language

`strip` removes leading and trailing white space, where white space is what
`str.isspace` accepts.
-/

namespace Pallium.Text

variable {text : String}

/-- `str.isspace` of a single character. -/
def isSpace (c : Char) : Bool :=
  let code := c.toNat
  (9 ≤ code && code ≤ 13) || (28 ≤ code && code ≤ 32) || code == 0x85 || code == 0xA0 ||
    code == 0x1680 || (0x2000 ≤ code && code ≤ 0x200A) || code == 0x2028 || code == 0x2029 ||
    code == 0x202F || code == 0x205F || code == 0x3000

/-- The characters left by `str.strip`. -/
def stripped (text : String) : List Char :=
  ((text.toList.dropWhile isSpace).reverse.dropWhile isSpace).reverse

/-- `str.strip`. -/
def strip (text : String) : String := String.ofList (stripped text)

/-- `len(text.strip())`. -/
def strippedLength (text : String) : ℕ := (stripped text).length

/-- `text[:count]`. -/
def take (count : ℕ) (text : String) : String := String.ofList (text.toList.take count)

/-- `text[count:]`. -/
def drop (count : ℕ) (text : String) : String := String.ofList (text.toList.drop count)

variable (count : ℕ)

theorem take_append_drop (text : String) : take count text ++ drop count text = text := by
  rw [take, drop, ← String.ofList_append, List.take_append_drop, String.ofList_toList]

theorem drop_zero (text : String) : drop 0 text = text := by
  rw [drop, List.drop_zero, String.ofList_toList]

theorem drop_drop (other : ℕ) (text : String) :
    drop count (drop other text) = drop (other + count) text := by
  rw [drop, drop, drop, String.toList_ofList, List.drop_drop]

theorem length_take (text : String) : (take count text).length = min count text.length := by
  rw [take, String.length_ofList, List.length_take, String.length_toList]

theorem length_drop (text : String) : (drop count text).length = text.length - count := by
  rw [drop, String.length_ofList, List.length_drop, String.length_toList]

theorem take_of_length_le {count : ℕ} (hlength : text.length ≤ count) :
    take count text = text := by
  rw [take, List.take_of_length_le (by rwa [String.length_toList]), String.ofList_toList]

/-- The words that follow the word begun before. -/
def wordsFrom : List Char → List Char → List String
  | word, [] => if word = [] then [] else [String.ofList word.reverse]
  | word, c :: rest =>
    if isSpace c then
      if word = [] then wordsFrom [] rest else String.ofList word.reverse :: wordsFrom [] rest
    else wordsFrom (c :: word) rest

/-- `text.split()`. -/
def splitWords (text : String) : List String := wordsFrom [] text.toList

/-- The characters of `[0-9a-f]`. -/
def isLowerHex (c : Char) : Bool := ('0' ≤ c && c ≤ '9') || ('a' ≤ c && c ≤ 'f')

/-- `[0-9a-f]{count}` as a full match. -/
def isHexOfLength (count : ℕ) (text : String) : Bool :=
  text.toList.length == count && text.toList.all isLowerHex

/-- The given head followed by `[0-9a-f]{32}`, as a full match. -/
def isHexIdentifier (head text : String) : Bool :=
  head.toList.isPrefixOf text.toList && isHexOfLength 32 (drop head.toList.length text)

theorem isHexIdentifier_append {head digits : String} (hdigits : isHexOfLength 32 digits) :
    isHexIdentifier head (head ++ digits) := by
  rw [isHexIdentifier, Bool.and_eq_true, String.toList_append, drop, String.toList_append,
    List.drop_left, String.ofList_toList]
  exact ⟨List.isPrefixOf_iff_prefix.mpr (List.prefix_append _ _), hdigits⟩

theorem stripped_of_no_space {chars : List Char} (hchars : ∀ c ∈ chars, isSpace c = false) :
    stripped (String.ofList chars) = chars := by
  have hfront : ∀ items : List Char, (∀ c ∈ items, isSpace c = false) →
      items.dropWhile isSpace = items := by
    intro items hitems
    cases items with
    | nil => rfl
    | cons head tail => rw [List.dropWhile_cons, hitems head List.mem_cons_self]; rfl
  rw [stripped, String.toList_ofList, hfront chars hchars, hfront, List.reverse_reverse]
  intro c hc
  exact hchars c (List.mem_reverse.mp hc)

def Allows (allowed : Char → Bool) (text : String) : Prop := text.toList.all allowed

instance (allowed : Char → Bool) (text : String) : Decidable (Allows allowed text) :=
  inferInstanceAs (Decidable (text.toList.all allowed = true))

variable {allowed : Char → Bool}

theorem allows_iff : Allows allowed text ↔ ∀ c ∈ text.toList, allowed c :=
  List.all_eq_true

theorem allows_append {first second : String} :
    Allows allowed (first ++ second) ↔ Allows allowed first ∧ Allows allowed second := by
  rw [Allows, Allows, Allows, String.toList_append, List.all_append, Bool.and_eq_true]

theorem toList_ne_nil : text.toList ≠ [] ↔ text ≠ "" :=
  not_congr String.toList_eq_nil_iff

theorem allows_toString_nat (hdigit : ∀ c : Char, c.isDigit → allowed c) (value : ℕ) :
    Allows allowed (toString value) := by
  refine allows_iff.mpr fun c hc => hdigit c ?_
  have hdigits : c ∈ Nat.toDigits 10 value := by
    rwa [← @String.toList_ofList (Nat.toDigits 10 value)]
  exact Nat.isDigit_of_mem_toDigits (by decide) (by decide) hdigits

theorem allows_toString_int (hdigit : ∀ c : Char, c.isDigit → allowed c) (hminus : allowed '-')
    (value : ℤ) : Allows allowed (toString value) := by
  cases value with
  | ofNat magnitude => exact allows_toString_nat hdigit magnitude
  | negSucc magnitude =>
    have hsign : Allows allowed "-" := allows_iff.mpr fun c hc => by
      obtain rfl := List.mem_singleton.mp hc
      exact hminus
    exact allows_append.mpr ⟨hsign, allows_toString_nat hdigit (magnitude + 1)⟩

end Pallium.Text
