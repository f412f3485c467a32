import Pallium.Core.JsonText
import Pallium.Core.Packing
import Pallium.Core.Text

/-!
# The size of JSON texts

The text of a value grows with its parts: a longer prefix of a string, a larger number,
a list or an object with larger parts or with more of them.
-/

namespace Pallium.JsonText

open Packing

variable {small large : ℕ}

section

variable {α β : Type*} {size : α → ℕ} {other : β → ℕ} {items : List α} {others : List β}

theorem sum_le_of_forall₂
    (hparts : List.Forall₂ (fun item large => size item ≤ other large) items others) :
    (items.map size).sum ≤ (others.map other).sum := by
  exact (List.forall₂_map_left_iff.mpr (List.forall₂_map_right_iff.mpr hparts)).sum_le_sum

theorem joinedSize_le_of_forall₂ (separator : ℕ)
    (hparts : List.Forall₂ (fun item large => size item ≤ other large) items others) :
    joinedSize size separator items ≤ joinedSize other separator others := by
  have hsum : (items.map fun item => size item + separator).sum ≤
      (others.map fun item => other item + separator).sum :=
    sum_le_of_forall₂ (hparts.imp fun item large hle => Nat.add_le_add_right hle separator)
  exact Nat.sub_le_sub_right hsum separator

end

theorem length_toString_mono (hle : small ≤ large) :
    (toString small).length ≤ (toString large).length := by
  have hpositive : 0 < (Nat.repr large).length := Nat.length_repr_pos
  have hlarge := (Nat.length_repr_le_iff hpositive).mp (le_refl (Nat.repr large).length)
  exact (Nat.length_repr_le_iff hpositive).mpr (hle.trans_lt hlarge)

theorem length_toString_succ (number : ℕ) :
    (toString (number + 1)).length ≤ (toString number).length + 1 := by
  have hpositive : 0 < (Nat.repr number).length := Nat.length_repr_pos
  have hnumber : number < 10 ^ (Nat.repr number).length :=
    (Nat.length_repr_le_iff hpositive).mp le_rfl
  have hmore : 10 ^ ((Nat.repr number).length + 1) = 10 ^ (Nat.repr number).length * 10 :=
    pow_succ 10 _
  have hnext : number + 1 < 10 ^ ((Nat.repr number).length + 1) := by omega
  exact (Nat.length_repr_le_iff (Nat.succ_pos _)).mpr hnext

theorem length_toString_add (number more : ℕ) :
    (toString (number + more)).length ≤ (toString number).length + more := by
  induction more with
  | zero => exact le_rfl
  | succ more ih =>
    have hnext := length_toString_succ (number + more)
    rw [← Nat.add_assoc number more 1]
    omega

theorem length_integer_mono (hle : small ≤ large) :
    (integer small).length ≤ (integer large).length := length_toString_mono hle

theorem length_text (value : String) :
    (text value).length = (value.toList.flatMap escape).length + 2 := by
  simp only [text, String.length_append, String.length_ofList]
  have hquote : "\"".length = 1 := rfl
  omega

theorem length_text_take (hle : small ≤ large) (value : String) :
    (text (Text.take small value)).length ≤ (text (Text.take large value)).length := by
  rw [length_text, length_text, Text.take, Text.take, String.toList_ofList, String.toList_ofList]
  have hprefix : value.toList.take small <+: value.toList.take large :=
    List.take_prefix_take_left hle
  obtain ⟨rest, hrest⟩ := hprefix
  rw [← hrest, List.flatMap_append, List.length_append]
  omega

def fieldSize (field : String × String) : ℕ := (text field.1 ++ ":" ++ field.2).length

theorem length_object (fields : List (String × String)) :
    (object fields).length = joinedSize fieldSize 1 fields + 2 := by
  have hfields := length_intercalate "," (fields.map fun field => text field.1 ++ ":" ++ field.2)
  have hsizes : (fields.map fun field => text field.1 ++ ":" ++ field.2).map String.length =
      fields.map fieldSize := by
    rw [List.map_map]
    refine List.map_congr_left fun field _ => ?_
    rw [Function.comp_apply, fieldSize]
  have hsize : joinedSize String.length 1 (fields.map fun field => text field.1 ++ ":" ++ field.2) =
      joinedSize fieldSize 1 fields := joinedSize_congr String.length 1 hsizes
  have hopen : "\x7b".length = 1 := rfl
  have hclose : "\x7d".length = 1 := rfl
  have hcomma : ",".length = 1 := rfl
  rw [object, String.length_append, String.length_append, hfields, hcomma, hsize, hopen, hclose]
  exact Nat.add_right_comm 1 (joinedSize fieldSize 1 fields) 1 |>.trans (Nat.add_comm 2 _)

theorem length_array (items : List String) :
    (array items).length = joinedSize String.length 1 items + 2 := by
  have hopen : "[".length = 1 := rfl
  have hclose : "]".length = 1 := rfl
  have hcomma : ",".length = 1 := rfl
  rw [array, String.length_append, String.length_append, length_intercalate, hcomma]
  omega

/-- The field of one object is not larger than that of the other. -/
def FieldLe (field large : String × String) : Prop :=
  field.1 = large.1 ∧ field.2.length ≤ large.2.length

theorem FieldLe.refl (field : String × String) : FieldLe field field := ⟨rfl, le_rfl⟩

theorem fieldSize_le {field large : String × String} (hle : FieldLe field large) :
    fieldSize field ≤ fieldSize large := by
  have hvalue : field.2.length ≤ large.2.length := hle.2
  simp only [fieldSize, String.length_append, hle.1]
  exact Nat.add_le_add_left hvalue _

theorem length_object_le {fields others : List (String × String)}
    (hfields : List.Forall₂ FieldLe fields others) :
    (object fields).length ≤ (object others).length := by
  have hsizes : List.Forall₂ (fun field large => fieldSize field ≤ fieldSize large) fields others :=
    hfields.imp fun field large hle => fieldSize_le hle
  rw [length_object, length_object]
  exact Nat.add_le_add_right (joinedSize_le_of_forall₂ 1 hsizes) 2

theorem length_object_append (fields more : List (String × String)) :
    (object fields).length ≤ (object (fields ++ more)).length := by
  rw [length_object, length_object]
  exact Nat.add_le_add_right (joinedSize_le_append fieldSize 1 fields more) 2

theorem length_array_le {items others : List String}
    (hitems : List.Forall₂ (fun item large => item.length ≤ large.length) items others) :
    (array items).length ≤ (array others).length := by
  rw [length_array, length_array]
  exact Nat.add_le_add_right (joinedSize_le_of_forall₂ 1 hitems) 2

theorem length_escape_le (c : Char) : (escape c).length ≤ 6 := by
  unfold escape
  repeat' split
  all_goals simp

theorem length_text_le (value : String) : (text value).length ≤ 6 * value.length + 2 := by
  have hescaped : (value.toList.flatMap escape).length ≤ 6 * value.toList.length := by
    induction value.toList with
    | nil => exact le_rfl
    | cons c rest ih =>
      have hone := length_escape_le c
      rw [List.flatMap_cons, List.length_append, List.length_cons]
      omega
  rw [length_text, ← String.length_toList]
  omega

/-- What an exchange of fields and a lack of later ones change in the size of an object. -/
theorem length_object_exchange (first : String × String)
    (before fields others after more : List (String × String)) :
    (object (first :: before ++ fields ++ after ++ more)).length +
        (others.map fun field => fieldSize field + 1).sum =
      (object (first :: before ++ others ++ after ++ [])).length +
        ((fields.map fun field => fieldSize field + 1).sum +
          (more.map fun field => fieldSize field + 1).sum) := by
  simp only [length_object, joinedSize, List.cons_append, List.map_cons, List.map_append,
    List.sum_cons, List.sum_append, List.map_nil, List.sum_nil]
  omega

theorem length_field (name value : String) :
    fieldSize (name, value) = (text name).length + value.length + 1 := by
  have hcolon : ":".length = 1 := rfl
  rw [fieldSize, String.length_append, String.length_append, hcolon]
  exact Nat.add_right_comm _ _ _

end Pallium.JsonText
