import Pallium.Core.Text

/-!
# Substitution of matches

The substitutions of a compiled regular expression.  A pattern cuts every text
into plain pieces and its matches, and a substitution rewrites the matches.  What
the replacements preserve of the single matches, the substitution preserves of
the text.
-/

namespace Pallium.Substitution

open Pallium.Text

/-- A match with its position, its text and the texts of its groups. -/
structure Match where
  start : ℕ
  text : String
  group : ℕ → String
  mem_of_mem_group : ∀ index, ∀ c ∈ (group index).toList, c ∈ text.toList

inductive Piece
  | plain (text : String)
  | found (occurrence : Match)

def Piece.text : Piece → String
  | .plain text => text
  | .found occurrence => occurrence.text

/-- A compiled pattern, by the pieces into which it cuts a text. -/
structure Pattern where
  pieces : String → List Piece
  text_pieces : ∀ text, (pieces text).flatMap (fun piece => piece.text.toList) = text.toList

def Piece.replaced (replace : Match → String) : Piece → String
  | .plain text => text
  | .found occurrence => replace occurrence

/-- `pattern.sub(replace, text)`. -/
def Pattern.sub (pattern : Pattern) (replace : Match → String) (text : String) : String :=
  String.ofList ((pattern.pieces text).flatMap fun piece => (piece.replaced replace).toList)

variable {allowed : Char → Bool}

theorem Match.allows_group {occurrence : Match}
    (htext : Allows allowed occurrence.text) (index : ℕ) :
    Allows allowed (occurrence.group index) :=
  allows_iff.mpr fun c hc =>
    allows_iff.mp htext c (occurrence.mem_of_mem_group index c hc)

theorem Pattern.allows_piece {pattern : Pattern} {text : String}
    (htext : Allows allowed text) {piece : Piece} (hpiece : piece ∈ pattern.pieces text) :
    Allows allowed piece.text := by
  refine allows_iff.mpr fun c hc => allows_iff.mp htext c ?_
  rw [← pattern.text_pieces text, List.mem_flatMap]
  exact ⟨piece, hpiece, hc⟩

theorem Pattern.allows_sub (pattern : Pattern) {replace : Match → String}
    (hreplace : ∀ occurrence, Allows allowed occurrence.text →
      Allows allowed (replace occurrence))
    {text : String} (htext : Allows allowed text) : Allows allowed (pattern.sub replace text) := by
  refine allows_iff.mpr fun c hc => ?_
  rw [Pattern.sub, String.toList_ofList, List.mem_flatMap] at hc
  obtain ⟨piece, hpiece, hmem⟩ := hc
  have hallowed := pattern.allows_piece htext hpiece
  cases piece with
  | plain plain => exact allows_iff.mp hallowed c hmem
  | found occurrence => exact allows_iff.mp (hreplace occurrence hallowed) c hmem

theorem Pattern.sub_ne_empty (pattern : Pattern) {replace : Match → String}
    (hreplace : ∀ occurrence, occurrence.text ≠ "" → replace occurrence ≠ "")
    {text : String} (htext : text ≠ "") : pattern.sub replace text ≠ "" := by
  obtain ⟨c, hc⟩ := List.exists_mem_of_ne_nil _ (toList_ne_nil.mpr htext)
  rw [← pattern.text_pieces text, List.mem_flatMap] at hc
  obtain ⟨piece, hpiece, hmem⟩ := hc
  have hpart : piece.text ≠ "" := toList_ne_nil.mp (List.ne_nil_of_mem hmem)
  have hnew : piece.replaced replace ≠ "" := by
    cases piece with
    | plain plain => exact hpart
    | found occurrence => exact hreplace occurrence hpart
  obtain ⟨d, hd⟩ := List.exists_mem_of_ne_nil _ (toList_ne_nil.mpr hnew)
  refine toList_ne_nil.mp (List.ne_nil_of_mem (a := d) ?_)
  rw [Pattern.sub, String.toList_ofList, List.mem_flatMap]
  exact ⟨piece, hpiece, hd⟩

end Pallium.Substitution
