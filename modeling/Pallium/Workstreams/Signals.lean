import Pallium.Core.Text

/-!
# Strong signals

What a source item and its memories say about the work they belong to: work references,
file paths, symbols, commands, explicit titles and subject anchors.  The directories of
the paths and the n-grams of the titles are derived from them.
-/

namespace Pallium.Workstreams

/-- What the assignment takes from its host: SHA-1 in hexadecimal digits, the tokenizer and
the lower case of a text. -/
structure Host where
  sha1Hex : String → String
  tokenizeText : String → List String
  lower : String → String

/-- `sorted` of a set of texts. -/
def sorted (texts : Finset String) : List String :=
  Quotient.liftOn texts.val (fun listed => listed.insertionSort (· ≤ ·)) fun left right hperm =>
    List.Perm.eq_of_pairwise (fun _ _ _ _ hle hge => le_antisymm hle hge)
      (List.pairwise_insertionSort (· ≤ ·) left) (List.pairwise_insertionSort (· ≤ ·) right)
      (((List.perm_insertionSort (· ≤ ·) left).trans hperm).trans
        (List.perm_insertionSort (· ≤ ·) right).symm)

theorem mem_sorted {texts : Finset String} {text : String} :
    text ∈ sorted texts ↔ text ∈ texts := by
  obtain ⟨⟨listed⟩, hnodup⟩ := texts
  exact List.mem_insertionSort (· ≤ ·)

theorem length_sorted (texts : Finset String) : (sorted texts).length = texts.card := by
  obtain ⟨⟨listed⟩, hnodup⟩ := texts
  exact List.length_insertionSort (· ≤ ·) listed

/-- `file_path_directory`: the first two segments of a path, or nothing. -/
def filePathDirectory (path : String) : String :=
  let parts := path.toList.splitOn '/'
  if parts.length ≤ 1 then "" else "/".intercalate ((parts.take 2).map String.ofList)

def stopwordsForNgrams : List String :=
  ["the", "a", "an", "and", "or", "of", "to", "in", "on", "for", "with",
    "by", "is", "are", "was", "were", "be", "been", "being", "this", "that",
    "these", "those", "it", "as", "at", "from", "into", "out", "if", "then"]

/-- `title_ngrams`: the 3-grams of the words of a title that are no stop words, or all of
them if there are fewer. -/
def titleNgrams (host : Host) (title : String) : Finset (List String) :=
  let words := (host.tokenizeText title).filter (· ∉ stopwordsForNgrams)
  if words.length < 3 then
    if words = [] then ∅ else {words}
  else (Finset.range (words.length - 2)).image fun start => (words.drop start).take 3

structure ItemSignals where
  workRefs : Finset String
  filePaths : Finset String
  symbols : Finset String
  commands : Finset String
  titles : Finset String
  anchors : Finset String
  deriving DecidableEq

namespace ItemSignals

/-- The directories of the file paths. -/
def fileDirs (signals : ItemSignals) : Finset String :=
  (signals.filePaths.image filePathDirectory).filter (· ≠ "")

def titleNgrams (host : Host) (signals : ItemSignals) : Finset (List String) :=
  signals.titles.biUnion (Workstreams.titleNgrams host)

def hasAnyStrong (signals : ItemSignals) : Bool :=
  signals.workRefs ≠ ∅ || signals.filePaths ≠ ∅ || signals.symbols ≠ ∅ || signals.commands ≠ ∅ ||
    signals.titles ≠ ∅ || signals.anchors ≠ ∅

/-- `_signals_for_id`. -/
def forId (host : Host) (signals : ItemSignals) : Finset String :=
  signals.workRefs.image ("wr:" ++ ·) ∪ signals.fileDirs.image ("fd:" ++ ·) ∪
    signals.symbols.image ("sy:" ++ ·) ∪
    signals.titles.image (fun title => "ti:" ++ host.lower title) ∪
    signals.anchors.image ("an:" ++ ·)

/-- `resolved_id_from_signals` of the signals, which raises if there are none. -/
def resolvedId (host : Host) (signals : ItemSignals) : Option String :=
  if signals.forId host = ∅ then none
  else some ("ws:" ++ Text.take 16 (host.sha1Hex ("\n".intercalate (sorted (signals.forId host)))))

end ItemSignals

end Pallium.Workstreams
