/-! Replacing every occurrence of a pattern. Occurrences are taken from the left and do not overlap,
and the text that comes in is not searched again. -/

namespace CompositeKeys.Text

/-- Replaces the occurrences of `pattern` after the next `skipped` characters, which belong to an
occurrence that has been replaced already. -/
def replacing (pattern value : List Char) : Nat → List Char → List Char
  | _, [] => []
  | skipped + 1, _ :: rest => replacing pattern value skipped rest
  | 0, letter :: rest =>
    if pattern.isPrefixOf (letter :: rest) then
      value ++ replacing pattern value (pattern.length - 1) rest
    else letter :: replacing pattern value 0 rest

/-- Replaces every occurrence of a non-empty pattern. -/
def replace (pattern value text : String) : String :=
  .ofList (replacing pattern.toList value.toList 0 text.toList)

/-- Whether the letters occur one after another in the text. -/
def occursIn (pattern : List Char) : List Char → Bool
  | [] => pattern.isEmpty
  | letter :: rest => pattern.isPrefixOf (letter :: rest) || occursIn pattern rest

end CompositeKeys.Text
