import CompositeKeys.Files.Tree
import CompositeKeys.Text.Bytes

/-! Patterns of names. A star stands for any letters, a question mark for one, and brackets for one
out of a set. A letter that is quoted stands for itself. -/

namespace CompositeKeys.Shell
open Files Text

/-- A letter that an expansion has come to. Only letters that come from values are split at. -/
structure Glyph where
  letter : Char
  isQuoted : Bool := true
  isValue : Bool := false
  deriving DecidableEq, Repr

inductive Element where
  | many
  | one
  | letter (value : Char)
  | set (isNegated : Bool) (ranges : List (Char × Char))
  deriving DecidableEq, Repr

/-- The letters of a named class. -/
def classRanges : String → List (Char × Char)
  | "alpha" => [('a', 'z'), ('A', 'Z')]
  | "digit" => [('0', '9')]
  | "alnum" => [('a', 'z'), ('A', 'Z'), ('0', '9')]
  | "upper" => [('A', 'Z')]
  | "lower" => [('a', 'z')]
  | "space" => [(' ', ' '), ('\t', '\r')]
  | "blank" => [(' ', ' '), ('\t', '\t')]
  | "punct" => [('!', '/'), (':', '@'), ('[', '\x60'), ('\x7b', '~')]
  | "xdigit" => [('0', '9'), ('a', 'f'), ('A', 'F')]
  | _ => []

/-- Reads the ranges of a set up to the bracket that closes it. -/
def rangesOf (isFirst : Bool) : Nat → List Char → Option (List (Char × Char) × List Char)
  | 0, _ | _, [] => none
  | fuel + 1, letter :: rest =>
    let more := fun (found : List (Char × Char)) rest =>
      (rangesOf false fuel rest).map fun (ranges, after) => (found ++ ranges, after)
    match letter, rest with
    | ']', _ => if isFirst then more [(']', ']')] rest else some ([], rest)
    | '[', ':' :: after =>
      let name := after.takeWhile (· ≠ ':')
      more (classRanges (.ofList name)) (after.drop (name.length + 2))
    | first, '-' :: last :: after =>
      if last = ']' then more [(first, first)] rest else more [(first, last)] after
    | _, _ => more [(letter, letter)] rest

/-- The set that letters begin with, after its opening bracket. -/
def setOf? (letters : List Char) : Option (Element × List Char) :=
  let (isNegated, rest) := match letters with
    | '!' :: rest | '^' :: rest => (true, rest)
    | _ => (false, letters)
  (rangesOf true (rest.length + 1) rest).map fun (ranges, after) => (.set isNegated ranges, after)

/-- The pattern that letters spell. -/
def patternOf : Nat → List Glyph → List Element
  | 0, _ | _, [] => []
  | fuel + 1, glyph :: rest =>
    if glyph.isQuoted then .letter glyph.letter :: patternOf fuel rest
    else match glyph.letter with
      | '*' => .many :: patternOf fuel rest
      | '?' => .one :: patternOf fuel rest
      | '[' =>
        match setOf? (rest.map Glyph.letter) with
        | some (set, after) => set :: patternOf fuel (rest.drop (rest.length - after.length))
        | none => .letter '[' :: patternOf fuel rest
      | '\\' =>
        match rest with
        | next :: after => .letter next.letter :: patternOf fuel after
        | [] => [.letter '\\']
      | letter => .letter letter :: patternOf fuel rest

def Element.isWild : Element → Bool
  | .letter _ => false
  | _ => true

def Element.admits (letter : Char) : Element → Bool
  | .many => false
  | .one => true
  | .letter value => value = letter
  | .set isNegated ranges =>
    isNegated != ranges.any fun range => range.1 ≤ letter && letter ≤ range.2

def suffixesOf : List Char → List (List Char)
  | [] => [[]]
  | letter :: rest => (letter :: rest) :: suffixesOf rest

/-- Whether a pattern stands for the whole of a text. -/
def isMatch : List Element → List Char → Bool
  | [], text => text = []
  | .many :: rest, text => (suffixesOf text).any fun suffix => isMatch rest suffix
  | element :: rest, letter :: text => element.admits letter && isMatch rest text
  | _ :: _, [] => false

def pattern (glyphs : List Glyph) : List Element := patternOf (glyphs.length + 1) glyphs

/-- A pattern for names as words spell it. -/
def namePattern (text : String) : List Element :=
  let (glyphs, _) := text.toList.foldl (fun (glyphs, isProtected) letter =>
    if isProtected then (({ letter } : Glyph) :: glyphs, false)
    else if letter = '\\' then (glyphs, true)
    else ({ letter, isQuoted := false } :: glyphs, false)) (([] : List Glyph), false)
  pattern glyphs.reverse

/-- Whether a name is one that patterns stand for. -/
def isNamedBy (patterns : List String) (name : String) : Bool :=
  patterns.any fun text => isMatch (namePattern text) name.toList

/-- A value without the shortest or the longest piece at one end that a pattern stands for. -/
def trim (atEnd isLongest : Bool) (glyphs : List Glyph) (value : List Char) : List Char :=
  let pattern := pattern glyphs
  let sizes := List.range (value.length + 1)
  let sizes := if isLongest then sizes.reverse else sizes
  let found := sizes.find? fun size =>
    isMatch pattern (if atEnd then value.drop (value.length - size) else value.take size)
  match found with
  | none => value
  | some size => if atEnd then value.take (value.length - size) else value.drop size

/-- Splits letters at slashes. -/
def componentsOf : List Glyph → List (List Glyph)
  | [] => [[]]
  | glyph :: rest =>
    if glyph.letter = '/' then [] :: componentsOf rest
    else match componentsOf rest with
      | [] => [[glyph]]
      | first :: others => (glyph :: first) :: others

/-- The paths of files that the components of a pattern stand for, after the given beginning. -/
def pathsMatching (tree : FileTree) (before : String) : List (List Glyph) → List String
  | [] => []
  | component :: rest =>
    let elements := pattern component
    let next : List String :=
      if elements.any Element.isWild then
        let names := (tree.namesIn ⟨if before = "" then "." else keepingBytes before⟩).map bytesOf
        let isDotted := component.head?.any (·.letter = '.')
        (if isDotted then "." :: ".." :: names else names).filter fun name =>
          isMatch elements name.toList && (isDotted || !name.startsWith ".")
      else [.ofList (component.map Glyph.letter)]
    match rest with
    | [] => (next.map (before ++ ·)).filter fun path => (tree.findHere ⟨keepingBytes path⟩).isOk
    | _ :: _ => next.flatMap fun name => pathsMatching tree (before ++ name ++ "/") rest

/-- The paths that a word stands for, which is itself if there are none. -/
def expandPaths (tree : FileTree) (glyphs : List Glyph) : List String :=
  let plain : String := .ofList (glyphs.map Glyph.letter)
  if (pattern glyphs).any Element.isWild then
    match pathsMatching tree "" (componentsOf glyphs) with
    | [] => [plain]
    | paths => paths
  else [plain]

end CompositeKeys.Shell
