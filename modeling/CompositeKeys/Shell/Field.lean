import CompositeKeys.Shell.Pattern

/-! How what a word has come to is made into words of a command. Values outside of quotes are split
where separators stand. Blank separators next to one another, or next to another separator, count as
one; quotes make a word even of nothing. -/

namespace CompositeKeys.Shell

/-- A piece of what a word has come to. A boundary stands between arguments. -/
inductive Piece where
  | glyph (value : Glyph)
  | quotes
  | boundary
  deriving DecidableEq, Repr

def Piece.glyph? : Piece → Option Glyph
  | .glyph value => some value
  | _ => none

namespace Field

/-- The pieces of a text in quotes, or of a value outside of them. -/
def piecesOf (isQuoted isValue : Bool) (letters : List Char) : List Piece :=
  (if isQuoted then [.quotes] else []) ++
    letters.map fun letter => .glyph { letter, isQuoted, isValue }

/-- The words of a command that have been split so far, the last one first, and the word that is
being made. After a blank the separator that follows belongs to it. -/
structure Splitting where
  done : List (List Glyph) := []
  current : Option (List Glyph) := none
  followsBlank : Bool := false

def Splitting.close (splitting : Splitting) : Splitting :=
  match splitting.current with
  | none => { splitting with followsBlank := false }
  | some glyphs => { done := glyphs.reverse :: splitting.done }

def isBlank (letter : Char) : Bool := [' ', '\t', '\n'].contains letter

def Splitting.next (separators : List Char) (splitting : Splitting) : Piece → Splitting
  | .quotes =>
    { splitting with current := some (splitting.current.getD []), followsBlank := false }
  | .boundary => splitting.close
  | .glyph value =>
    if !value.isQuoted && value.isValue && separators.contains value.letter then
      if isBlank value.letter then
        match splitting.current with
        | none => splitting
        | some _ => { splitting.close with followsBlank := true }
      else if splitting.followsBlank then { splitting with followsBlank := false }
      else
        let current := some (splitting.current.getD [])
        { splitting with current }.close
    else
      { splitting with
        current := some (value :: splitting.current.getD [])
        followsBlank := false }

/-- The words that pieces are split into. -/
def split (separators : List Char) (pieces : List Piece) : List (List Glyph) :=
  (pieces.foldl (Splitting.next separators) {}).close.done.reverse

/-- The glyphs of a word that is not split. -/
def joined (pieces : List Piece) : List Glyph :=
  pieces.filterMap fun
    | .glyph value => some value
    | .quotes => none
    | .boundary => some { letter := ' ' }

def textOf (pieces : List Piece) : String := .ofList ((joined pieces).map Glyph.letter)

end Field

end CompositeKeys.Shell
