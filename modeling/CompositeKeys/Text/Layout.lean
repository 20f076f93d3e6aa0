import CompositeKeys.Text.Lines

/-! The normal form of a written module. Blanks at the ends of lines are dropped and runs of blank
lines are cut down to one, and a text of which anything is left ends in one line feed. -/

namespace CompositeKeys.Text

/-- Cuts runs of three and more line feeds down to two; `feeds` counts those that stand right before
the letters at hand. -/
def collapsed : Nat → List Char → List Char
  | _, [] => []
  | feeds, letter :: rest =>
    if letter = '\n' then
      if feeds < 2 then letter :: collapsed (feeds + 1) rest else collapsed (feeds + 1) rest
    else letter :: collapsed 0 rest

/-- Drops the line feeds at the end. -/
def unfed (letters : List Char) : List Char :=
  (letters.reverse.dropWhile (· = '\n')).reverse

/-- Brings a text into normal form. -/
def tidy (text : String) : String :=
  let joined := ['\n'].intercalate ((linesOf text.toList).map unpadded)
  let body := unfed ((collapsed 0 joined).dropWhile (· = '\n'))
  if body = [] then "" else .ofList (body ++ ['\n'])

end CompositeKeys.Text
