import CompositeKeys.Shell.Formatting
import CompositeKeys.Shell.Matching
import CompositeKeys.Shell.Utility.Arguments

/-! Utilities that show files, or parts or sizes of them. -/

namespace CompositeKeys.Shell.Utility
open Files Procedure

/-- A text set to the right in a column. -/
def toRight (width : Nat) (text : String) : String :=
  .ofList (List.replicate (width - text.length) ' ' ++ text.toList)

/-- A number set to the right in a column. -/
def column (width number : Nat) : String := toRight width (toString number)

/-- A byte as it is shown where it cannot be mistaken. -/
def visible (letter : Char) : String :=
  let code := letter.toNat
  let low := fun code : Nat =>
    if code < 32 then "^" ++ String.singleton (Char.ofNat (code + 64))
    else if code = 127 then "^?" else String.singleton (Char.ofNat code)
  if 128 ≤ code then "M-" ++ low (code - 128) else low code

/-- Where the lines that are shown have come to: the number of the last one, whether a line begins,
and whether blank lines go before it. -/
structure Showing where
  number : Nat := 0
  isStart : Bool := true
  followsBlank : Bool := false

/-- Shows a text letter by letter with what is asked for: numbers, and marks at the ends. -/
def shown (given : Given) : List Char → Showing → List String → List String × Showing
  | [], showing, done => (done, showing)
  | letter :: rest, showing, done =>
    let marksEnds := given.hasAny "AEe"
    let isBlank := letter = '\n' && showing.isStart
    if isBlank && showing.followsBlank && given.has 's' then shown given rest showing done
    else
      let isNumbered := showing.isStart && (given.has 'b' && !isBlank || given.has 'n' && !given.has 'b')
      let number := if isNumbered then showing.number + 1 else showing.number
      let mark := if isNumbered then column 6 number ++ "\t" else ""
      let text :=
        if letter = '\n' then if marksEnds then "$\n" else "\n"
        else if letter = '\t' then if given.hasAny "ATt" then "^I" else "\t"
        else if letter = '\r' && marksEnds && rest.head? = some '\n' then "^M"
        else if given.hasAny "Avet" then visible letter
        else .singleton letter
      shown given rest { number, isStart := letter = '\n', followsBlank := isBlank }
        (text :: mark :: done)

def catenate (name : String) (words : List String) : Procedure Unit :=
  withGiven name 1
    { plain := "nbsETAuvet"
      long := [("show-all", 'A'), ("number-nonblank", 'b'), ("show-ends", 'E'), ("number", 'n'),
        ("squeeze-blank", 's'), ("show-tabs", 'T'), ("show-nonprinting", 'v')] } words
    fun given => do
      let isPlain := given.options.all (·.1 = 'u')
      let mut showing := {}
      for operand in given.sources do
        match ← available operand with
        | .error error =>
          complain name s!"{quotedIfNeeded operand}: {error.reason}"
          setStatus 1
        | .ok (text, goesOn) =>
          let (pieces, next) := if isPlain then ([text], showing)
            else shown given text.toList showing []
          showing := next
          emitNow ("".intercalate pieces.reverse)
          if goesOn then throw .timeUp

/-- The sizes of a text: its lines, words, characters and bytes, and its longest line. -/
def sizes (text : String) : List (Char × Nat) :=
  let letters := text.toList
  let isSpace := fun letter : Char => letter = ' ' || ('\t' ≤ letter && letter ≤ '\r')
  let words := letters.foldl (fun (count, isInside) letter =>
    if isSpace letter then (count, false)
    else if letter.toNat < 33 || 126 < letter.toNat && letter.toNat < 160 then (count, isInside)
    else (if isInside then count else count + 1, true)) (0, false)
  let width := letters.foldl (fun (longest, current) letter =>
    if letter = '\n' || letter = '\r' || letter = '\x0c' then (longest, 0)
    else
      let current := if letter = '\t' then current / 8 * 8 + 8
        else if 32 ≤ letter.toNat && letter.toNat < 127 then current + 1 else current
      (max longest current, current)) (0, 0)
  [('l', letters.count '\n'), ('w', words.1), ('m', letters.length), ('c', letters.length),
    ('L', width.1)]

def sumOf (first second : List (Char × Nat)) : List (Char × Nat) :=
  (first.zip second).map fun ((letter, left), (_, right)) =>
    (letter, if letter = 'L' then max left right else left + right)

/-- Counts what is in files. Columns are as wide as the size of all files takes, and wider if there
is something that is no file. -/
def countWords (name : String) (words : List String) : Procedure Unit :=
  withGiven name 1
    { plain := "lwcmL", valued := "ţ"
      long := [("lines", 'l'), ("words", 'w'), ("bytes", 'c'), ("chars", 'm'),
        ("max-line-length", 'L'), ("total", 'ţ')] } words
    fun given => do
    let totals := ["auto", "always", "only", "never"]
    match choiceOf "--total" totals ((given.value? 'ţ').getD "auto") with
    | .error message => suggestHelp name message
    | .ok choice =>
      let wanted := ['l', 'w', 'm', 'c', 'L'].filter given.has
      let wanted := if wanted = [] then ['l', 'w', 'c'] else wanted
      let mut rows := []
      let mut total := sizes ""
      let mut isUneven := false
      for operand in given.sources do
        let isFile := match (← channel? 0) with
          | some (_, .file ..) => true
          | _ => false
        if operand = "-" && !isFile then isUneven := true
        match ← contents operand with
        | .ok text =>
          rows := rows ++ [(sizes text, operand)]
          total := sumOf total (sizes text)
        | .error error =>
          complain name s!"{quotedIfNeeded operand}: {error.reason}"
          setStatus 1
          if error = .isDirectory then
            isUneven := true
            rows := rows ++ [(sizes "", operand)]
      let several := 1 < given.sources.length
      let size := (total.lookup 'c').getD 0
      let width := if choice = "only" || (!several && wanted.length = 1) then 1
        else max (if isUneven then 7 else 1) (toString size).length
      let show' := fun (counts : List (Char × Nat)) (label : String) => do
        let columns := wanted.map fun letter => column width ((counts.lookup letter).getD 0)
        emit (" ".intercalate columns ++ label ++ "\n")
      if choice = "only" then show' total ""
      else
        for (counts, label) in rows do
          show' counts (if given.operands = [] then "" else " " ++ label)
        if choice = "always" || (choice = "auto" && several) then show' total " total"

/-- The records of a text, each with the letter that ends it. -/
def endedRecords (ending : Char) (text : String) : List String :=
  let records := text.splitOn (.singleton ending)
  records.dropLast.map (·.push ending) ++ (records.getLast?.filter (· ≠ "")).toList

/-- The lines of a text, each with the letter that ends it. -/
def endedLines (text : String) : List String := endedRecords '\n' text

/-- The words of a utility whose first option may be a number with marks after it. A mark may also
mean nothing. -/
def withLeadingCount : List String → Except Char (List String)
  | [] => .ok []
  | word :: rest =>
    match word.toList with
    | '-' :: digit :: letters =>
      if !digit.isDigit then .ok (word :: rest)
      else
        let digits := (digit :: letters).takeWhile Char.isDigit
        let marks := letters.drop (digits.length - 1)
        match marks.find? fun mark => !"cbkmlqvz".contains mark with
        | some mark => .error mark
        | none =>
          let unit := ((marks.filter ("cbkml".contains ·)).getLast?).getD 'l'
          let factor := if "bkm".contains unit then String.singleton unit else ""
          let option := if unit = 'l' then "-n" else "-c"
          let others := (marks.filter ("qvz".contains ·)).map fun mark => String.ofList ['-', mark]
          .ok ((option ++ .ofList digits ++ factor) :: others ++ rest)
    | _ => .ok (word :: rest)

/-- The words of a utility whose only option may be a number, with a unit and a mark after it. -/
def withOnlyCount : List String → List String
  | [] => []
  | word :: rest =>
    let isOnly := match rest with
      | [] | ["--"] | ["--", _] => true
      | [other] => other = "-" || !other.startsWith "-"
      | _ => false
    match word.toList with
    | sign :: letters =>
      let digits := letters.takeWhile Char.isDigit
      let marks := letters.drop digits.length
      let count := if digits = [] then ['1', '0'] else digits
      let kind := if sign = '+' then ['+'] else []
      let option := fun (unit : Char) (factor : List Char) =>
        String.ofList ('-' :: unit :: kind ++ count ++ factor)
      let follows := if marks.getLast? = some 'f' then ["-f"] else []
      let isOption := isOnly && (sign = '+' || (sign = '-' && letters ≠ [] && letters ≠ ['c']))
      match isOption, marks with
      | true, [] | true, ['f'] | true, ['l'] | true, ['l', 'f'] => option 'n' [] :: follows ++ rest
      | true, ['c'] | true, ['c', 'f'] => option 'c' [] :: follows ++ rest
      | true, ['b'] | true, ['b', 'f'] => option 'c' ['b'] :: follows ++ rest
      | _, _ => word :: rest
    | [] => word :: rest

/-- The part of a text that is shown: so many lines or bytes of it, or all but those. -/
structure Portion where
  unit : Char := 'n'
  count : Nat := 10
  isRest : Bool := false

/-- Reads options that tell the part, in their order. A sign in front of a count means the rest. -/
def Portion.withOptions (sign : Char) (badDigit : Char → String × Bool) :
    Portion → List (Char × String) → Except (String × Bool) Portion
  | portion, [] => .ok portion
  | portion, (letter, text) :: rest =>
    if letter.isDigit then .error (badDigit letter)
    else if letter = 'n' || letter = 'c' then
      let letters := text.toList
      let isRest := letters.head? = some sign || (sign = '+' && portion.isRest)
      let spelled := if letters.head? = some '-' then .ofList (letters.drop 1) else text
      let digits := if spelled.startsWith "+" then .ofList (spelled.toList.drop 1) else spelled
      match sized? digits with
      | some count => withOptions sign badDigit { unit := letter, count, isRest } rest
      | none =>
        let things := if letter = 'n' then "lines" else "bytes"
        .error (s!"invalid number of {things}: {quotedWord spelled}", false)
    else withOptions sign badDigit portion rest

/-- Shows a part of each operand, under headings if there are several. A part at the beginning leaves
what comes after it to be read by others, as far as that can still be found. -/
def showParts (name : String) (given : Given) (portion : Portion) (isBeginning : Bool)
    (part : {α : Type} → List α → List α) : Procedure Unit := do
  let hasHeadings := match given.last? "qv" with
    | some mode => mode = 'v'
    | none => 1 < given.operands.length
  let ending := if given.has 'z' then '\x00' else '\n'
  let mut isFirst := true
  for operand in given.sources do
    let before ← channel? 0
    let found ← available operand
    if hasHeadings && (match found with | .ok _ | .error .isDirectory => true | _ => false) then
      let title := if operand = "-" then "standard input" else operand
      let gap := if isFirst then "" else "\n"
      emit s!"{gap}==> {title} <==\n"
      isFirst := false
    match found with
    | .error .isDirectory =>
      complain name s!"error reading {quoted operand}: Is a directory"
      setStatus 1
    | .error error =>
      complain name s!"cannot open {quoted operand} for reading: {error.reason}"
      setStatus 1
    | .ok (text, goesOn) =>
      let pieces := if portion.unit = 'c' then text.toList.map String.singleton
        else endedRecords ending text
      let hasAll := isBeginning && !portion.isRest && portion.count < pieces.length
      if goesOn && !hasAll then throw .timeUp
      let taken := "".intercalate (part pieces)
      emit taken
      if let some (number, .file place position appends) := before then
        if isBeginning && operand = "-" then
          setChannel number (.file place (position + taken.length) appends)

/-- The options that tell the part of a text. -/
def portionOptions (marks : String) : Options :=
  { plain := "qvz0123456789" ++ marks, valued := "ncs"
    long := [("lines", 'n'), ("bytes", 'c'), ("quiet", 'q'), ("silent", 'q'), ("verbose", 'v'),
      ("zero-terminated", 'z')] }

/-- Does something with the part that options tell. -/
def withPortion (name : String) (given : Given) (sign : Char) (badDigit : Char → String × Bool)
    (action : Portion → Procedure Unit) : Procedure Unit := do
  match Portion.withOptions sign badDigit {} given.options with
  | .ok portion => action portion
  | .error (message, true) => suggestHelp name message
  | .error (message, false) =>
    complain name message
    setStatus 1

def head (name : String) (words : List String) : Procedure Unit := do
  let badMark := fun mark : Char => s!"invalid trailing option -- {mark}"
  match withLeadingCount words with
  | .error mark => suggestHelp name (badMark mark)
  | .ok words =>
    withGiven name 1 (portionOptions "") words fun given =>
      withPortion name given '-' (fun mark => (badMark mark, true)) fun portion =>
        showParts name given portion true fun things =>
          if portion.isRest then things.take (things.length - portion.count)
          else things.take portion.count

def tail (name : String) (words : List String) : Procedure Unit :=
  withGiven name 1 (portionOptions "fF") (withOnlyCount words) fun given =>
    let badDigit := fun digit : Char => (s!"option used in invalid context -- {digit}", false)
    withPortion name given '+' badDigit fun portion => do
      let follows := given.hasAny "fF"
      unless portion.count = 0 && !portion.isRest && !follows do
        showParts name given portion false fun things =>
          if portion.isRest then things.drop (portion.count - 1)
          else things.drop (things.length - portion.count)
        if follows && given.sources ≠ ["-"] then throw .timeUp

/-- Shows lines from the last to the first. -/
def reversed (name : String) (words : List String) : Procedure Unit :=
  withGiven name 1
    { plain := "br", valued := "s", long := [("before", 'b'), ("regex", 'r'), ("separator", 's')] }
    words fun given => do
    let separator := (given.value? 's').getD "\n"
    for operand in given.sources do
      match ← contents operand with
      | .ok text =>
        let pieces := text.splitOn separator
        let whole := if given.has 'b' then
            pieces.take 1 ++ (pieces.drop 1).map (separator ++ ·)
          else pieces.dropLast.map (· ++ separator) ++ (pieces.getLast?.filter (· ≠ "")).toList
        emit ("".intercalate whole.reverse)
      | .error error =>
        if error = .isDirectory then complain name s!"{operand}: read error: Invalid argument"
        else complain name s!"failed to open {quoted operand} for reading: {error.reason}"
        setStatus 1

/-- Shows every line from its last letter to the first. -/
def mirrored (name : String) (words : List String) : Procedure Unit :=
  withGiven name 1 {} words fun given => do
    for operand in given.sources do
      match ← contentsSoFar operand with
      | .ok text =>
        let pieces := (text.splitOn "\n").map fun line => String.ofList line.toList.reverse
        emit ("\n".intercalate pieces)
      | .error error =>
        complain name s!"cannot open {operand}: {error.reason}"
        setStatus 1

/-- Which lines are numbered. -/
inductive Numbering where
  | all
  | filled
  | none
  | matching (matcher : Matcher)

def numbering? (text : String) : Option Numbering :=
  match text.toList with
  | ['a'] => some .all
  | ['t'] => some .filled
  | ['n'] => some .none
  | 'p' :: letters =>
    (Regex.parse .basic (.ofList letters)).toOption.map fun regex => .matching regex.matcher
  | _ => Option.none

def Numbering.holds (line : String) : Numbering → Bool
  | .all => true
  | .filled => line ≠ ""
  | .none => false
  | .matching matcher => matcher.isFound line.toList.toArray

/-- Numbers lines. A line of marks begins a heading, a body or an ending, each of which has its own
way to be numbered. -/
def numberLines (name : String) (words : List String) : Procedure Unit :=
  withGiven name 1
    { plain := "p", valued := "bdfhilnsvw"
      long := [("body-numbering", 'b'), ("section-delimiter", 'd'), ("footer-numbering", 'f'),
        ("header-numbering", 'h'), ("line-increment", 'i'), ("join-blank-lines", 'l'),
        ("number-format", 'n'), ("no-renumber", 'p'), ("number-separator", 's'),
        ("starting-line-number", 'v'), ("number-width", 'w')] } words
    fun given => do
    let styles := [('b', "body"), ('h', "header"), ('f', "footer")]
    let numbers := [('v', "starting line number"), ('i', "line number increment"),
      ('l', "line number of blank lines"), ('w', "line number field width")]
    let mut isOver := false
    let mut isFaulty := false
    for (letter, text) in given.options do
      unless isOver do
        if let some part := styles.lookup letter then
          if (numbering? text).isNone then
            complain name s!"invalid {part} numbering style: {quotedWord text}"
            isFaulty := true
        else if letter = 'n' && !(["ln", "rn", "rz"].contains text) then
          complain name s!"invalid line numbering format: {quotedWord text}"
          isFaulty := true
        else if let some thing := numbers.lookup letter then
          let isTooLow := (letter = 'w' || letter = 'l') && number? text = some 0
          if (number? text).isNone || isTooLow then
            let reason := if isTooLow then ": Numerical result out of range" else ""
            complain name s!"invalid {thing}: {quotedWord text}{reason}"
            isOver := true
    if isFaulty && !isOver then
      let _ ← write 2 s!"Try '{name} --help' for more information.\n"
    if isFaulty || isOver then setStatus 1
    else
      let style := fun letter usual : Char =>
        (numbering? ((given.value? letter).getD (.singleton usual))).getD .none
      let natural := fun (letter : Char) (usual : Nat) =>
        ((given.value? letter).bind number?).getD usual
      let width := natural 'w' 6
      let first := natural 'v' 1
      let separator := (given.value? 's').getD "\t"
      let mark := (given.value? 'd').getD "\\:"
      let mark := if mark.length = 1 then mark ++ ":" else mark
      let format := (given.value? 'n').getD "rn"
      let mut number := first
      let mut current := style 'b' 't'
      let mut blanks := 0
      for line in ← linesOfAll name 1 given.sources do
        let section? := if line = mark ++ mark ++ mark then some (style 'h' 'n')
          else if line = mark ++ mark then some (style 'b' 't')
          else if line = mark then some (style 'f' 'n')
          else none
        match section? with
        | some style =>
          current := style
          unless given.has 'p' do number := first
          emit "\n"
        | none =>
          blanks := if line = "" then blanks + 1 else 0
          let isDue := line ≠ "" || blanks % natural 'l' 1 = 0
          if current.holds line && isDue then
            let digits := toString number
            let shown := if format = "ln" then
                digits ++ String.ofList (List.replicate (width - digits.length) ' ')
              else if format = "rz" then
                String.ofList (List.replicate (width - digits.length) '0') ++ digits
              else column width number
            emit (shown ++ separator ++ line ++ "\n")
            number := number + natural 'i' 1
          else
            let blank := List.replicate (width + separator.length) ' '
            emit (String.ofList blank ++ line ++ "\n")

end CompositeKeys.Shell.Utility
