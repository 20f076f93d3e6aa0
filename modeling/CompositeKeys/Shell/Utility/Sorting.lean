import CompositeKeys.Shell.Utility.Listing

/-! How lines are put in order: by their keys, which are parts of lines that are compared in the way
that is asked for, and then as they are. -/

namespace CompositeKeys.Shell.Utility
open Files Procedure

/-- Where a key begins or ends: so many fields on, and so many letters on from there. -/
structure Spot where
  field : Nat
  letter : Nat
  skipsBlanks : Bool := false

/-- A part of lines that they are sorted by, and letters for how it is compared. -/
structure Key where
  first : Spot := { field := 0, letter := 0 }
  last : Option Spot := none
  flags : List Char := []

def isBlankLetter (letter : Char) : Bool := letter = ' ' || letter = '\t' || letter = '\n'

/-- The spot that a text spells, with the letters after it. -/
def spotOf (text : String) (isLast : Bool) : Except String (Spot × List Char) :=
  let letters := text.toList
  let (field, rest) := numberAndRest letters
  let place := if isLast then "after ','" else "at field start"
  if letters.head?.all (!·.isDigit) then
    .error s!"invalid number {place}: invalid count at start of {quotedWord text}"
  else if field = 0 then
    .error s!"field number is zero: invalid field specification {quotedWord text}"
  else match rest with
    | '.' :: after =>
      let (letter, flags) := numberAndRest after
      if after.head?.all (!·.isDigit) then
        .error s!"invalid number after '.': invalid count at start of {quotedWord (.ofList after)}"
      else if !isLast && letter = 0 then
        .error s!"character offset is zero: invalid field specification {quotedWord text}"
      else .ok ({ field := field - 1, letter := if isLast then letter else letter - 1 }, flags)
    | flags => .ok ({ field := field - 1, letter := 0 }, flags)

/-- The key that a text spells. -/
def keyOf (text : String) : Except String Key := do
  let isFlag := fun letter : Char => "bdfgiMhnRrV".contains letter
  let stray := s!"stray character in field spec: invalid field specification {quotedWord text}"
  match text.splitOn "," with
  | [only] =>
    let (first, flags) ← spotOf only false
    unless flags.all isFlag do throw stray
    let first := { first with skipsBlanks := flags.contains 'b' }
    return { first, flags := flags.filter (· ≠ 'b') }
  | [start, finish] =>
    let (first, flags) ← spotOf start false
    let (last, more) ← spotOf finish true
    unless (flags ++ more).all isFlag do throw stray
    return {
      first := { first with skipsBlanks := flags.contains 'b' }
      last := some { last with skipsBlanks := more.contains 'b' }
      flags := (flags ++ more).filter (· ≠ 'b') }
  | _ => throw stray

/-- Whether a key says nothing of how it is compared. -/
def Key.isPlain (key : Key) : Bool :=
  key.flags = [] && !key.first.skipsBlanks && key.last.all (!·.skipsBlanks)

/-- Skips blanks, and the letters after them up to the next ones. -/
def skipField (letters : List Char) : List Char :=
  (letters.dropWhile isBlankLetter).dropWhile (!isBlankLetter ·)

/-- The letters after so many fields. -/
def afterFields (separator : Option Char) : Nat → List Char → List Char
  | 0, letters => letters
  | count + 1, letters =>
    match separator with
    | none => afterFields none count (skipField letters)
    | some mark => afterFields separator count ((letters.dropWhile (· ≠ mark)).drop 1)

/-- The letters after the end of a key. -/
def afterKey (separator : Option Char) (last : Spot) (letters : List Char) : List Char :=
  if last.letter = 0 then
    match separator with
    | none => afterFields none (last.field + 1) letters
    | some mark => (afterFields separator last.field letters).dropWhile (· ≠ mark)
  else
    let rest := afterFields separator last.field letters
    let rest := if last.skipsBlanks then rest.dropWhile isBlankLetter else rest
    rest.drop last.letter

/-- The part of a line that a key is about. -/
def Key.part (key : Key) (separator : Option Char) (line : List Char) : List Char :=
  let rest := afterFields separator key.first.field line
  let rest := if key.first.skipsBlanks then rest.dropWhile isBlankLetter else rest
  let rest := rest.drop key.first.letter
  match key.last with
  | none => rest
  | some last => rest.take (rest.length - (afterKey separator last line).length)

/-- The number at the front of letters: whether it is negative, its digits before the point without
zeros in front, those after it without zeros at the end, and what is left. -/
def plainNumber (letters : List Char) : Bool × List Char × List Char × List Char :=
  let letters := letters.dropWhile isBlankLetter
  let (isNegative, letters) := match letters with
    | '-' :: rest => (true, rest)
    | _ => (false, letters)
  let whole := letters.takeWhile Char.isDigit
  let rest := letters.drop whole.length
  let (places, rest) := match rest with
    | '.' :: after =>
      let places := after.takeWhile Char.isDigit
      (places, after.drop places.length)
    | _ => ([], rest)
  let whole := whole.dropWhile (· = '0')
  let places := (places.reverse.dropWhile (· = '0')).reverse
  (isNegative && (whole ≠ [] || places ≠ []), whole, places, rest)

def compareNumbers (first second : List Char) : Ordering :=
  let (isNegative, whole, places, _) := plainNumber first
  let (isOtherNegative, otherWhole, otherPlaces, _) := plainNumber second
  let size := ((compare whole.length otherWhole.length).then (compare whole otherWhole)).then
    (compare places otherPlaces)
  match isNegative, isOtherNegative with
  | true, false => .lt
  | false, true => .gt
  | true, true => size.swap
  | false, false => size

/-- The rank of the unit after a number, which counts against it if the number is negative. -/
def unitRank (letters : List Char) : Int :=
  let (isNegative, whole, places, rest) := plainNumber letters
  let rank : Nat := ((["K", "M", "G", "T", "P", "E", "Z", "Y"].findIdx? fun unit =>
    rest.head?.any fun letter => unit = .singleton letter.toUpper).map (· + 1)).getD 0
  if whole = [] && places = [] then 0 else if isNegative then -(rank : Int) else rank

def monthRank (letters : List Char) : Nat :=
  let name := ((letters.dropWhile isBlankLetter).take 3).map Char.toUpper
  let names := ["JAN", "FEB", "MAR", "APR", "MAY", "JUN", "JUL", "AUG", "SEP", "OCT", "NOV", "DEC"]
  ((names.findIdx? (·.toList = name)).map (· + 1)).getD 0

/-- How a text counts as a number with a fraction: what is no number goes first. -/
def floatingRank (letters : List Char) : Nat × Float :=
  match Floating.atFront? .double letters with
  | none => (0, 0)
  | some (.undefined _, _) => (1, 0)
  | some (value, _) => (2, value.toFloat)

/-- The order of two parts as flags want it. -/
def compareParts (flags : List Char) (first second : List Char) : Ordering :=
  let has := fun letter : Char => flags.contains letter
  let kept := fun letters : List Char =>
    let letters := if has 'd' then
        letters.filter fun letter => letter.isAlphanum || isBlankLetter letter
      else if has 'i' then letters.filter fun letter => 32 ≤ letter.toNat && letter.toNat < 127
      else letters
    if has 'f' then letters.map Char.toUpper else letters
  let order :=
    if has 'n' then compareNumbers first second
    else if has 'h' then
      (compare (unitRank first) (unitRank second)).then (compareNumbers first second)
    else if has 'g' then
      let (rank, value) := floatingRank first
      let (otherRank, other) := floatingRank second
      (compare rank otherRank).then
        (if value < other then .lt else if other < value then .gt else .eq)
    else if has 'M' then compare (monthRank first) (monthRank second)
    else if has 'V' then versionOrder (.ofList (kept first)) (.ofList (kept second))
    else compare (kept first) (kept second)
  if has 'r' then order.swap else order

/-- How lines are compared. -/
structure Collation where
  separator : Option Char
  keys : List Key
  isReversed : Bool
  isFinal : Bool

/-- The order of two lines by keys. -/
def Collation.byKeys (collation : Collation) (first second : String) : Ordering :=
  collation.keys.foldl (fun order key =>
    order.then (compareParts key.flags (key.part collation.separator first.toList)
      (key.part collation.separator second.toList))) .eq

/-- The order of two lines. -/
def Collation.compare (collation : Collation) (first second : String) : Ordering :=
  let order := collation.byKeys first second
  if collation.isFinal then order
  else
    let whole := Ord.compare first.toList second.toList
    order.then (if collation.isReversed then whole.swap else whole)

/-- Keeps the first of lines that are next to one another and alike. -/
def withoutRepeated (isAlike : String → String → Bool) : List String → List String
  | [] => []
  | line :: rest =>
    match withoutRepeated isAlike rest with
    | [] => [line]
    | next :: others => if isAlike line next then line :: others else line :: next :: others

/-- The way in which lines are to be compared. -/
def collationOf (given : Given) : Except String Collation := do
  let keys ← (given.values 'k').mapM keyOf
  let flags := (given.options.map Prod.fst).filter ("dfgiMhnRrV".contains ·)
  let skipsBlanks := given.has 'b'
  let inherited := fun key : Key =>
    if key.isPlain then
      { key with
        flags
        first := { key.first with skipsBlanks }
        last := key.last.map ({ · with skipsBlanks }) }
    else key
  let keys := if keys = [] then [inherited {}] else keys.map inherited
  for key in keys do
    let has := fun flag : Char => key.flags.contains flag
    let ignores := if has 'd' then ['d'] else if has 'i' then ['i'] else []
    let others := "VR".toList.filter has
    let kinds := "nghM".toList.filter has
    if 1 < kinds.length + (if others ++ ignores = [] then 0 else 1) then
      let shown := (ignores ++ "fghMnRV".toList.filter has).mergeSort fun first second =>
        first.toLower < second.toLower || (first.toLower = second.toLower && first.isUpper)
      throw s!"options '-{String.ofList shown}' are incompatible"
  let separator ← match given.value? 't' with
    | none => pure none
    | some "\\0" => pure (some '\x00')
    | some text =>
      match text.toList with
      | [letter] => pure (some letter)
      | [] => throw "empty tab"
      | _ => throw s!"multi-character tab {quotedWord text}"
  return {
    separator
    keys
    isReversed := given.has 'r'
    isFinal := given.hasAny "us" }

/-- Where lines are out of order, with the number of the second one. -/
def disorder? (isRight : String → String → Bool) : Nat → List String → Option (Nat × String)
  | number, first :: second :: rest =>
    if isRight first second then disorder? isRight (number + 1) (second :: rest)
    else some (number + 1, second)
  | _, _ => none

/-- Merges lines that are in order. -/
def merged (isRight : String → String → Bool) : Nat → List String → List String → List String
  | 0, first, second => first ++ second
  | _, [], second => second
  | _, first, [] => first
  | fuel + 1, left :: first, right :: second =>
    if isRight left right then left :: merged isRight fuel first (right :: second)
    else right :: merged isRight fuel (left :: first) second

def sort (name : String) (words : List String) : Procedure Unit :=
  withGiven name 2
    { plain := "bdfgiMhnRrVcCmsuz", valued := "ktoSTş"
      optional := "č"
      long := [("reverse", 'r'), ("numeric-sort", 'n'), ("unique", 'u'), ("key", 'k'),
        ("field-separator", 't'), ("ignore-case", 'f'), ("check", 'č'), ("output", 'o'),
        ("stable", 's'), ("merge", 'm'), ("human-numeric-sort", 'h'), ("version-sort", 'V'),
        ("general-numeric-sort", 'g'), ("month-sort", 'M'), ("dictionary-order", 'd'),
        ("ignore-leading-blanks", 'b'), ("ignore-nonprinting", 'i'), ("zero-terminated", 'z'),
        ("sort", 'ş'), ("parallel", 'S'), ("random-sort", 'R')] } words
    fun given => do
      let kinds := [("human-numeric", 'h'), ("numeric", 'n'), ("version", 'V'), ("month", 'M'),
        ("general-numeric", 'g')]
      let given := { given with
        options := given.options.map fun option : Char × String =>
          if option.1 = 'ş' then ((kinds.lookup option.2).getD 'ş', "")
          else if option.1 = 'č' then
            (if ["quiet", "silent"].contains option.2 then 'C' else 'c', "")
          else option }
      let ending := if given.has 'z' then '\x00' else '\n'
      match collationOf given with
      | .error message =>
        complain name message
        setStatus 2
      | .ok collation =>
        let mut texts := []
        let mut isFaulty := false
        if let some extra := (given.operands[1]?).filter fun _ => given.hasAny "cC" then
          let option := if given.last? "cC" = some 'C' then 'C' else 'c'
          complain name s!"extra operand {quotedWord extra} not allowed with -{option}"
          isFaulty := true
        let checks := given.hasAny "cC"
        let refuse := fun (reason path : String) (error : FileError) =>
          complain name s!"{reason}: {quotedIfNeeded path}: {error.reason}"
        for operand in given.sources do
          unless isFaulty || operand = "-" do
            if let .error error ← Procedure.find operand then
              refuse (if checks then "open failed" else "cannot read") operand error
              isFaulty := true
        if let some path := (given.value? 'o').filter fun _ => !isFaulty && !checks then
          if let .error .notFound ← Procedure.find path then
            if let some error := ← writeFile path "" then
              refuse "open failed" path error
              isFaulty := true
        for operand in given.sources do
          unless isFaulty do
            match ← contents operand with
            | .ok text => texts := texts ++ [recordsIn ending text]
            | .error error =>
              refuse (if error = .isDirectory then "read failed" else "cannot read") operand error
              isFaulty := true
        if isFaulty then setStatus 2
        else if given.hasAny "cC" then
          let isRight := fun first second : String =>
            let order := collation.compare first second
            if given.has 'u' then order == .lt else order != .gt
          if let some (number, line) := disorder? isRight 1 texts.flatten then
            unless given.has 'C' do
              complain name (given.sources.headD "-" ++ s!":{number}: disorder: {line}")
            setStatus 1
        else
          let isRight := fun first second : String => collation.compare first second != .gt
          let sorted := if given.has 'm' then
              texts.foldl (fun done lines =>
                merged isRight (done.length + lines.length) done lines) []
            else texts.flatten.mergeSort isRight
          let kept := if given.has 'u' then
              withoutRepeated (fun first second => collation.byKeys first second = .eq) sorted
            else sorted
          let text := "".intercalate (kept.map (·.push ending))
          match given.value? 'o' with
          | none => emit text
          | some path =>
            if let some error := ← writeFile path text then
              refuse "open failed" path error
              setStatus 2

end CompositeKeys.Shell.Utility
