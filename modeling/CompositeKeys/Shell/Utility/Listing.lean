import CompositeKeys.Shell.Utility.Filing

/-! Utilities that tell what is in directories, where paths lead, and how names are put together. -/

namespace CompositeKeys.Shell.Utility
open Files Procedure

/-- The number at the front of letters, with what is left of them. -/
def numberAndRest (letters : List Char) : Nat × List Char :=
  let digits := letters.takeWhile Char.isDigit
  ((Arithmetic.inBase? 10 digits).getD 0, letters.drop digits.length)

/-- How a letter sorts among the letters of a version: a tilde before the end, the end before
letters, and these before all others. -/
def versionRank (letter : Option Char) : Int :=
  match letter with
  | none => 0
  | some '~' => -1
  | some letter =>
    if letter.isDigit then 0 else if letter.isAlpha then letter.toNat else letter.toNat + 256

/-- Compares names piece by piece, letters as letters and digits as numbers. -/
def compareVersions : Nat → List Char → List Char → Ordering
  | 0, _, _ => .eq
  | _, [], [] => .eq
  | fuel + 1, first, second =>
    let isLetter := fun letters : List Char => letters.head?.any (!·.isDigit)
    if isLetter first || isLetter second then
      let order := compare (versionRank first.head?) (versionRank second.head?)
      if order ≠ .eq then order
      else compareVersions fuel (first.drop 1) (second.drop 1)
    else
      let (left, firstRest) := numberAndRest first
      let (right, secondRest) := numberAndRest second
      if left ≠ right then compare left right else compareVersions fuel firstRest secondRest

/-- A name without the endings that begin with a dot and a letter. -/
def withoutEndings (letters : List Char) : List Char :=
  let isEnding := fun letters : List Char =>
    (letters.head?.any fun letter => letter.isAlpha || letter = '~')
      && letters.all fun letter => letter.isAlphanum || letter = '~'
  let pieces := (String.ofList letters).splitOn "."
  let endings := (pieces.drop 1).reverse.takeWhile fun piece => isEnding piece.toList
  (".".intercalate (pieces.take (pieces.length - endings.length))).toList

/-- The order of names by the versions in them. -/
def versionOrder (first second : String) : Ordering :=
  if first = second then .eq
  else if first = "" || second = "" then compare first second
  else
    let isHidden := fun text : String => text.startsWith "."
    if isHidden first != isHidden second then if isHidden first then .lt else .gt
    else
      let fuel := first.length + second.length + 2
      let order := compareVersions fuel (withoutEndings first.toList) (withoutEndings second.toList)
      let order := order.then (compareVersions fuel first.toList second.toList)
      order.then (compare first second)

/-- An entry of a directory that is to be shown. -/
structure Listed where
  name : String
  place : Place
  entry : Entry

def Listed.size (listed : Listed) : Nat :=
  match listed.entry with
  | .directory => 4096
  | .file text => text.utf8ByteSize
  | .link target => target.utf8ByteSize

/-- The kibibytes that an entry takes. -/
def Listed.blocks (listed : Listed) : Nat :=
  match listed.entry with
  | .link _ => 0
  | _ => (listed.size + 4095) / 4096 * 4

/-- The ending of a name, from its last dot on. -/
def endingOf (name : String) : String :=
  let letters := name.toList.reverse
  let ending := letters.takeWhile (· ≠ '.')
  if ending.length = letters.length then "" else .ofList ('.' :: ending.reverse)

/-- The entries in the order that is asked for. -/
def ordered (given : Given) (files : FileTree) (entries : List Listed) : List Listed :=
  let byName := fun first second : Listed => compare first.name second.name
  let key := given.last? "tSXvUf"
  let order := fun first second : Listed => match key with
    | some 't' =>
      if files.isNewer first.place second.place then Ordering.lt
      else if files.isNewer second.place first.place then .gt else byName first second
    | some 'S' => (compare second.size first.size).then (byName first second)
    | some 'X' =>
      (compare (endingOf first.name) (endingOf second.name)).then (byName first second)
    | some 'v' => versionOrder first.name second.name
    | _ => byName first second
  let sorted := entries.mergeSort fun first second => order first second ≠ .gt
  let sorted := if given.has 'r' then sorted.reverse else sorted
  if given.has 'ğ' then
    let (directories, others) := sorted.partition (·.entry = .directory)
    directories ++ others
  else sorted

/-- A size in the unit that keeps it short. -/
def shortSize (size : Nat) : String :=
  let rec go (unit : Nat) : List Char → String
    | [] => toString size
    | letter :: rest =>
      if size < unit * 1024 || rest = [] then
        let tenths := (size * 10 + unit - 1) / unit
        if tenths < 100 then s!"{tenths / 10}.{tenths % 10}" ++ .singleton letter
        else toString ((size + unit - 1) / unit) ++ .singleton letter
      else go (unit * 1024) rest
  if size < 1024 then toString size else go 1024 ['K', 'M', 'G']

/-- A name as it is shown, with a mark for what it is. -/
def Listed.shown (given : Given) (files : FileTree) (listed : Listed) : String :=
  let name := if given.has 'Q' then "\"" ++ listed.name ++ "\"" else listed.name
  match listed.entry with
  | .directory => if given.hasAny "Fp" then name ++ "/" else name
  | .link target =>
    if given.hasAny "lngo" then s!"{name} -> {Text.bytesOf target}"
    else if given.has 'F' then name ++ "@" else name
  | .file _ =>
    if given.has 'F' && files.isExecutable listed.place then name ++ "*" else name

def kindLetter : Entry → Char
  | .directory => 'd'
  | .file _ => '-'
  | .link _ => 'l'

/-- The number of names that lead to an entry. -/
def linkCount (files : FileTree) (place : Place) (entry : Entry) : Nat :=
  if entry = .directory then
    2 + (files.entries.filter fun other =>
      other.1.dropLast = place && other.2 = .directory).length
  else 1

/-- The lines of entries with all that is known of them. -/
def longLines (given : Given) (files : FileTree) (entries : List Listed) : List String :=
  let size := fun listed : Listed =>
    if given.has 'h' then shortSize listed.size else toString listed.size
  let count := fun listed : Listed => toString (linkCount files listed.place listed.entry)
  let widest := fun texts : List String => (texts.map String.length).foldl max 0
  let countWidth := widest (entries.map count)
  let sizeWidth := widest (entries.map size)
  let who := if given.has 'n' then "0" else "root"
  let owner := (if given.has 'g' then "" else " " ++ who) ++
    (if given.hasAny "oG" then "" else " " ++ who)
  entries.map fun listed =>
    String.singleton (kindLetter listed.entry) ++ modeLetters (files.mode listed.place) ++ " " ++
      toRight countWidth (count listed) ++ owner ++ " " ++ toRight sizeWidth (size listed) ++
      " Jan  1 00:00 " ++ listed.shown given files

/-- Blanks from one column to another, with tabs where they fit. -/
def indentation : Nat → Nat → Nat → String
  | 0, _, _ => ""
  | fuel + 1, start, finish =>
    if finish ≤ start then ""
    else if (start + 1) / 8 < finish / 8 then "\t" ++ indentation fuel (start + 8 - start % 8) finish
    else " " ++ indentation fuel (start + 1) finish

/-- Names in as many columns as fit into a line. -/
def inColumns (isAcross : Bool) (width : Nat) (names : List String) : String :=
  let total := names.length
  let rowsFor := fun columns : Nat => (total + columns - 1) / max columns 1
  let columnOf := fun columns index : Nat =>
    if isAcross then index % columns else index / max (rowsFor columns) 1
  let widthsFor := fun columns : Nat => (List.range columns).map fun column =>
    ((names.zipIdx.filter fun (_, index) => columnOf columns index = column).map fun (name, _) =>
      name.length + if column + 1 = columns then 0 else 2).foldl max 0
  let most := max 1 (min total (width / 3))
  let columns := (((List.range most).map (most - ·)).find? fun columns =>
    (widthsFor columns).foldl (· + ·) 0 < width).getD 1
  let widths := widthsFor columns
  let rows := if isAcross then rowsFor columns else rowsFor columns
  let lines := (List.range rows).map fun row =>
    let inRow := (List.range columns).filterMap fun column =>
      let index := if isAcross then row * columns + column else column * rows + row
      (names[index]?).map fun name => (name, widths.getD column 0)
    let rec go (position : Nat) : List (String × Nat) → String
      | [] => "\n"
      | [(name, _)] => name ++ "\n"
      | (name, width) :: rest =>
        let finish := position + width
        name ++ indentation (width + 1) (position + name.length) finish ++ go finish rest
    go 0 inRow
  "".intercalate lines

/-- Names in lines, with commas between them. -/
def withCommas (width : Nat) : Nat → List String → String
  | _, [] => "\n"
  | _, [name] => name ++ "\n"
  | position, name :: next :: rest =>
    let position := position + name.length
    if position + next.length + 2 < width then
      name ++ ", " ++ withCommas width (position + 2) (next :: rest)
    else name ++ ",\n" ++ withCommas width 0 (next :: rest)

/-- Shows entries in the form that is asked for. -/
def showEntries (given : Given) (entries : List Listed) : Procedure Unit := do
  let files := (← get).files
  let width := ((given.value? 'w').bind number?).getD 80
  let withBlocks := fun (listed : Listed) (text : String) =>
    if given.has 's' then s!"{listed.blocks} {text}" else text
  let names := entries.map fun listed => withBlocks listed (listed.shown given files)
  let style := given.last? "l1Cxmngo"
  let isLong := style.any ("lngo".contains ·) || (given.hasAny "lngo" && style = some '1')
  if isLong then
    for (line, listed) in (longLines given files entries).zip entries do
      emit (withBlocks listed line ++ "\n")
  else if style = some 'C' || style = some 'x' then
    unless names = [] do emit (inColumns (style = some 'x') width names)
  else if style = some 'm' then
    unless names = [] do emit (withCommas width 0 names)
  else for name in names do emit (name ++ "\n")

/-- Lists directories, each under a heading if there are several. -/
def listDirectories (given : Given) (hasHeadings : Bool) :
    Nat → Bool → List (String × Place) → Procedure Unit
  | 0, _, _ | _, _, [] => pure ()
  | fuel + 1, isFirst, (path, place) :: rest => do
    let files := (← get).files
    if hasHeadings then
      let shown := if given.has 'Q' then "\"" ++ path ++ "\"" else path
      emit ((if isFirst then "" else "\n") ++ shown ++ ":\n")
    let inside := files.entries.filter fun other => other.1 ≠ [] && other.1.dropLast = place
    let all : List Listed := inside.map fun (place, entry) =>
      { name := Text.bytesOf (place.getLastD ""), place, entry }
    let visible := if given.hasAny "aAf" then all else all.filter (!·.name.startsWith ".")
    let visible := if given.has 'B' then visible.filter (!·.name.endsWith "~") else visible
    let visible := visible.filter fun listed => !isNamedBy (given.values 'I') listed.name
    let dots : List Listed := [(".", place), ("..", place.dropLast)].map fun (name, place) =>
      { name, place, entry := .directory }
    let dots := if given.hasAny "af" then dots else []
    let entries := ordered given files (dots ++ visible)
    if given.hasAny "lngos" then
      emit s!"total {(entries.map Listed.blocks).foldl (· + ·) 0}\n"
    showEntries given entries
    let inner := if given.has 'R' then
        (entries.filter fun listed =>
          listed.entry = .directory && listed.name ≠ "." && listed.name ≠ "..").map fun listed =>
            (below path listed.name, listed.place)
      else []
    listDirectories given hasHeadings fuel false (inner ++ rest)

/-- What a path leads to, which is a link if this leads nowhere. -/
def followed (path : String) : Procedure (Except FileError (Place × Entry)) := do
  match ← find path with
  | .ok found => return .ok found
  | .error error =>
    match ← findHere path with
    | .ok found => return .ok found
    | .error _ => return .error error

def list (name : String) (words : List String) : Procedure Unit :=
  withGiven name 2
    { plain := "aA1dRFprCxlmhtSGgoniskQUfvXBLHNbcqukğ", valued := "wIT"
      optional := "ĉį"
      long := [("all", 'a'), ("almost-all", 'A'), ("recursive", 'R'), ("reverse", 'r'),
        ("directory", 'd'), ("classify", 'F'), ("human-readable", 'h'), ("size", 's'),
        ("color", 'ĉ'), ("group-directories-first", 'ğ'), ("sort", 'į'), ("width", 'w'),
        ("dereference", 'L'), ("quote-name", 'Q'), ("literal", 'N'), ("no-group", 'G'), ("ignore", 'I'), ("ignore-backups", 'B')] } words
    fun given => do
      let sorts := [("size", 'S'), ("time", 't'), ("extension", 'X'), ("version", 'v'),
        ("none", 'U'), ("name", 'ñ')]
      let given := { given with
        options := given.options.map fun option =>
          if option.1 = 'į' then ((sorts.lookup option.2).getD 'ñ', "") else option }
      let operands := if given.operands = [] then ["."] else given.operands
      let mut files := []
      let mut directories := []
      let isLong := given.hasAny "lngo" && !given.hasAny "LH"
      for operand in operands do
        let found ← if isLong || given.hasAny "dF" then findHere operand
          else followed operand
        match found with
        | .error error =>
          complain name s!"cannot access {quoted operand}: {error.reason}"
          setStatus 2
        | .ok (place, entry) =>
          let listed : Listed := { name := operand, place, entry }
          if entry = .directory && !given.has 'd' then directories := directories ++ [listed]
          else
            let own ← findHere operand
            let place := if given.has 'L' then place else (own.toOption.map Prod.fst).getD place
            let entry := if given.has 'L' then entry
              else (own.toOption.map Prod.snd).getD entry
            files := files ++ [{ listed with place, entry }]
      let tree := (← get).files
      showEntries given (ordered given tree files)
      let hasHeadings := 1 < operands.length || given.has 'R'
      let count := tree.entries.length + operands.length + 1
      listDirectories given hasHeadings count (files = [])
        ((ordered given tree directories).map fun listed => (listed.name, listed.place))

/-- What a directive stands for in a format about a file. -/
def statistic (files : FileTree) (path : String) (place : Place) (entry : Entry) :
    Char → String
  | 'n' => path
  | 'N' =>
    match entry with
    | .link target => s!"{quoted path} -> {quoted (Text.bytesOf target)}"
    | _ => quoted path
  | 's' => toString ({ name := path, place, entry : Listed }).size
  | 'a' => .ofList (Nat.toDigits 8 (files.mode place))
  | 'A' => String.singleton (kindLetter entry) ++ modeLetters (files.mode place)
  | 'F' => kindName entry
  | 'U' | 'G' => "root"
  | 'u' | 'g' | 't' | 'T' => "0"
  | 'h' => toString (linkCount files place entry)
  | 'f' =>
    let kind := match entry with
      | .directory => 0o40000
      | .file _ => 0o100000
      | .link _ => 0o120000
    .ofList (Nat.toDigits 16 (kind + files.mode place))
  | 'B' => "512"
  | 'b' => toString (2 * ({ name := path, place, entry : Listed }).blocks)
  | 'o' => "4096"
  | 'm' => "/"
  | '%' => "%"
  | _ => "?"

/-- A format with its directives replaced, and escapes if there are any. -/
def statisticLine (files : FileTree) (path : String) (place : Place) (entry : Entry)
    (hasEscapes : Bool) : Nat → List Char → String
  | 0, _ | _, [] => ""
  | fuel + 1, letter :: rest =>
    let on := statisticLine files path place entry hasEscapes fuel
    match letter, rest with
    | '%', _ =>
      let flags := rest.takeWhile fun letter => letter.isDigit || "-+ #.".contains letter
      match rest.drop flags.length with
      | kind :: after =>
        let (layout, _) := ((Formatting.layout flags).run { arguments := [] }).1
        String.ofList (layout.pad (statistic files path place entry kind).toList) ++ on after
      | [] => "%"
    | '\\', _ =>
      if hasEscapes then
        let (value, taken) := Formatting.escape rest
        String.ofList value ++ on (rest.drop taken)
      else "\\" ++ on rest
    | _, _ => String.singleton letter ++ on rest

def showStatistics (name : String) (words : List String) : Procedure Unit :=
  withGiven name 1
    { plain := "Lft", valued := "cƥ"
      long := [("format", 'c'), ("printf", 'ƥ'), ("dereference", 'L'), ("terse", 't')] } words
    fun given => do
      if given.operands = [] then missingOperand name
      let format := ((given.value? 'c').or (given.value? 'ƥ')).getD "  File: %N"
      let hasEscapes := given.has 'ƥ'
      for operand in given.operands do
        let found ← if given.has 'L' then find operand else findHere operand
        match found with
        | .error error => refusal name "cannot statx" operand error
        | .ok (place, entry) =>
          let files := (← get).files
          let text := statisticLine files operand place entry hasEscapes (format.length + 1)
            format.toList
          emit (if hasEscapes then text else text ++ "\n")

/-- How much of a path has to be there for it to be told where it leads. -/
inductive Presence where
  | all
  | parent
  | nothing
  deriving DecidableEq

/-- The place that a path leads to, all links followed. Where nothing has to be there, names are
taken as they are. -/
def canonical (files : FileTree) (presence : Presence) (path : String) : Except FileError Place :=
  let path := pathOf path
  let steps := FileTree.stepsOf path
  let plain := steps.foldl (fun place step =>
    if step = "." then place else if step = ".." then place.dropLast
    else
      let next := place ++ [step]
      match files.resolve (FileTree.linkLimit + 1) place [step] with
      | .ok (place, _) => place
      | .error _ => next) (files.start path)
  match presence with
  | .nothing => if path.text = "" then .error .notFound else .ok plain
  | .all => (files.find path).map Prod.fst
  | .parent => do
    FileTree.checkPath path
    let (place, entry) ← files.resolve (FileTree.linkLimit + 1) (files.start path) steps
    if FileTree.endsInSlash path then
      if entry.any (· ≠ .directory) then throw .notDirectory
    return place

def pathOfPlace (place : Place) : String := "/" ++ "/".intercalate (place.map Text.bytesOf)

def readLink (name : String) (words : List String) : Procedure Unit :=
  withGiven name 1
    { plain := "femnqsvz"
      long := [("canonicalize", 'f'), ("canonicalize-existing", 'e'),
        ("canonicalize-missing", 'm'), ("no-newline", 'n'), ("verbose", 'v'), ("quiet", 'q'),
        ("zero", 'z')] } words
    fun given => do
      if given.operands = [] then missingOperand name
      let several := 1 < given.operands.length
      if several && given.has 'n' then
        complain name "ignoring --no-newline with multiple arguments"
      let ending := if given.has 'n' && !several then "" else if given.has 'z' then "\x00" else "\n"
      let presence? : Option Presence := match given.last? "fem" with
        | some 'f' => some .parent
        | some 'e' => some .all
        | some _ => some .nothing
        | none => none
      for operand in given.operands do
        let files := (← get).files
        let found : Except FileError String := match presence? with
          | some presence => (canonical files presence operand).map pathOfPlace
          | none =>
            match files.findHere (pathOf operand) with
            | .ok (_, .link target) => .ok (Text.bytesOf target)
            | .ok _ => .error .invalid
            | .error error => .error error
        match found with
        | .ok text => emit (text ++ ending)
        | .error error =>
          setStatus 1
          if given.last? "qsv" = some 'v' then
            complain name s!"{quotedIfNeeded operand}: {error.reason}"

def realPath (name : String) (words : List String) : Procedure Unit :=
  withGiven name 1
    { plain := "emqsLPz", valued := "řƀ"
      long := [("canonicalize-existing", 'e'), ("canonicalize-missing", 'm'), ("quiet", 'q'),
        ("strip", 's'), ("no-symlinks", 's'), ("relative-to", 'ř'), ("relative-base", 'ƀ'),
        ("zero", 'z')] } words
    fun given => do
      if given.operands = [] then missingOperand name
      let presence : Presence := match given.last? "em" with
        | some 'e' => .all
        | some _ => .nothing
        | none => .parent
      let found := fun (files : FileTree) (path : String) =>
        if given.has 's' then
          if path = "" then Except.error FileError.notFound
          else
            let path := pathOf path
            .ok ((FileTree.stepsOf path).foldl (fun place step =>
              if step = "." then place else if step = ".." then place.dropLast
              else place ++ [step]) (files.start path))
        else canonical files presence path
      for operand in given.operands do
        let files := (← get).files
        match found files operand with
        | .ok place =>
          let base := (given.value? 'ƀ').bind fun path => (found files path).toOption
          let from? := ((given.value? 'ř').bind fun path => (found files path).toOption).or base
          let isUnder := fun place : Place => base.all (·.isPrefixOf place)
          let shown := match from? with
            | some directory =>
              if isUnder place && isUnder directory then wayFrom directory place
              else pathOfPlace place
            | none => pathOfPlace place
          emit (shown ++ if given.has 'z' then "\x00" else "\n")
        | .error error =>
          setStatus 1
          unless given.has 'q' do complain name s!"{quotedIfNeeded operand}: {error.reason}"

def baseName (name : String) (words : List String) : Procedure Unit :=
  withGiven name 1
    { plain := "az", valued := "s", stopsAtOperand := true
      long := [("multiple", 'a'), ("suffix", 's'), ("zero", 'z')] } words
    fun given => do
      let ending := if given.has 'z' then "\x00" else "\n"
      let trimmed := fun (suffix word : String) =>
        let last := lastName word
        let kept := if last.endsWith suffix && last ≠ suffix then
          String.ofList (last.toList.take (last.length - suffix.length)) else last
        kept ++ ending
      let suffix := (given.value? 's').getD ""
      if given.operands = [] then missingOperand name
      else if given.hasAny "as" then
        for word in given.operands do emit (trimmed suffix word)
      else match given.operands with
        | [word] => emit (trimmed "" word)
        | [word, suffix] => emit (trimmed suffix word)
        | _ => extraOperand name (given.operands.getD 2 "")

def directoryName (name : String) (words : List String) : Procedure Unit :=
  withGiven name 1 { plain := "z", long := [("zero", 'z')] } words fun given => do
    if given.operands = [] then missingOperand name
    for operand in given.operands do
      emit (parentName operand ++ if given.has 'z' then "\x00" else "\n")

/-- Checks whether paths can be used. -/
def checkPaths (name : String) (words : List String) : Procedure Unit :=
  withGiven name 1 { plain := "pP", long := [("portability", 'p')] } words fun given => do
    if given.operands = [] then missingOperand name
    for operand in given.operands do
      let portable := fun letter : Char => letter.isAlphanum || "._-/".contains letter
      if operand = "" then
        if given.has 'p' then complain name "empty file name"
        else complain name "'': No such file or directory"
        setStatus 1
      else if given.has 'p' then
        if let some letter := operand.toList.find? (!portable ·) then
          complain name s!"nonportable character '{letter}' in file name {quoted operand}"
          setStatus 1
      else match ← find operand with
        | .error .notFound | .ok _ => pure ()
        | .error error =>
          complain name s!"{quotedIfNeeded operand}: {error.reason}"
          setStatus 1

end CompositeKeys.Shell.Utility
