import CompositeKeys.Shell.Utility.Launching
import CompositeKeys.Shell.Utility.Listing

/-! A utility that walks through directories and does something with what it finds there. What it looks
for, and what it does, is an expression of tests and actions. -/

namespace CompositeKeys.Shell.Utility
open Files Procedure

/-- A number that a size or an age is compared with. -/
structure Measure where
  order : Ordering
  count : Nat

def Measure.holds (measure : Measure) (count : Nat) : Bool :=
  compare count measure.count == measure.order

/-- A test of something that has been found, or what is done with it. -/
inductive Test where
  | always
  | never
  | named (ignoresCase : Bool) (pattern : List Element)
  | located (ignoresCase : Bool) (pattern : List Element)
  | expression (matcher : Matcher)
  | kind (letters : List Char)
  | empty
  | size (unit : Nat) (measure : Measure)
  | mode (sign : Char) (bits : Nat)
  | allows (bits : Nat)
  | newerThan (path : String)
  | age (measure : Measure)
  | prune
  | quit
  | print (ending : String)
  | printAs (format : String)
  | remove
  | launch (command : List String) (isTogether : Bool)
  | negated (test : Test)
  | both (first second : Test)
  | either (first second : Test)
  | sequence (first second : Test)

/-- How deep it is looked for things, and in which order. -/
structure Walk where
  least : Nat := 0
  most : Option Nat := none
  contentsFirst : Bool := false
  followsLinks : Bool := false

/-- The words of an expression that are left, and what has been said of the walk. -/
structure Seeking where
  words : List String
  walk : Walk := {}

abbrev Seek := StateT Seeking (Except String)

def argument (test : String) : Seek String := do
  match (← get).words with
  | [] => throw s!"missing argument to \x60{test}'"
  | word :: words => modify ({ · with words }); return word

/-- The measure that a text spells, with what is left of it. -/
def measureOf (text : String) : Option (Measure × List Char) :=
  let (order, letters) := match text.toList with
    | '+' :: rest => (Ordering.gt, rest)
    | '-' :: rest => (Ordering.lt, rest)
    | letters => (Ordering.eq, letters)
  let digits := letters.takeWhile Char.isDigit
  if digits = [] then none
  else (Arithmetic.inBase? 10 digits).map fun count =>
    ({ order, count }, letters.drop digits.length)

/-- The words of a command up to its end. -/
def commandWords (test : String) : Nat → List String → Seek Test
  | 0, _ => throw s!"missing argument to \x60{test}'"
  | fuel + 1, before => do
    match (← get).words with
    | [] => throw s!"missing argument to \x60{test}'"
    | word :: words =>
      modify ({ · with words })
      if word = ";" then
        if before = [] then throw s!"missing argument to \x60{test}'"
        return .launch before.reverse false
      else if word = "+" && before.head? = some "\x7b\x7d" then
        return .launch before.reverse.dropLast true
      else commandWords test fuel (word :: before)

/-- The permissions that a text spells. -/
def permissions? (text : String) : Option Nat :=
  if text ≠ "" && text.toList.all Formatting.isOctal then Arithmetic.inBase? 8 text.toList
  else
    (text.splitOn ",").foldlM (fun bits clause =>
      let letters := clause.toList
      let who := letters.takeWhile ("ugoa".contains ·)
      match letters.drop who.length with
      | sign :: modes =>
        if "+=-".contains sign && modes.all ("rwxst".contains ·) then
          let value := modes.foldl (fun value letter =>
            value + (([('r', 4), ('w', 2), ('x', 1)].lookup letter).getD 0)) 0
          let all := who = [] || who.contains 'a'
          let places := [('u', 64), ('g', 8), ('o', 1)].filter fun entry =>
            all || who.contains entry.1
          some (places.foldl (fun bits entry => bits ||| value * entry.2) bits)
        else none
      | [] => none) 0

/-- Reads a test that takes words. -/
def testNamed (test : String) : Seek Test := do
  let count := fun word : String => do
    match number? word with
    | some count => return count
    | none => throw s!"Expected a positive decimal integer argument to {test}, but got {quotedWord word}"
  let setWalk := fun change : Walk → Walk =>
    modify fun seeking : Seeking => { seeking with walk := change seeking.walk }
  match test with
  | "-name" => return .named false (namePattern (← argument test))
  | "-iname" => return .named true (namePattern (← argument test).toLower)
  | "-path" | "-wholename" => return .located false (namePattern (← argument test))
  | "-ipath" | "-iwholename" => return .located true (namePattern (← argument test).toLower)
  | "-regex" | "-iregex" =>
    match Regex.parse .basicSearch (← argument test) with
    | .ok regex =>
      let whole : Regex := .sequence (.assertion .textStart)
        (.sequence regex (.assertion .textFinish))
      return .expression (whole.matcher { ignoresCase := test = "-iregex" })
    | .error message => throw message
  | "-type" | "-xtype" =>
    let letters := (← argument test).toList.filter (· ≠ ',')
    match letters.find? fun letter => !"bcdpflsD".contains letter with
    | some letter => throw s!"Unknown argument to {test}: {letter}"
    | none => return .kind letters
  | "-empty" => return .empty
  | "-size" =>
    let text ← argument test
    let units := [('b', 512), ('c', 1), ('w', 2), ('k', 1024), ('M', 1048576), ('G', 1073741824)]
    match measureOf text with
    | some (measure, []) => return .size 512 measure
    | some (measure, [letter]) =>
      match units.lookup letter with
      | some unit => return .size unit measure
      | none => throw s!"invalid -size type \x60{letter}'"
    | _ => throw s!"Invalid argument \x60{text}' to -size"
  | "-perm" =>
    let text ← argument test
    let sign := (text.toList.head?).filter ("-/".contains ·)
    let spelled := if sign.isSome then String.ofList (text.toList.drop 1) else text
    match permissions? spelled with
    | some bits => return .mode (sign.getD '=') bits
    | none => throw s!"invalid mode {quotedWord text}"
  | "-readable" => return .allows 4
  | "-writable" => return .allows 2
  | "-executable" => return .allows 1
  | "-newer" => return .newerThan (← argument test)
  | "-mtime" | "-atime" | "-ctime" | "-mmin" | "-amin" | "-cmin" =>
    let text ← argument test
    match measureOf text with
    | some (measure, []) => return .age measure
    | _ => throw s!"invalid argument \x60{text}' to \x60{test}'"
  | "-user" | "-group" | "-uid" | "-gid" =>
    return if ["root", "0"].contains (← argument test) then .always else .never
  | "-links" => return if (← argument test) = "1" then .kind ['f', 'l'] else .kind ['d']
  | "-true" | "-noleaf" | "-mount" | "-xdev" | "-daystart" | "-ignore_readdir_race"
  | "-nowarn" | "-warn" => return .always
  | "-follow" => setWalk ({ · with followsLinks := true }); return .always
  | "-false" => return .never
  | "-prune" => return .prune
  | "-quit" => return .quit
  | "-print" => return .print "\n"
  | "-print0" => return .print "\x00"
  | "-printf" => return .printAs (← argument test)
  | "-delete" => setWalk ({ · with contentsFirst := true }); return .remove
  | "-depth" | "-d" => setWalk ({ · with contentsFirst := true }); return .always
  | "-maxdepth" =>
    let most ← count (← argument test)
    setWalk ({ · with most := some most })
    return .always
  | "-mindepth" =>
    let least ← count (← argument test)
    setWalk ({ · with least })
    return .always
  | "-exec" | "-execdir" | "-ok" => commandWords test ((← get).words.length + 1) []
  | _ =>
    if test.startsWith "-" then throw s!"unknown predicate \x60{test}'"
    else throw s!"paths must precede expression: \x60{test}'"

def unclosed : String :=
  "invalid expression; I was expecting to find a ')' somewhere but did not see one."

mutual

/-- Reads tests of which one has to hold, at a level: the weakest connective stands first. -/
def tests (level : Nat) : Nat → Seek Test
  | 0 => throw "expression too deep"
  | fuel + 1 => do
    if 2 < level then
      match (← get).words with
      | [] => throw "invalid expression"
      | word :: words =>
        modify ({ · with words })
        match word with
        | "!" | "-not" => return .negated (← tests 3 fuel)
        | "(" =>
          let inner ← tests 0 fuel
          match (← get).words with
          | ")" :: words => modify ({ · with words }); return inner
          | _ => throw unclosed
        | ")" => throw "invalid expression; you have too many ')'"
        | "-o" | "-or" | "-a" | "-and" | "," =>
          throw s!"invalid expression; you have used a binary operator '{word}' with nothing before it."
        | _ => testNamed word
    else furtherTests level (← tests (level + 1) fuel) fuel
termination_by structural fuel => fuel

def furtherTests (level : Nat) (first : Test) : Nat → Seek Test
  | 0 => throw "expression too deep"
  | fuel + 1 => do
    match (← get).words with
    | [] => return first
    | word :: words =>
      let connectives := match level with
        | 0 => [","]
        | 1 => ["-o", "-or"]
        | _ => ["-a", "-and"]
      if connectives.contains word then
        modify ({ · with words })
        if words = [] then throw s!"expected an expression after '{word}'"
        let second ← tests (level + 1) fuel
        let whole := match level with
          | 0 => Test.sequence first second
          | 1 => .either first second
          | _ => .both first second
        furtherTests level whole fuel
      else if level = 2 && !(["-o", "-or", ",", ")"].contains word) then
        let second ← tests 3 fuel
        furtherTests level (.both first second) fuel
      else return first
termination_by structural fuel => fuel

end

/-- Whether a test shows or does something. -/
def Test.acts : Test → Bool
  | .print _ | .printAs _ | .remove | .launch .. => true
  | .negated test => test.acts
  | .both first second | .either first second | .sequence first second => first.acts || second.acts
  | _ => false

/-- Reads a whole expression. -/
def expressionOf (words : List String) : Except String (Test × Walk) := do
  if words = [] then return (.print "\n", {})
  let fuel := 20 * (words.length + 2)
  let (test, seeking) ← (tests 0 fuel).run { words }
  match seeking.words with
  | ")" :: _ => throw "you have too many ')'"
  | word :: _ => throw s!"paths must precede expression: \x60{word}'"
  | [] =>
    return (if test.acts then test else .both test (.print "\n"), seeking.walk)

/-- Something that has been found. -/
structure Found where
  path : String
  start : String
  depth : Nat
  place : Place
  entry : Entry

namespace Found

def name (found : Found) : String :=
  let trimmed := (found.path.toList.reverse.dropWhile (· = '/')).reverse
  if trimmed = [] then found.path
  else ((String.ofList trimmed).splitOn "/").getLast?.getD found.path

def directory (found : Found) : String :=
  let letters := found.path.toList
  let front := (letters.reverse.dropWhile (· ≠ '/')).drop 1
  if letters.contains '/' then .ofList front.reverse else "."

def letter (found : Found) : Char :=
  match found.entry with
  | .file _ => 'f'
  | .directory => 'd'
  | .link _ => 'l'

def size (found : Found) : Nat :=
  match found.entry with
  | .file text => (Text.bytesOf text).length
  | .directory => 4096
  | .link target => target.length

/-- What a directive of a format shows. -/
def shown (found : Found) (tree : FileTree) (letter : Char) : String :=
  match letter with
  | 'p' => found.path
  | 'f' => found.name
  | 'h' => found.directory
  | 'P' => .ofList ((found.path.toList.drop found.start.length).dropWhile (· = '/'))
  | 'H' => found.start
  | 's' => toString found.size
  | 'd' => toString found.depth
  | 'y' | 'Y' => .singleton found.letter
  | 'm' => .ofList (Nat.toDigits 8 (tree.mode found.place))
  | 'M' => String.singleton (kindLetter found.entry) ++ modeLetters (tree.mode found.place)
  | 'u' | 'g' => "root"
  | 'U' | 'G' => "0"
  | 'n' => if found.letter = 'd' then "2" else "1"
  | 'l' =>
    match found.entry with
    | .link target => Text.bytesOf target
    | _ => ""
  | letter => .ofList ['%', letter]

/-- What a format shows. -/
def format (found : Found) (tree : FileTree) : Nat → List Char → String
  | 0, _ | _, [] => ""
  | fuel + 1, '\\' :: rest =>
    let (letters, count) := Formatting.escape rest
    if rest.head? = some 'c' then ""
    else if count = 0 then "\\" ++ found.format tree fuel rest
    else String.ofList letters ++ found.format tree fuel (rest.drop count)
  | fuel + 1, '%' :: '%' :: rest => "%" ++ found.format tree fuel rest
  | fuel + 1, '%' :: rest =>
    let flags := rest.takeWhile fun letter => letter.isDigit || letter = '-'
    match rest.drop flags.length with
    | letter :: after =>
      let layout : Formatting.Layout :=
        { flags := flags.filter (· = '-')
          width := ((Arithmetic.inBase? 10 (flags.filter Char.isDigit))).getD 0 }
      String.ofList (layout.pad (found.shown tree letter).toList) ++ found.format tree fuel after
    | [] => "%"
  | fuel + 1, letter :: rest => String.singleton letter ++ found.format tree fuel rest

end Found

/-- What a search has come to: whether it goes on below, whether it is over, and the paths that
commands wait for. -/
structure Progress where
  isPruned : Bool := false
  isOver : Bool := false
  waiting : List (List String × List String) := []

abbrev Visit := StateT Progress Procedure

/-- Launches a command of an expression, and tells whether it has succeeded. -/
def launched (launcher : Launcher) (name : String) (words : List String) : Procedure Bool := do
  let before := (← get).status
  let _ ← release
  match ← launcher words with
  | some error =>
    complain name (quoted (words.headD "") ++ ": " ++ error.reason)
    setStatus before
    return false
  | none =>
    let isGood := (← get).status = 0
    setStatus before
    return isGood

/-- Whether a test holds for something, with what is done then. -/
def Test.perform (launcher : Launcher) (name : String) (found : Found) : Test → Visit Bool
  | .always => return true
  | .never => return false
  | .named ignoresCase pattern =>
    return isMatch pattern (if ignoresCase then found.name.toLower else found.name).toList
  | .located ignoresCase pattern =>
    return isMatch pattern (if ignoresCase then found.path.toLower else found.path).toList
  | .expression matcher => return matcher.isFound found.path.toList.toArray
  | .kind letters => return letters.contains found.letter
  | .empty => do
    let session ← getThe Session
    return match found.entry with
      | .file text => text = ""
      | .directory => !session.files.entries.any fun entry => entry.1.dropLast = found.place &&
          entry.1 ≠ []
      | .link _ => false
  | .size unit measure => return measure.holds ((found.size + unit - 1) / unit)
  | .mode sign bits => do
    let mode := (← getThe Session).files.mode found.place
    return match sign with
      | '-' => mode &&& bits = bits
      | '/' => bits = 0 || mode &&& bits ≠ 0
      | _ => mode = bits
  | .allows bits => do
    let mode := (← getThe Session).files.mode found.place
    return bits ≠ 1 || mode &&& 0o111 ≠ 0
  | .newerThan path => do
    match ← Procedure.find path with
    | .ok (place, _) => return (← getThe Session).files.isNewer found.place place
    | .error _ => return false
  | .age measure => return measure.holds 0
  | .prune => do
    modify ({ · with isPruned := true })
    return true
  | .quit => do
    modify ({ · with isOver := true })
    return true
  | .print ending => do
    emit (found.path ++ ending)
    return true
  | .printAs format => do
    emit (found.format (← getThe Session).files format.length format.toList)
    return true
  | .remove => do
    if found.path = "." then return true
    let hasMore := (← getThe Session).files.entries.any fun entry =>
      entry.1.dropLast = found.place && entry.1 ≠ []
    if found.letter = 'd' && hasMore then
      complain name s!"cannot delete {quoted found.path}: Directory not empty"
      setStatus 1
      return false
    modifyThe Session fun session =>
      { session with files := session.files.remove found.place }
    return true
  | .launch command isTogether => do
    if isTogether then
      modify fun progress =>
        let paths := (progress.waiting.lookup command).getD []
        { progress with
          waiting := (command, found.path :: paths) ::
            progress.waiting.filter fun entry => entry.1 != command }
      return true
    else launched launcher name (command.map (withItem "\x7b\x7d" found.path))
  | .negated test => return !(← test.perform launcher name found)
  | .both first second => do
    if ← first.perform launcher name found then
      if (← get).isOver then return true
      second.perform launcher name found
    else return false
  | .either first second => do
    if ← first.perform launcher name found then return true
    else second.perform launcher name found
  | .sequence first second => do
    let _ ← first.perform launcher name found
    second.perform launcher name found

/-- Walks through what is at a path and below it. -/
def Walk.visit (walk : Walk) (test : Test) (launcher : Launcher) (name : String) :
    Nat → Found → Visit Unit
  | 0, _ => pure ()
  | fuel + 1, found => do
    step
    if (← get).isOver then return
    modify ({ · with isPruned := false })
    let isShown := walk.least ≤ found.depth
    if isShown && !walk.contentsFirst then
      let _ ← test.perform launcher name found
    let progress ← get
    let goesDown := found.letter = 'd' && walk.most.all (found.depth < ·) && !progress.isPruned
    if goesDown then
      let tree := (← getThe Session).files
      let names := (tree.entries.filterMap fun (place, entry) =>
        if place.dropLast = found.place && place ≠ [] then
          place.getLast?.map fun name => (name, place, entry)
        else none).mergeSort fun first second => first.1 ≤ second.1
      for (below, place, entry) in names do
        let base := if found.path.endsWith "/" then found.path else found.path ++ "/"
        let path := base ++ Text.bytesOf below
        let (place, entry) := match entry, tree.find ⟨Text.keepingBytes path⟩ with
          | .link _, .ok target => if walk.followsLinks then target else (place, entry)
          | _, _ => (place, entry)
        walk.visit test launcher name fuel
          { path, start := found.start, depth := found.depth + 1, place, entry }
    if isShown && walk.contentsFirst then
      unless (← get).isOver do
        let _ ← test.perform launcher name found

/-- Splits words into the paths in front and an expression. -/
def pathsInFront (words : List String) : List String × List String :=
  let isPath := fun word : String =>
    !(word.startsWith "-" && word ≠ "-") && !(["(", ")", "!", ","].contains word)
  let paths := words.takeWhile isPath
  (paths, words.drop paths.length)

def find (launcher : Launcher) (name : String) (words : List String) : Procedure Unit := do
  setStatus 0
  let isWalkOption := fun word : String => ["-H", "-L", "-P"].contains word
  let options := words.takeWhile isWalkOption
  let (paths, rest) := pathsInFront (words.drop options.length)
  match expressionOf rest with
  | .error message =>
    complain name message
    setStatus 1
  | .ok (test, walk) =>
    let followsLinks := options.getLast? = some "-L" || walk.followsLinks
    let walk := { walk with followsLinks }
    let mut progress : Progress := {}
    for path in if paths = [] then ["."] else paths do
      unless progress.isOver do
        let found ← if followsLinks then Procedure.find path else findHere path
        match found with
        | .error error =>
          complain name s!"{quoted path}: {error.reason}"
          setStatus 1
        | .ok (place, entry) =>
          let (_, after) ← (walk.visit test launcher name 1000
            { path, start := path, depth := 0, place, entry }).run progress
          progress := after
    for (command, paths) in progress.waiting.reverse do
      unless ← launched launcher name (command ++ paths.reverse) do setStatus 1

end CompositeKeys.Shell.Utility
