import CompositeKeys.Shell.Permissions
import CompositeKeys.Shell.Utility.Reporting

/-! Utilities that make, copy, move, mark and remove files and directories. -/

namespace CompositeKeys.Shell.Utility
open Files Procedure

/-- A path below another one. -/
def below (path name : String) : String :=
  if path.endsWith "/" then path ++ name else path ++ "/" ++ name

def isDirectory (path : String) : Procedure Bool :=
  return (← get).files.hasDirectory (pathOf path)

/-- The last name in a path. -/
def lastName (path : String) : String :=
  let letters := (path.toList.reverse.dropWhile (· = '/')).takeWhile (· ≠ '/')
  if letters = [] ∧ path ≠ "" then "/" else .ofList letters.reverse

/-- A path without its last name. -/
def parentName (path : String) : String :=
  let isSlash := fun letter : Char => letter = '/'
  let letters := (path.toList.reverse.dropWhile isSlash).dropWhile (!isSlash ·)
  let parent := (letters.dropWhile isSlash).reverse
  if parent ≠ [] then .ofList parent
  else if path.startsWith "/" then "/" else "."

/-- Says why something cannot be done to a path. -/
def refusal (name verb path : String) (error : FileError) : Procedure Unit := do
  complain name s!"{verb} {quoted path}: {error.reason}"
  setStatus 1

/-- What stands at a place as it is named in messages. -/
def kindName : Entry → String
  | .directory => "directory"
  | .file "" => "regular empty file"
  | .file _ => "regular file"
  | .link _ => "symbolic link"

/-- Asks a question on the error output. The answer stands on a line of the input. -/
def confirms (question : String) : Procedure Bool := do
  let _ ← write 2 question
  match ← remaining 0 with
  | none => return false
  | some (letters, _) =>
    let line := letters.takeWhile (· ≠ '\n')
    consume 0 (line.length + 1)
    return line.head?.any fun letter => letter = 'y' || letter = 'Y'

/-- The places at and below a place, those above first. -/
def placesBelow (files : FileTree) (place : Place) : List Place :=
  let all := (files.entries.map Prod.fst).filter fun other =>
    place.isPrefixOf other && other ≠ place
  place :: all.mergeSort fun first second => !second.lex first fun left right => left < right

def changeMode (name : String) (words : List String) : Procedure Unit := do
  -- A mode may begin with a hyphen.
  let isMode := fun word : String =>
    word.startsWith "-" && 1 < word.length && (word.toList.drop 1).all ("rwxXstugo,=+-".contains ·)
  let (modes, others) := words.partition isMode
  withGiven name 1
    { plain := "Rvcf"
      valued := "ŕ"
      long := [("recursive", 'R'), ("verbose", 'v'), ("changes", 'c'), ("quiet", 'f'),
        ("silent", 'f'), ("reference", 'ŕ')] } others
    fun given => do
      let reference ← match given.value? 'ŕ' with
        | none => pure none
        | some path =>
          match ← find path with
          | .ok (place, _) => pure (some (String.ofList (Nat.toDigits 8 ((← get).files.mode place))))
          | .error error =>
            refusal name "failed to get attributes of" path error
            return
      let isGiven := modes ≠ [] || reference.isSome
      let mode := reference.getD ((modes.head?.or given.operands.head?).getD "")
      let operands := if isGiven then given.operands else given.operands.drop 1
      let mask := (← get).mask
      if given.operands = [] && !isGiven then missingOperand name
      else if operands = [] then suggestHelp name s!"missing operand after {quotedWord mode}"
      else if (modeFrom? mode mask false 0).isNone then
        suggestHelp name s!"invalid mode: {quotedWord mode}"
      else
        for operand in operands do
          match ← find operand with
          | .error error =>
            setStatus 1
            if !given.has 'f' then
              if (← findHere operand).isOk then
                complain name s!"cannot operate on dangling symlink {quoted operand}"
              else complain name s!"cannot access {quoted operand}: {error.reason}"
          | .ok (top, _) =>
            let files := (← get).files
            for place in if given.has 'R' then placesBelow files top else [top] do
              let entry := (files.entry? place).getD .directory
              if !(entry matches .link _) then
                let before := files.mode place
                let after := (modeFrom? mode mask (entry = .directory) before).getD before
                modify fun session => { session with files := session.files.setMode place after }
                let path := (place.drop top.length).foldl
                  (fun path name => below path (Text.bytesOf name)) operand
                let spelled := fun mode : Nat => s!"{modeDigits mode} ({modeLetters mode})"
                if before ≠ after && given.hasAny "vc" then
                  emit <| s!"mode of {quoted path} changed from {spelled before} to " ++
                    s!"{spelled after}\n"
                else if given.has 'v' then
                  emit s!"mode of {quoted path} retained as {spelled after}\n"

/-- The paths that lead down to a path, one after another. -/
def pathsDownTo (path : String) : List String :=
  let letters := path.toList
  let ends := (List.range letters.length).filter fun index =>
    letters[index]? ≠ some '/' && (letters[index + 1]?).all (· = '/')
  ends.map fun index => .ofList (letters.take (index + 1))

def makeDirectories (name : String) (words : List String) : Procedure Unit :=
  withGiven name 1
    { plain := "pv", valued := "m"
      long := [("parents", 'p'), ("verbose", 'v'), ("mode", 'm')] } words
    fun given => do
      let make := fun path : String => do
        let made ← makeDirectory path
        if made.isNone && given.has 'v' then
          emit s!"{name}: created directory {quoted path}\n"
        return made
      let mask := (← get).mask
      let mode? := (given.value? 'm').map fun text => modeFrom? text mask true 0o777
      if given.operands = [] then missingOperand name
      else if mode? = some none then
        let mode := (given.value? 'm').getD ""
        complain name s!"invalid mode {quotedWord mode}"
        setStatus 1
      else
        for operand in given.operands do
          let mut isMade := true
          if given.has 'p' && operand ≠ "" then
            for path in pathsDownTo operand do
              if isMade && !(← isDirectory path) then
                if let some error := ← make path then
                  isMade := false
                  let error := if error = .exists && path ≠ (pathsDownTo operand).getLastD "" then
                    .notDirectory else error
                  refusal name "cannot create directory" path error
          else if let some error := ← make operand then
            isMade := false
            refusal name "cannot create directory" operand error
          if isMade then
            if let some (some mode) := mode? then
              if let .ok (place, _) := ← find operand then
                modify fun session => { session with files := session.files.setMode place mode }

/-- Removes an empty directory. It is false if that cannot be done. -/
def removeDirectory (given : Given) (name path verb : String) : Procedure Bool := do
  if given.has 'v' then emit s!"{name}: removing directory, {quoted path}\n"
  match ← findHere path with
  | .error error => refusal name verb path error; return false
  | .ok (place, .directory) =>
    if place = [] then refusal name verb path .busy; return false
    else if lastName path = "." then refusal name verb path .invalid; return false
    else if (← get).files.namesIn (pathOf path) = [] then
      modify fun session => { session with files := session.files.remove place }
      return true
    else
      unless given.has 'ı' do refusal name verb path .notEmpty
      return false
  | .ok _ => refusal name verb path .notDirectory; return false

def removeDirectories (name : String) (words : List String) : Procedure Unit :=
  withGiven name 1
    { plain := "pvı"
      long := [("parents", 'p'), ("verbose", 'v'), ("ignore-fail-on-non-empty", 'ı')] } words
    fun given => do
    if given.operands = [] then missingOperand name
    for operand in given.operands do
      if ← removeDirectory given name operand "failed to remove" then
        if given.has 'p' then
          let mut isGoing := true
          for path in ((pathsDownTo operand).dropLast).reverse do
            if isGoing then
              isGoing ← removeDirectory given name path "failed to remove directory"

def remove (name : String) (words : List String) : Procedure Unit :=
  withGiven name 1
    { plain := "rRfdivI"
      optional := "ĩ"
      long := [("recursive", 'r'), ("force", 'f'), ("dir", 'd'), ("verbose", 'v'),
        ("interactive", 'ĩ'), ("preserve-root", 'I')] } words
    fun given => do
      let mode := given.last? "fiI"
      let asks := mode = some 'i'
      let isRecursive := given.hasAny "rR"
      let count := given.operands.length
      if count = 0 && mode ≠ some 'f' then missingOperand name
      if mode = some 'I' && (3 < count || (isRecursive && 0 < count)) then
        let things := if count = 1 then "argument" else "arguments"
        let manner := if isRecursive then " recursively" else ""
        unless ← confirms s!"{name}: remove {count} {things}{manner}? " do return
      for operand in given.operands do
        match ← findHere operand with
        | .error .notFound | .error .notDirectory =>
          unless mode = some 'f' do
            let error := match ← findHere operand with
              | .error error => error
              | .ok _ => .notFound
            refusal name "cannot remove" operand error
        | .error error => refusal name "cannot remove" operand error
        | .ok (place, entry) =>
          let last := lastName operand
          if entry = .directory && !isRecursive && !given.has 'd' then
            refusal name "cannot remove" operand .isDirectory
          else if last = "." || last = ".." then
            complain name s!"refusing to remove '.' or '..' directory: skipping {quoted operand}"
            setStatus 1
          else if entry = .directory && !isRecursive
              && (← get).files.namesIn (pathOf operand) ≠ [] then
            refusal name "cannot remove" operand .notEmpty
          else
            let files := (← get).files
            for inner in (placesBelow files place).reverse do
              let entry := (files.entry? inner).getD .directory
              let path := (inner.drop place.length).foldl
                (fun path name => below path (Text.bytesOf name)) operand
              let isKept ← if asks then
                  (! ·) <$> confirms s!"{name}: remove {kindName entry} {quoted path}? "
                else pure false
              let hasMore := ((← get).files.entries.any fun other =>
                inner.isPrefixOf other.1 && other.1 ≠ inner)
              if !isKept && !hasMore then
                modify fun session => { session with files := session.files.remove inner }
                if given.has 'v' then
                  let kind := if entry = .directory then "directory " else ""
                  emit s!"removed {kind}{quoted path}\n"

/-- Whether a text is a time in digits: perhaps a year, a month, a day, an hour and a minute, and
perhaps seconds after a dot. -/
def isTimeInDigits (text : String) : Bool :=
  let isDigits := fun text : String => text.toList.all Char.isDigit
  let hasLength := fun (text : String) (lengths : List Nat) => lengths.contains text.length
  match text.splitOn "." with
  | [whole] => isDigits whole && hasLength whole [8, 10, 12]
  | [whole, seconds] =>
    isDigits whole && hasLength whole [8, 10, 12] && isDigits seconds && hasLength seconds [2]
  | _ => false

def touch (name : String) (words : List String) : Procedure Unit :=
  withGiven name 1
    { plain := "camhf", valued := "dtr"
      long := [("no-create", 'c'), ("date", 'd'), ("reference", 'r')] } words
    fun given => do
      let wrong := ((given.values 't').find? (!isTimeInDigits ·)).or
        ((given.values 'd').find? fun text => (Moment.ofText? text).isNone)
      if let some wrong := wrong then
        complain name s!"invalid date format {quotedWord wrong}"
        setStatus 1
      else if given.has 't' && given.hasAny "dr" then
        suggestHelp name "cannot specify times from more than one source"
      else
        if given.operands = [] then suggestHelp name "missing file operand"
        for operand in given.operands.filter (· ≠ "-") do
          match ← find operand with
          | .ok (place, .file text) =>
            unless given.hasAny "dtr" do
              modify fun session => { session with files := session.files.put place (.file text) }
          | .ok _ => pure ()
          | .error .notFound =>
            unless given.has 'c' do
              if let some error := ← writeFile operand "" then
                refusal name "cannot touch" operand
                  (if error = .isDirectory then .notFound else error)
          | .error error => refusal name "cannot touch" operand error

/-- Puts a copy of what stands at a place at another one, with all below it. -/
def copyPlace (keepsModes : Bool) (source target : Place) (entry : Entry) : Procedure Unit := do
  let before := (← get).files
  let all := before.entries.filter fun other => source.isPrefixOf other.1 && other.1 ≠ source
  for (place, entry) in (source, entry) :: all.reverse do
    let next := target ++ place.drop source.length
    let isNew := ((← get).files.entry? next).isNone
    unless entry = .directory && !isNew do
      modify fun session => { session with files := session.files.put next entry }
    let mode := before.mode place
    if keepsModes then
      modify fun session => { session with files := session.files.setMode next mode }
    else if isNew then giveMode next mode

/-- How files are copied or moved. -/
structure Transfer where
  isMoved : Bool
  given : Given

namespace Transfer

def isRecursive (transfer : Transfer) : Bool := transfer.isMoved || transfer.given.hasAny "rRa"

/-- Whether a link is copied as such. -/
def keepsLinks (transfer : Transfer) : Bool :=
  transfer.isMoved || (transfer.given.hasAny "rRaPd" && !transfer.given.has 'L')

end Transfer

/-- Copies or moves one file or directory to a path. -/
def transferTo (transfer : Transfer) (name source target : String) : Procedure Unit := do
  let given := transfer.given
  let found ← if transfer.keepsLinks then findHere source else find source
  match found with
  | .error error => refusal name "cannot stat" source error
  | .ok (from_, entry) =>
    if entry = .directory && !transfer.isRecursive then
      complain name s!"-r not specified; omitting directory {quoted source}"
      setStatus 1
      return
    let files := (← get).files
    let here := match files.findHere (pathOf target) with
      | .ok found => some found
      | .error _ => none
    let there := (files.find (pathOf target)).toOption
    if there.any (·.1 = from_) && !(transfer.isMoved && here.any (·.1 ≠ from_)) then
      complain name s!"{quoted source} and {quoted target} are the same file"
      setStatus 1
      return
    let isInside := entry = .directory && match files.approach (pathOf target) with
      | .ok (directory, _) => from_.isPrefixOf directory
      | .error _ => false
    if isInside then
      if transfer.isMoved then
        complain name s!"cannot move {quoted source} to a subdirectory of itself, {quoted target}"
      else complain name s!"cannot copy a directory, {quoted source}, into itself, {quoted target}"
      setStatus 1
      return
    match there with
    | some (place, other) =>
      if given.has 'n' then
        if transfer.isMoved then
          complain name s!"not replacing {quoted target}"
          setStatus 1
        return
      if given.has 'u' && !files.isNewer from_ place then return
      if entry = .directory && other ≠ .directory then
        complain name <| s!"cannot overwrite non-directory {quoted target} with directory " ++
          quoted source
        setStatus 1
        return
      if entry ≠ .directory && other = .directory then
        complain name s!"cannot overwrite directory {quoted target} with non-directory"
        setStatus 1
        return
      if transfer.isMoved && other = .directory && files.namesIn (pathOf target) ≠ [] then
        complain name s!"cannot overwrite {quoted target}: Directory not empty"
        setStatus 1
        return
      if given.last? "fi" = some 'i' && other ≠ .directory then
        unless ← confirms s!"{name}: overwrite {quoted target}? " do
          setStatus 1
          return
      if given.has 'b' && other ≠ .directory then
        copyPlace true place (place.dropLast ++ [(place.getLastD "") ++ "~"]) other
    | none => pure ()
    let isDangling := there.isNone && here.any fun found => found.2 matches .link _
    if isDangling && !transfer.isMoved && !given.has 'f' then
      complain name s!"not writing through dangling symlink {quoted target}"
      setStatus 1
      return
    match files.approach (pathOf target) with
    | .error error =>
      let error := if error = .notFound && target.endsWith "/" && entry ≠ .directory
        then .notDirectory else error
      if transfer.isMoved then
        complain name s!"cannot move {quoted source} to {quoted target}: {error.reason}"
        setStatus 1
      else
        let kind := if entry = .directory then "directory" else "regular file"
        refusal name s!"cannot create {kind}" target error
    | .ok (directory, step) =>
      if there.isNone && target.endsWith "/" && entry ≠ .directory then
        if transfer.isMoved then
          complain name s!"cannot move {quoted source} to {quoted target}: Not a directory"
          setStatus 1
        else refusal name "cannot create regular file" target .notDirectory
        return
      let own := directory ++ step.toList
      let place := if transfer.isMoved then own else (there.map Prod.fst).getD own
      if transfer.isMoved || entry matches .link _ then
        if there.all (·.2 ≠ .directory) then
          modify fun session => { session with files := session.files.remove place }
      if given.has 's' then
        modify fun session => { session with files := session.files.put place (.link source) }
      else copyPlace (transfer.isMoved || given.hasAny "pa") from_ place entry
      if transfer.isMoved then
        modify fun session => { session with files := session.files.remove from_ }
        if given.has 'v' then emit s!"renamed {quoted source} -> {quoted target}\n"
      else if given.has 'v' then
        emit s!"{quoted source} -> {quoted target}\n"
        if entry = .directory then
          let inner := (placesBelow files from_).drop 1
          for other in inner do
            let path := fun top : String => (other.drop from_.length).foldl
              (fun path name => below path (Text.bytesOf name)) top
            emit s!"{quoted (path source)} -> {quoted (path target)}\n"

/-- Copies or moves files to a path, or into a directory. -/
def transferAll (isMoved : Bool) (name : String) (words : List String) : Procedure Unit :=
  withGiven name 1
    { plain := "rRafpvinTubdPLHslxŝ", valued := "tS"
      optional := "ƥ"
      long := [("recursive", 'r'), ("archive", 'a'), ("force", 'f'), ("verbose", 'v'),
        ("interactive", 'i'), ("no-clobber", 'n'), ("update", 'u'), ("target-directory", 't'),
        ("no-target-directory", 'T'), ("dereference", 'L'), ("no-dereference", 'P'),
        ("symbolic-link", 's'), ("link", 'l'), ("backup", 'b'), ("preserve", 'ƥ'),
        ("parents", 'ŝ'), ("strip-trailing-slashes", 'x'), ("one-file-system", 'x')] } words
    fun given => do
      if given.has 'n' && !isMoved then
        complain name <| "warning: behavior of -n is non-portable and may change in future; " ++
          "use --update=none instead"
      let transfer : Transfer := { isMoved, given }
      let into := fun (directory source : String) =>
        let inner := if given.has 'ŝ' then source else lastName source
        transferTo transfer name source (below directory inner)
      match given.value? 't', given.operands.reverse with
      | none, [] | some _, [] => suggestHelp name "missing file operand"
      | none, [only] =>
        suggestHelp name s!"missing destination file operand after {quoted only}"
      | some directory, _ =>
        if ← isDirectory directory then
          for source in given.operands do into directory source
        else refusal name "target directory" directory .notFound
      | none, target :: sources =>
        if (← isDirectory target) && !given.has 'T' then
          for source in sources.reverse do into target source
        else if given.has 'T' && 1 < sources.length then
          extraOperand name target
        else match sources with
          | [source] => transferTo transfer name source target
          | _ =>
            let reason := match ← find target with
              | .error error => error.reason
              | .ok _ => FileError.notDirectory.reason
            complain name s!"target {quoted target}: {reason}"
            setStatus 1

/-- Copies files with a mode of their own, or makes directories. -/
def install (name : String) (words : List String) : Procedure Unit :=
  withGiven name 1
    { plain := "dDvcpsTC", valued := "mogtS"
      long := [("directory", 'd'), ("mode", 'm'), ("verbose", 'v'), ("target-directory", 't')] }
    words fun given => do
      let mode := ((given.value? 'm').bind fun text => modeFrom? text 0 false 0).getD 0o755
      let setTo := fun path : String => do
        if let .ok (place, _) := ← find path then
          modify fun session => { session with files := session.files.setMode place mode }
      if given.has 'd' then
        for operand in given.operands do
          for path in pathsDownTo operand do
            unless ← isDirectory path do
              if let some error := ← makeDirectory path then
                refusal name "cannot create directory" path error
          setTo operand
      else
        let transfer : Transfer := { isMoved := false, given := {} }
        match given.value? 't', given.operands.reverse with
        | some directory, _ =>
          for source in given.operands do
            let target := below directory (lastName source)
            transferTo transfer name source target
            setTo target
        | none, [] => suggestHelp name "missing file operand"
        | none, [only] => suggestHelp name s!"missing destination file operand after {quoted only}"
        | none, target :: sources =>
          if given.has 'D' then
            for path in (pathsDownTo target).dropLast do
              unless ← isDirectory path do let _ ← makeDirectory path
          for source in sources.reverse do
            let target := if ← isDirectory target then below target (lastName source) else target
            transferTo transfer name source target
            setTo target

/-- The way from a directory to a place. -/
def wayFrom (directory place : Place) : String :=
  let common := ((directory.zip place).takeWhile fun (first, second) => first = second).length
  let steps := List.replicate (directory.length - common) ".." ++
    (place.drop common).map Text.bytesOf
  if steps = [] then "." else "/".intercalate steps

/-- Makes one link at a path. -/
def linkAt (given : Given) (name source target : String) : Procedure Unit := do
  let isSymbolic := given.has 's'
  let kind := if isSymbolic then "symbolic link" else "hard link"
  let files := (← get).files
  let target := if target.endsWith "/" && files.hasDirectory (pathOf target) then
    below target (lastName source) else target
  let arrow := if isSymbolic then "->" else "=>"
  let entry? : Except String Entry := if isSymbolic then
      let aim := if given.has 'r' then
          match files.find (pathOf source), files.approach (pathOf target) with
          | .ok (place, _), .ok (directory, _) => wayFrom directory place
          | _, _ => source
        else source
      .ok (.link (Text.keepingBytes aim))
    else match files.findHere (pathOf source) with
      | .error error => .error s!"failed to access {quoted source}: {error.reason}"
      | .ok (_, .directory) => .error s!"{source}: hard link not allowed for directory"
      | .ok (_, entry) => .ok entry
  match entry? with
  | .error message =>
    complain name message
    setStatus 1
  | .ok entry =>
    if given.hasAny "fi" then
      match files.findHere (pathOf target) with
      | .ok (_, .directory) => pure ()
      | .ok (place, _) =>
        modify fun session => { session with files := session.files.remove place }
      | .error _ => pure ()
    match ← operate (·.create (pathOf target) entry) with
    | some error =>
      complain name s!"failed to create {kind} {quoted target}: {error.reason}"
      setStatus 1
    | none =>
      if !isSymbolic then
        if let .ok (place, _) := files.findHere (pathOf source) then
          if let .ok (other, _) := ← findHere target then
            let mode := files.mode place
            modify fun session => { session with files := session.files.setMode other mode }
      if given.has 'v' then emit s!"{quoted target} {arrow} {quoted source}\n"

def link (name : String) (words : List String) : Procedure Unit :=
  withGiven name 1
    { plain := "sfvnrTiLPbd", valued := "tS"
      long := [("symbolic", 's'), ("force", 'f'), ("verbose", 'v'), ("no-dereference", 'n'),
        ("relative", 'r'), ("no-target-directory", 'T'), ("target-directory", 't')] } words
    fun given => do
      let intoDirectory := fun path : String => do
        if given.has 'T' then return false
        match ← findHere path with
        | .ok (_, .link _) => if given.has 'n' then return false else isDirectory path
        | _ => isDirectory path
      match given.value? 't', given.operands.reverse with
      | none, [] | some _, [] => suggestHelp name "missing file operand"
      | some directory, _ =>
        for source in given.operands do
          linkAt given name source (below directory (lastName source))
      | none, [only] => linkAt given name only (below "." (lastName only))
      | none, target :: sources =>
        if ← intoDirectory target then
          for source in sources.reverse do
            linkAt given name source (below target (lastName source))
        else match sources with
          | [source] => linkAt given name source target
          | _ =>
            let reason := match ← find target with
              | .error error => error.reason
              | .ok _ => FileError.notDirectory.reason
            complain name s!"target {quoted target}: {reason}"
            setStatus 1

/-- Makes a link, or removes a file, with no more than is needed for that. -/
def linkOnly (name : String) (words : List String) : Procedure Unit := do
  match words with
  | [] => missingOperand name
  | [only] => suggestHelp name s!"missing operand after {quoted only}"
  | [source, target] =>
    setStatus 0
    match ← findHere source with
    | .error error =>
      complain name s!"cannot create link {quoted target} to {quoted source}: {error.reason}"
      setStatus 1
    | .ok (_, entry) =>
      if let some error := ← operate (·.create (pathOf target) entry) then
        complain name s!"cannot create link {quoted target} to {quoted source}: {error.reason}"
        setStatus 1
  | _ :: _ :: extra :: _ => extraOperand name extra

def unlink (name : String) (words : List String) : Procedure Unit := do
  match words with
  | [] => missingOperand name
  | [path] =>
    setStatus 0
    match ← findHere path with
    | .error error => refusal name "cannot unlink" path error
    | .ok (_, .directory) => refusal name "cannot unlink" path .isDirectory
    | .ok (place, _) => modify fun session => { session with files := session.files.remove place }
  | _ :: extra :: _ => extraOperand name extra

/-- Writes what is read to the output and to files. -/
def tee (name : String) (words : List String) : Procedure Unit :=
  withGiven name 1 { plain := "aip", long := [("append", 'a'), ("ignore-interrupts", 'i')] } words
    fun given => do
      let text := (← contentsSoFar "-").toOption.getD ""
      emitNow text
      for operand in given.operands do
        let before ← if given.has 'a' then pure (((← contents operand).toOption).getD "")
          else pure ""
        if operand = "/dev/stderr" then let _ ← write 2 text
        else if operand ≠ Condition.sink then
          if let some error := ← writeFile operand (before ++ text) then
            complain name s!"{quotedIfNeeded operand}: {error.reason}"
            setStatus 1

/-- Makes files as long as is asked for. -/
def truncate (name : String) (words : List String) : Procedure Unit :=
  withGiven name 1
    { plain := "co", valued := "sr"
      long := [("size", 's'), ("no-create", 'c'), ("reference", 'r')] } words fun given => do
      match given.value? 's', given.value? 'r' with
      | none, none => suggestHelp name "you must specify either '--size' or '--reference'"
      | size, reference =>
        let text := size.getD "0"
        let base ← match reference with
          | some path => pure (((← contents path).toOption.map String.length).getD 0)
          | none => pure 0
        let sign? := text.toList.head?.filter ("+-<>/%".contains ·)
        let digits := if sign?.isSome then String.ofList (text.toList.drop 1) else text
        match sized? digits with
        | none =>
          complain name s!"Invalid number: {quotedWord text}"
          setStatus 1
        | some count =>
          if given.operands = [] then suggestHelp name "missing file operand"
          for operand in given.operands do
            let before := (← contents operand).toOption
            unless before.isNone && given.has 'c' do
              let before := before.getD ""
              let length := if reference.isSome then base else before.length
              let size := match sign? with
                | some '+' => length + count
                | some '-' => length - count
                | some '<' => min length count
                | some '>' => max length count
                | some '/' => length / max count 1 * count
                | some '%' => (length + count - 1) / max count 1 * count
                | _ => if size.isSome then count else base
              let after := before.toList.take size ++ List.replicate (size - before.length) '\x00'
              if let some error := ← writeFile operand (.ofList after) then
                complain name s!"cannot open {quoted operand} for writing: {error.reason}"
                setStatus 1

/-- Makes a file or directory under a name that is not used. -/
def makeTemporary (name : String) (words : List String) : Procedure Unit :=
  withGiven name 1
    { plain := "dqut", valued := "ş"
      optional := "p"
      long := [("directory", 'd'), ("dry-run", 'u'), ("quiet", 'q'), ("suffix", 'ş'),
        ("tmpdir", 'p')] } words
    fun given => do
      let template := given.operands.headD "tmp.XXXXXXXXXX"
      let letters := template.toList
      let suffix := (letters.reverse.takeWhile (· ≠ 'X')).reverse
      let stem := letters.take (letters.length - suffix.length)
      let front := stem.take (stem.length - (stem.reverse.takeWhile (· = 'X')).length)
      let count := stem.length - front.length
      if count < 3 then
        complain name s!"too few X's in template {quoted template}"
        setStatus 1
      else
        let directory := if given.hasAny "pt" || given.operands = [] then
            some (((given.value? 'p').filter (· ≠ "")).getD "/tmp") else none
        let pathFor := fun number : Nat =>
          let digits := (Nat.toDigits 26 number).map fun digit =>
            Char.ofNat ('a'.toNat + ((Arithmetic.digitValue? digit).getD 0))
          let name := String.ofList (front ++ (List.replicate (count - digits.length) 'Q' ++ digits)
            ++ suffix) ++ (given.value? 'ş').getD ""
          (directory.map fun directory => below directory name).getD name
        let files := (← get).files
        let number := ((List.range 1000).find? fun number =>
          !files.has (pathOf (pathFor number))).getD 0
        let path := pathFor number
        let fault? ← if given.has 'u' then pure none
          else if given.has 'd' then makeDirectory path else writeFile path ""
        match fault? with
        | some error =>
          let kind := if given.has 'd' then "directory" else "file"
          complain name s!"failed to create {kind} via template {quoted template}: {error.reason}"
          setStatus 1
        | none =>
          if let .ok (place, _) := ← find path then
            let mode := if given.has 'd' then 0o700 else 0o600
            modify fun session => { session with files := session.files.setMode place mode }
          emit (path ++ "\n")

/-- The ending of a file of a part, which counts the parts. -/
def partEnding (usesDigits : Bool) (size number : Nat) : String :=
  let base := if usesDigits then 10 else 26
  let letters := (Nat.toDigits base number).map fun digit =>
    if usesDigits then digit else Char.ofNat ('a'.toNat + ((Arithmetic.digitValue? digit).getD 0))
  let zero := if usesDigits then '0' else 'a'
  .ofList (List.replicate (size - letters.length) zero ++ letters)

/-- Groups of so many things. -/
def inGroups {α : Type} (size : Nat) : Nat → List α → List (List α)
  | 0, _ | _, [] => []
  | fuel + 1, things => things.take size :: inGroups size fuel (things.drop size)

def split (name : String) (words : List String) : Procedure Unit :=
  withGiven name 1
    { plain := "dxeu", valued := "lbaCntş"
      long := [("lines", 'l'), ("bytes", 'b'), ("suffix-length", 'a'), ("numeric-suffixes", 'd'),
        ("additional-suffix", 'ş'), ("number", 'n')] } words
    fun given => do
      let source := given.operands.headD "-"
      let stem := given.operands.getD 1 "x"
      match ← contents source with
      | .error error =>
        if error = .isDirectory then complain name s!"{source}: read error: {error.reason}"
        else complain name s!"cannot open {quoted source} for reading: {error.reason}"
        setStatus 1
      | .ok text =>
        let parts := match (given.value? 'b').bind sized?, (given.value? 'n').bind number? with
          | some size, _ => (inGroups size text.length text.toList).map String.ofList
          | none, some count =>
            let size := text.length / max count 1
            (List.range count).map fun index =>
              let rest := text.toList.drop (size * index)
              String.ofList (if index + 1 = count then rest else rest.take size)
          | none, none =>
            let size := ((given.value? 'l').bind number?).getD 1000
            let lines := endedLines text
            (inGroups size lines.length lines).map fun lines => "".intercalate lines
        let size := ((given.value? 'a').bind number?).getD 2
        for (part, number) in parts.zipIdx do
          let path := stem ++ partEnding (given.has 'd') size number ++ (given.value? 'ş').getD ""
          if let some error := ← writeFile path part then
            complain name s!"{path}: {error.reason}"
            setStatus 1

end CompositeKeys.Shell.Utility
