/-! A path is a text that is read as a sequence of components. Doubled and final slashes, and every
single dot but one in front, are spelling only: paths are the same when their components are. -/

namespace CompositeKeys.Files

structure FilePath where
  text : String
  deriving DecidableEq, Repr, Inhabited

/-- The components, in the order in which they sort. -/
inductive Component where
  | root
  | here
  | up
  | name (text : String)
  deriving DecidableEq, Repr

/-- What a path starts from. -/
inductive Anchor where
  | none
  | root
  | here
  deriving DecidableEq, Repr

/-- The text between slashes. -/
def segmentsOf : List Char → List (List Char)
  | [] => [[]]
  | letter :: rest =>
    if letter = '/' then [] :: segmentsOf rest
    else match segmentsOf rest with
      | [] => [[letter]]
      | first :: others => (letter :: first) :: others

/-- Whether a segment is spelling only. -/
def isIdle (segment : String) : Bool := segment = "" || segment = "."

/-- A path taken apart: what it starts from, and the segments after that. -/
structure Spelling where
  anchor : Anchor
  segments : List String
  deriving DecidableEq, Repr

namespace Spelling

def ofSegments (anchor : Anchor) (letters : List Char) : Spelling :=
  { anchor, segments := (segmentsOf letters).map String.ofList }

def ofLetters : List Char → Spelling
  | '/' :: rest => ofSegments .root rest
  | ['.'] => ofSegments .here []
  | '.' :: '/' :: rest => ofSegments .here ('/' :: rest)
  | letters => ofSegments .none letters

def text (spelling : Spelling) : String :=
  let start := match spelling.anchor with
    | .none => ""
    | .root => "/"
    | .here => "."
  start ++ "/".intercalate spelling.segments

/-- Drops the spelling at the end. -/
def trimmed (spelling : Spelling) : Spelling :=
  { spelling with segments := (spelling.segments.reverse.dropWhile isIdle).reverse }

/-- Drops the last segment that is a component. -/
def dropLast (spelling : Spelling) : Spelling :=
  let segments := spelling.trimmed.segments.dropLast
  { spelling with segments }.trimmed

/-- Drops the first `count` segments that are components, and the spelling around them. -/
def dropFirst : Nat → List String → List String
  | 0, segments => segments.dropWhile isIdle
  | count + 1, segments => dropFirst count ((segments.dropWhile isIdle).drop 1)

def ofSegment (segment : String) : Component := if segment = ".." then .up else .name segment

def components (spelling : Spelling) : List Component :=
  let start := match spelling.anchor with
    | .none => []
    | .root => [.root]
    | .here => [.here]
  start ++ (spelling.segments.filter (!isIdle ·)).map ofSegment

end Spelling

namespace Component

def text : Component → String
  | .root => "/"
  | .here => "."
  | .up => ".."
  | .name text => text

def rank : Component → Nat
  | .root => 0
  | .here => 1
  | .up => 2
  | .name _ => 3

def before (first second : Component) : Bool :=
  match first, second with
  | .name first, .name second => first < second
  | _, _ => first.rank < second.rank

/-- The order of sequences of components. -/
def sequenceBefore : List Component → List Component → Bool
  | _, [] => false
  | [], _ :: _ => true
  | first :: firstRest, second :: secondRest =>
    if first = second then sequenceBefore firstRest secondRest else first.before second

end Component

namespace FilePath

def spelling (path : FilePath) : Spelling := .ofLetters path.text.toList

def components (path : FilePath) : List Component := path.spelling.components

/-- Whether two paths differ in spelling at most. -/
def same (first second : FilePath) : Bool := first.components = second.components

def before (first second : FilePath) : Bool :=
  Component.sequenceBefore first.components second.components

def isAbsolute (path : FilePath) : Bool := path.text.toList.head? = some '/'

/-- The name of the file, unless the path ends in a step up, a dot or the root. -/
def fileName? (path : FilePath) : Option String :=
  match path.components.getLast? with
  | some (.name text) => some text
  | _ => none

/-- The path without its last component. -/
def parent? (path : FilePath) : Option FilePath :=
  let spelling := path.spelling
  match path.components.getLast? with
  | none | some .root => none
  | some .here => some ⟨""⟩
  | some _ => some ⟨spelling.dropLast.text⟩

/-- The path without its last component, unless nothing is left. -/
def directory? (path : FilePath) : Option FilePath :=
  path.parent?.filter fun parent => parent.text ≠ ""

/-- Continues a path with another one. An absolute path takes its place. -/
def join (path next : FilePath) : FilePath :=
  if next.isAbsolute || path.text = "" then next
  else if path.text.toList.getLast? = some '/' then ⟨path.text ++ next.text⟩
  else ⟨path.text ++ "/" ++ next.text⟩

/-- Puts another file name in the place of the one there is. -/
def withFileName (path : FilePath) (name : String) : FilePath :=
  let directory := if path.fileName?.isSome then path.parent?.getD path else path
  directory.join ⟨name⟩

/-- What a path adds to another one that it begins with. -/
def after? (path base : FilePath) : Option FilePath :=
  let start := base.components
  if !start.isPrefixOf path.components then none
  else match start with
    | [] => some ⟨path.spelling.trimmed.text⟩
    | _ =>
      let trimmed := path.spelling.trimmed
      let anchors := if trimmed.anchor = .none then 0 else 1
      some ⟨"/".intercalate (Spelling.dropFirst (start.length - anchors) trimmed.segments)⟩

/-- The components that lead from a directory to a path. What both begin with is left out, unless
they are `apart` already. A step up in the directory can only be undone where the path takes it
too. -/
def leading (apart : Bool) : List Component → List Component → Option (List Component)
  | path, [] => some path
  | [], base => some (base.map fun _ => .up)
  | step :: path, back :: base =>
    if !apart && step = back then leading false path base
    else if back = .here then (leading true path base).map (step :: ·)
    else if back = .up then none
    else some ((back :: base).map (fun _ => .up) ++ step :: path)

/-- The components of a path as seen from a directory, if there is a way to it. -/
def relativeTo? (path base : FilePath) : Option (List Component) :=
  if path.isAbsolute = base.isAbsolute then leading false path.components base.components
  else if path.isAbsolute then some path.components
  else none

end FilePath

/-- Enters a path at its place in the order of paths. -/
def insertPath {α : Type} (path : FilePath) (value : α) :
    List (FilePath × α) → List (FilePath × α)
  | [] => [(path, value)]
  | entry :: rest =>
    if path.before entry.1 then (path, value) :: entry :: rest
    else entry :: insertPath path value rest

end CompositeKeys.Files
