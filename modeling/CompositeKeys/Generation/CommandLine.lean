import CompositeKeys.Generation.Project

/-! The command line. Arguments are read from the left, and the first one that cannot stand where it
does decides; so does a request for help or for the version. -/

namespace CompositeKeys.Generation
open Files

/-- What the arguments ask for. -/
inductive Request where
  | generate (overrides : Overrides) (settings : Option FilePath)
  | writeSettings (path : Option FilePath) (force : Bool)
  | version
  | help
  deriving DecidableEq, Repr

/-- What an option takes: nothing, a text, or a path, which must not be empty. -/
inductive OptionKind where
  | switch
  | text
  | path
  deriving DecidableEq, Repr

/-- The options that may be given at one place, by name. -/
abbrev OptionTable := List (String × OptionKind)

/-- The options that have been given, with what they were given. -/
abbrev GivenOptions := List (String × String)

/-- What a sequence of options comes to. -/
inductive OptionReading where
  | done (given : GivenOptions) (rest : List String)
  | help
  | version
  | wrong
  deriving DecidableEq, Repr

def isOption (argument : String) : Bool :=
  argument.toList.head? = some '-' && argument ≠ "-"

/-- The name of a long option, and the value that is joined to it. -/
def longOption (letters : List Char) : String × Option String :=
  match letters.dropWhile (· ≠ '=') with
  | [] => (.ofList letters, none)
  | _ :: value => (.ofList (letters.takeWhile (· ≠ '=')), some (.ofList value))

/-- Takes an option with its value, if it may be given and has not been given before. -/
def takeOption (table : OptionTable) (given : GivenOptions) (name : String)
    (joined : Option String) (rest : List String) : Option (GivenOptions × List String) := do
  let kind ← table.lookup name
  if (given.lookup name).isSome then none
  match kind, joined, rest with
  | .switch, none, rest => return ((name, "") :: given, rest)
  | .switch, some _, _ => none
  | kind, some value, rest =>
    if kind = .path ∧ value = "" then none
    return ((name, value) :: given, rest)
  | kind, none, value :: rest =>
    if isOption value ∨ (kind = .path ∧ value = "") then none
    return ((name, value) :: given, rest)
  | _, none, [] => none

/-- Reads options up to the first argument that is none. After two dashes nothing is an option. -/
def readOptions (table : OptionTable) (hasVersion : Bool) :
    Nat → GivenOptions → List String → OptionReading
  | 0, _, _ => .wrong
  | _, given, [] => .done given []
  | fuel + 1, given, argument :: rest =>
    match argument.toList with
    | ['-', '-'] => if rest.isEmpty then .done given [] else .wrong
    | '-' :: '-' :: letters =>
      match longOption letters with
      | ("help", none) => .help
      | ("version", none) => if hasVersion then .version else .wrong
      | (name, joined) =>
        match takeOption table given name joined rest with
        | some (given, rest) => readOptions table hasVersion fuel given rest
        | none => .wrong
    | '-' :: 'h' :: _ => .help
    | '-' :: 'V' :: _ => if hasVersion then .version else .wrong
    | '-' :: _ :: _ => .wrong
    | _ => .done given (argument :: rest)

def commonOptions : OptionTable := [("log-level", .text)]

def generateOptions : OptionTable :=
  [("source", .path), ("output", .path), ("config", .path), ("type-check", .switch),
    ("no-specialization", .switch)]

def writeOptions : OptionTable := [("path", .path), ("force", .switch)]

def GivenOptions.path? (given : GivenOptions) (name : String) : Option FilePath :=
  (given.lookup name).map FilePath.mk

def GivenOptions.has (given : GivenOptions) (name : String) : Bool := (given.lookup name).isSome

/-- The request of a command with its options. -/
def commandRequest (table : OptionTable) (arguments : List String)
    (request : GivenOptions → Request) : Option Request :=
  match readOptions (commonOptions ++ table) false (arguments.length + 1) [] arguments with
  | .done given [] => some (request given)
  | .help => some .help
  | _ => none

def commandNames : List String := ["generate", "init-config", "help"]

/-- The request that arguments make, if they make one. -/
def Request.ofArguments? (arguments : List String) : Option Request :=
  match readOptions commonOptions true (arguments.length + 1) [] arguments with
  | .help => some .help
  | .version => some .version
  | .done _ ("generate" :: rest) => commandRequest generateOptions rest fun given =>
    .generate
      { source := given.path? "source"
        output := given.path? "output"
        checkTypes := given.has "type-check"
        disableSpecialization := given.has "no-specialization" }
      (given.path? "config")
  | .done _ ("init-config" :: rest) => commandRequest writeOptions rest fun given =>
    .writeSettings (given.path? "path") (given.has "force")
  | .done _ ["help"] => some .help
  | .done _ ["help", name] => if name ∈ commandNames then some .help else none
  | _ => none

/-- What a program leaves on the console. -/
structure Console where
  code : Nat := 0
  output : String := ""
  errors : String := ""
  deriving DecidableEq, Repr

def Console.failure (message : String) : Console := { code := 1, errors := s!"Error: {message}\n" }

def usage : String := String.join [
  "Generator for composite keyed collections\n\n",
  "Usage: keymesh [--log-level <LOG_LEVEL>] <COMMAND>\n\n",
  "Commands:\n",
  "  generate     Generate every manifest under the source directory\n",
  "  init-config  Write a default configuration file\n",
  "  help         Print this message\n"]

def versionText : String := "keymesh 0.1.0\n"

/-- The user's settings file, in the directory for such files. -/
def userSettings (directory : FilePath) : FilePath :=
  (directory.join ⟨"keymesh"⟩).join ⟨"config.toml"⟩

/-- Generates the modules that loaded settings ask for, and lists them. -/
def generateWith (settings : Settings) (tree : FileTree) : FileTree × Console :=
  match settings.generate tree with
  | (next, .error error) => (next, .failure error.message)
  | (next, .ok names) =>
    let lines := names.map fun name => s!"generated {name}\n"
    let total := s!"{names.length} collection(s) written to {settings.output.text}\n"
    (next, { output := String.join lines ++ total })

/-- Carries out a request. The user's settings may be looked for in a directory. -/
def Request.run (request : Request) (directory : Option FilePath) (tree : FileTree) :
    FileTree × Console :=
  let userFile := directory.map userSettings
  match request with
  | .version => (tree, { output := versionText })
  | .help => (tree, { output := usage })
  | .generate overrides path =>
    match Settings.loadOrDefault tree path userFile with
    | .error error => (tree, .failure s!"Failed to load config: {error.message}")
    | .ok settings => generateWith (settings.override overrides) tree
  | .writeSettings path force =>
    match path <|> userFile with
    | none => (tree, .failure "Could not find user config directory")
    | some path =>
      match writeDefaultSettings path force tree with
      | (next, .error error) => (next, .failure error.message)
      | (next, .ok ()) => (next, { output := s!"Wrote default configuration to {path.text}\n" })

/-- Runs the program with arguments. Arguments that make no request are answered with the usage. -/
def runProgram (arguments : List String) (directory : Option FilePath) (tree : FileTree) :
    FileTree × Console :=
  match Request.ofArguments? arguments with
  | some request => request.run directory tree
  | none => (tree, { code := 2, errors := usage })

end CompositeKeys.Generation
