import CompositeKeys.Shell.Awk.Execution

/-! The utility that executes programs for records of text. -/

namespace CompositeKeys.Shell.Utility
open Files Procedure

/-- What a program for records is given besides its text: options first, which may hold the text. -/
structure Processing where
  assignments : List String := []
  sources : List String := []
  rest : List String := []

/-- Takes an option with its value. -/
def Processing.withOption (letter : Char) (value : String) (processing : Processing) :
    Processing :=
  match letter with
  | 'F' => { processing with assignments := ("FS=" ++ value) :: processing.assignments }
  | 'v' => { processing with assignments := value :: processing.assignments }
  | 'f' => { processing with sources := value :: processing.sources }
  | _ => processing

/-- Reads the words of the utility. -/
def processingOf : List String → Except String Processing
  | [] => .ok {}
  | [word] =>
    match word.toList with
    | ['-', '-'] => .ok {}
    | ['-', letter] =>
      if "Fvf".contains letter then .error s!"option -{letter} lacks argument"
      else .error s!"not an option: {word}"
    | '-' :: letter :: letters =>
      if "FvfW".contains letter then .ok (Processing.withOption letter (.ofList letters) {})
      else .error s!"not an option: {word}"
    | _ => .ok { rest := [word] }
  | word :: next :: rest =>
    match word.toList with
    | ['-', '-'] => .ok { rest := next :: rest }
    | ['-', letter] =>
      if "FvfW".contains letter then
        (processingOf rest).map (Processing.withOption letter next)
      else .error s!"not an option: {word}"
    | '-' :: letter :: letters =>
      if "FvfW".contains letter then
        (processingOf (next :: rest)).map (Processing.withOption letter (.ofList letters))
      else .error s!"not an option: {word}"
    | _ => .ok { rest := word :: next :: rest }

/-- How deep a program may go, and how often around. -/
def processingLimit : Nat := 1000000

/-- Executes a program on records of its operands. -/
def process (launcher : Launcher) (path : String) (words : List String) : Procedure Unit := do
  let name := (path.splitOn "/").getLastD path
  let refuse := fun message : String => do
    complain name message
    setStatus 2
  match processingOf words with
  | .error message => refuse message
  | .ok processing =>
    let isNamed := !processing.sources.isEmpty
    let mut pieces := []
    for source in processing.sources do
      match ← contents source with
      | .ok found => pieces := pieces ++ [found]
      | .error error => return ← refuse s!"cannot open \"{source}\" ({error.reason})"
    match if isNamed then "".intercalate pieces :: processing.rest else processing.rest with
    | [] => setStatus 0
    | text :: operands =>
      match processing.assignments.find? fun word => !Awk.Running.isAssignment word with
      | some wrong => refuse s!"improper assignment: -v {wrong}"
      | none =>
        match Awk.Program.ofText text with
        | .error messages => messages.forM refuse
        | .ok program =>
          setStatus (← program.run launcher name operands processing.assignments processingLimit)

end CompositeKeys.Shell.Utility
