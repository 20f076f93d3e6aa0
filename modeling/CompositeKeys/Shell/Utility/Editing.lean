import CompositeKeys.Shell.Editing.Editor
import CompositeKeys.Shell.Editing.Reading

/-! A utility that edits files by a script. -/

namespace CompositeKeys.Shell.Utility
open Files Procedure

def editingOptions : Options :=
  { plain := "nErszuá", valued := "efl", optional := "i"
    long := [("quiet", 'n'), ("silent", 'n'), ("expression", 'e'), ("file", 'f'),
      ("in-place", 'i'), ("regexp-extended", 'E'), ("separate", 's'), ("unbuffered", 'u'),
      ("null-data", 'z'), ("zero-terminated", 'z'), ("line-length", 'l'), ("posix", 'á'),
      ("debug", 'á'), ("sandbox", 'á'), ("follow-symlinks", 'á')] }

def editingUsage : String :=
  "Usage: sed [OPTION]... \x7bscript-only-if-no-other-script\x7d [input-file]...\n"

/-- The greatest number of instructions that are gone through. -/
def editingLimit : Nat := 1000000

/-- Edits files. The callback executes commands of a shell, and gives what they write. -/
def edit (execute : String → Procedure String) (name : String) (words : List String) :
    Procedure Unit := do
  setStatus 0
  match editingOptions.parse words with
  | .error message =>
    complain name message
    let _ ← write 2 editingUsage
    setStatus 1
  | .ok given =>
    let isNamed := given.hasAny "ef"
    if !isNamed && given.operands = [] then
      let _ ← write 2 editingUsage
      setStatus 1
    else
      let mut parts := if isNamed then [] else given.operands.take 1
      let mut isReadable := true
      for (letter, value) in given.options do
        if letter = 'e' then parts := parts ++ [value]
        else if letter = 'f' then
          match ← contents value with
          | .ok text => parts := parts ++ ["\n".intercalate (linesIn text)]
          | .error error =>
            complain name s!"couldn't open file {value}: {error.reason}"
            setStatus 4
            isReadable := false
      let operands := if isNamed then given.operands else given.operands.drop 1
      let file := if given.has 'e' then none else given.value? 'f'
      let isExtended := given.hasAny "Er" &&
        (!isNamed || (given.options.takeWhile fun option => !"ef".contains option.1).any fun option =>
          "Er".contains option.1)
      if isReadable then
        match Editing.scriptOf isExtended file parts with
        | .error message =>
          complain name message
          setStatus 1
        | .ok script =>
          match script.missingLabel? with
          | some label =>
            complain name s!"can't find label for jump to \x60{label}'"
            setStatus 4
          | none =>
            let settings : Editing.Settings :=
              { isQuiet := given.has 'n' || script.isQuiet
                isSeparate := given.hasAny "si"
                replaces := given.has 'i'
                backup := (given.value? 'i').getD ""
                ending := if given.has 'z' then '\x00' else '\n'
                width := ((given.value? 'l').bind number?).getD 70
                execute }
            if given.has 'i' && operands = [] then
              complain name "no input files"
              setStatus 4
            else
              match ← outcome (Editing.run script settings name
                (if operands = [] then ["-"] else operands) editingLimit) with
              | .error .failure | .ok () => pure ()
              | .error other => throw other

end CompositeKeys.Shell.Utility
