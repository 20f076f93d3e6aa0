import CompositeKeys.Shell.Utility.Viewing

/-! A utility that copies files in blocks of a size. -/

namespace CompositeKeys.Shell.Utility
open Files Procedure

/-- The number that a text spells, where factors are set apart by a mark. -/
def productOf? (text : String) : Option Nat :=
  (text.splitOn "x").foldlM (fun product factor => (sized? factor).map (product * ·)) 1

/-- Tells how many blocks of a size there are in so many bytes, with those that are cut short. -/
def blocksText (size count : Nat) : String :=
  s!"{count / size}+{if count % size = 0 then 0 else 1}"

def copyBlocks (name : String) (words : List String) : Procedure Unit := do
  setStatus 0
  let pairs := words.map fun word =>
    let key := word.toList.takeWhile (· ≠ '=')
    (String.ofList key, String.ofList (word.toList.drop (key.length + 1)), word)
  let known := ["if", "of", "bs", "ibs", "obs", "cbs", "count", "skip", "seek", "conv", "status",
    "iflag", "oflag"]
  let numeric := ["bs", "ibs", "obs", "count", "skip", "seek"]
  let wrong := pairs.findSome? fun (key, value, word) =>
    if !known.contains key || !word.contains '=' then some (true, s!"unrecognized operand {quotedWord word}")
    else if numeric.contains key && (productOf? value).isNone then
      some (false, s!"invalid number: {quotedWord value}")
    else none
  let text := fun key : String => ((pairs.filter (·.1 = key)).getLast?).map fun entry => entry.2.1
  let number := fun key : String => (text key).bind productOf?
  match wrong with
  | some (true, message) => suggestHelp name message
  | some (false, message) =>
    complain name message
    setStatus 1
  | none =>
    let source := (text "if").getD "-"
    match ← available source with
    | .error .isDirectory =>
      complain name s!"error reading {quoted source}: Is a directory"
      setStatus 1
    | .error error =>
      complain name s!"failed to open {quoted source}: {error.reason}"
      setStatus 1
    | .ok (bytes, goesOn) =>
      let size := ((number "ibs").or (number "bs")).getD 512
      let outSize := ((number "obs").or (number "bs")).getD 512
      let limit := (number "count").map (size * ·)
      if goesOn && (limit.isNone || limit.any (bytes.length < ·)) then throw .timeUp
      let rest := bytes.toList.drop (size * (number "skip").getD 0)
      let taken := (limit.map rest.take).getD rest
      let conversions := ((text "conv").getD "").splitOn ","
      let letters := if conversions.contains "ucase" then taken.map Char.toUpper
        else if conversions.contains "lcase" then taken.map Char.toLower else taken
      let gap := outSize * (number "seek").getD 0
      let isWritten ← match text "of" with
        | none =>
          emitNow (.ofList letters)
          pure true
        | some path =>
          let before := match ← contents path with
            | .ok text => text.toList
            | .error _ => []
          let keepsRest := conversions.contains "notrunc"
          let kept := if keepsRest then before else before.take gap
          match ← writeFile path (.ofList (overwritten gap letters kept)) with
          | none => pure true
          | some error =>
            complain name s!"failed to open {quoted path}: {error.reason}"
            setStatus 1
            pure false
      if isWritten && text "status" ≠ some "none" then
        let _ ← write 2 <| s!"{blocksText size taken.length} records in\n" ++
          s!"{blocksText outSize letters.length} records out\n"
        unless text "status" = some "noxfer" do
          let count := letters.length
          let bytes := if count = 1 then "byte" else "bytes"
          let _ ← write 2 s!"{count} {bytes} copied, 0.0001 s, 1.0 MB/s\n"

end CompositeKeys.Shell.Utility
