import CompositeKeys.Shell.Formatting

/-! Modes of files, as words spell them and as they are shown. -/

namespace CompositeKeys.Shell

/-- The permissions that a clause of a mode is about: `u`, `g`, `o` or all of them. -/
def whoMask (who : List Char) : Nat :=
  who.foldl (fun mask letter => mask ||| match letter with
    | 'u' => 0o4700
    | 'g' => 0o2070
    | 'o' => 0o1007
    | _ => 0o7777) 0

/-- The bits that letters of a clause stand for. -/
def permissionBits (isDirectory : Bool) (mode : Nat) (letters : List Char) : Nat :=
  letters.foldl (fun bits letter => bits ||| match letter with
    | 'r' => 0o444
    | 'w' => 0o222
    | 'x' => 0o111
    | 'X' => if isDirectory || mode &&& 0o111 ≠ 0 then 0o111 else 0
    | 's' => 0o6000
    | 't' => 0o1000
    | 'u' => (mode >>> 6 &&& 7) * 0o111
    | 'g' => (mode >>> 3 &&& 7) * 0o111
    | 'o' => (mode &&& 7) * 0o111
    | _ => 0) 0

/-- The actions of a clause, each an operator and the letters after it. -/
def actionsOf : Nat → List Char → Option (List (Char × List Char))
  | 0, _ => none
  | _, [] => some []
  | fuel + 1, operator :: rest =>
    if "+-=".contains operator then
      let letters := rest.takeWhile ("rwxXstugo".contains ·)
      (actionsOf fuel (rest.drop letters.length)).map ((operator, letters) :: ·)
    else none

/-- The mode that a text asks for. Permissions that are masked are left alone where nobody is
named. -/
def modeFrom? (text : String) (mask : Nat) (isDirectory : Bool) (before : Nat) : Option Nat :=
  let letters := text.toList
  if letters ≠ [] && letters.all Formatting.isOctal then
    ((Arithmetic.inBase? 8 letters).filter (· ≤ 0o7777)).map fun mode =>
      if isDirectory && letters.length < 5 then mode ||| (before &&& 0o6000) else mode
  else
    (text.splitOn ",").foldlM (fun mode clause =>
      let letters := clause.toList
      let who := letters.takeWhile ("ugoa".contains ·)
      let actions? := actionsOf (letters.length + 1) (letters.drop who.length)
      (actions?.filter (· ≠ [])).map fun actions =>
        actions.foldl (fun mode (operator, letters) =>
          let about := if who = [] then 0o7777 else whoMask who
          let bits := permissionBits isDirectory mode letters &&& about
          let bits := if who = [] then bits &&& (0o7777 ^^^ mask) else bits
          match operator with
          | '+' => mode ||| bits
          | '-' => mode &&& (0o7777 ^^^ bits)
          | _ => mode &&& (0o7777 ^^^ (about &&& (if isDirectory then 0o1777 else 0o7777))) ||| bits)
          mode) before

/-- A mode by its letters. -/
def modeLetters (mode : Nat) : String :=
  let triple := fun (bits special : Nat) (mark : Char) =>
    let isMarked := mode &&& special ≠ 0
    [if bits &&& 4 ≠ 0 then 'r' else '-', if bits &&& 2 ≠ 0 then 'w' else '-',
      if isMarked then (if bits &&& 1 ≠ 0 then mark else mark.toUpper)
        else if bits &&& 1 ≠ 0 then 'x' else '-']
  .ofList (triple (mode >>> 6) 0o4000 's' ++ triple (mode >>> 3) 0o2000 's' ++
    triple mode 0o1000 't')

/-- A mode in octal digits. -/
def modeDigits (mode : Nat) : String :=
  let digits := Nat.toDigits 8 mode
  .ofList (List.replicate (4 - digits.length) '0' ++ digits)

/-- What everybody may do under a mode, in letters. -/
def modeClauses (mode : Nat) : String :=
  ",".intercalate <| [('u', 6), ('g', 3), ('o', 0)].map fun (who, place) =>
    let bits := mode >>> place
    let letters := [('r', 4), ('w', 2), ('x', 1)].filter fun entry => bits &&& entry.2 ≠ 0
    String.ofList (who :: '=' :: letters.map Prod.fst)

end CompositeKeys.Shell
