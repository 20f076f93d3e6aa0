import CompositeKeys.Shell.Utility.Viewing

/-! A utility that shows bytes as numbers, or by their names. -/

namespace CompositeKeys.Shell.Utility
open Files Procedure

/-- How bytes are shown: by their letters or names, or so many at a time as a number. -/
inductive ByteStyle where
  | letters
  | names
  | number (base : Nat) (isSigned : Bool)
  | floating
  deriving DecidableEq, Repr

/-- One way in which the same bytes are shown. -/
structure Dump where
  style : ByteStyle
  size : Nat
  showsText : Bool := false

namespace Dump

/-- The width of a number with its blank in front. -/
def width (dump : Dump) : Nat :=
  match dump.style with
  | .letters | .names => 4
  | .floating => if dump.size = 4 then 16 else 25
  | .number base isSigned =>
    let digits := (Nat.toDigits base (Nat.pow 256 dump.size / (if isSigned then 2 else 1))).length
    let digits := if base = 10 then digits
      else (Nat.toDigits base (Nat.pow 256 dump.size - 1)).length
    digits + 1 + (if isSigned then 1 else 0)

/-- The names of bytes that cannot be seen. -/
def names : List String :=
  ["nul", "soh", "stx", "etx", "eot", "enq", "ack", "bel", "bs", "ht", "nl", "vt", "ff", "cr", "so",
    "si", "dle", "dc1", "dc2", "dc3", "dc4", "nak", "syn", "etb", "can", "em", "sub", "esc", "fs",
    "gs", "rs", "us", "sp"]

/-- Digits with zeros in front. -/
def padded (count : Nat) (digits : List Char) : List Char :=
  List.replicate (count - digits.length) '0' ++ digits

/-- The text for so many bytes as are shown together. -/
def text (dump : Dump) (bytes : List Char) : String :=
  let value := bytes.foldr (fun byte value => 256 * value + byte.toNat) 0
  match dump.style with
  | .letters =>
    let known := [('\x00', "\\0"), ('\x07', "\\a"), ('\x08', "\\b"), ('\x0c', "\\f"), ('\n', "\\n"),
      ('\r', "\\r"), ('\t', "\\t"), ('\x0b', "\\v")]
    let byte := bytes.headD '\x00'
    if 32 ≤ byte.toNat && byte.toNat < 127 then .singleton byte
    else (known.lookup byte).getD (.ofList (padded 3 (Nat.toDigits 8 byte.toNat)))
  | .names =>
    let low := value % 128
    if low = 127 then "del" else (names[low]?).getD (.singleton (Char.ofNat low))
  | .floating =>
    let double := if dump.size = 8 then Float.ofBits value.toUInt64
      else (Float32.ofBits value.toUInt32).toFloat
    let digits := if dump.size = 8 then 17 else 9
    let candidates := (List.range digits).map fun count =>
      String.ofList ({ precision := some (count + 1) : Formatting.Layout }.floating .double 'g'
        (Floating.ofFloat double))
    let readsBack := fun text : String =>
      ((Floating.atFront? .double text.toList).map fun found =>
        if dump.size = 8 then found.1.toFloat.toBits.toNat
        else found.1.toFloat.toFloat32.toBits.toNat) = some value
    (candidates.find? readsBack).getD (candidates.getLast?.getD "")
  | .number base isSigned =>
    if base = 10 then
      let limit := Nat.pow 256 dump.size
      if isSigned && limit ≤ 2 * value then s!"-{limit - value}" else toString value
    else .ofList (padded (dump.width - 1) (Nat.toDigits base value))

/-- A line of bytes, given how many a full line has, and how wide the widest of lines is. -/
def line (dump : Dump) (perLine widest : Nat) (bytes : List Char) : String :=
  let fields := perLine / dump.size
  let spare := widest - fields * dump.width
  let blanks := fun index => spare * (fields - index) / max 1 fields
  let pieces := (List.range ((bytes.length + dump.size - 1) / dump.size)).map fun index =>
    let group := (bytes.drop (index * dump.size)).take dump.size
    toRight (dump.width + blanks index - blanks (index + 1)) (dump.text group)
  let missing := fields - pieces.length
  let rest := if dump.showsText then
      let shown := bytes.map fun byte => if 32 ≤ byte.toNat && byte.toNat < 127 then byte else '.'
      String.ofList (List.replicate (missing * dump.width + blanks pieces.length) ' ') ++
        "  >" ++ String.ofList shown ++ "<"
    else ""
  "".intercalate pieces ++ rest

/-- The ways that a text spells. -/
def ofLetters (whole : String) : Nat → List Char → Except String (List Dump)
  | 0, _ => .ok []
  | _, [] => .ok []
  | fuel + 1, letter :: rest => do
    let digits := rest.takeWhile Char.isDigit
    let units := [('C', 1), ('S', 2), ('I', 4), ('L', 8)]
    let floatUnits := [('F', 4), ('D', 8)]
    let known := if letter = 'f' then floatUnits else units
    let (size?, after) := match digits, rest with
      | [], unit :: after =>
        match known.lookup unit with
        | some size => (some size, after)
        | none => (none, rest)
      | [], [] => (none, [])
      | _, _ => (Arithmetic.inBase? 10 digits, rest.drop digits.length)
    let sized : ByteStyle → Except String (Dump × List Char) := fun style => do
      let usual := if letter = 'f' then 8 else 4
      let size := size?.getD usual
      let sizes := if letter = 'f' then [4, 8] else [1, 2, 4, 8]
      unless sizes.contains size do
        let kind := if letter = 'f' then "floating point" else "integral"
        throw <| s!"invalid type string {quotedWord whole};\n" ++
          s!"this system doesn't provide a {size}-byte {kind} type"
      return ({ style, size }, after)
    let (dump, after) ← match letter with
      | 'a' => pure (({ style := .names, size := 1 } : Dump), rest)
      | 'c' => pure (({ style := .letters, size := 1 } : Dump), rest)
      | 'd' => sized (.number 10 true)
      | 'u' => sized (.number 10 false)
      | 'o' => sized (.number 8 false)
      | 'x' => sized (.number 16 false)
      | 'f' => sized .floating
      | _ => throw s!"invalid character '{letter}' in type string {quotedWord whole}"
    let (dump, after) := match after with
      | 'z' :: after => ({ dump with showsText := true }, after)
      | _ => (dump, after)
    return dump :: (← ofLetters whole fuel after)

end Dump

/-- The options that stand for a way to show bytes. -/
def dumpOptions : List (Char × String) :=
  [('a', "a"), ('b', "o1"), ('c', "c"), ('d', "u2"), ('f', "fF"), ('i', "dI"), ('l', "dL"),
    ('o', "o2"), ('s', "d2"), ('x', "x2")]

/-- Shows bytes line by line. Lines that are the same as the one before are left out. -/
def dumpLines (dumps : List Dump) (perLine widest : Nat) (address : Nat → String)
    (showsAll : Bool) : Nat → Nat → Option (List Char) → Bool → List Char → List String
  | 0, _, _, _, _ => []
  | fuel + 1, position, before, isLeftOut, bytes =>
    match bytes with
    | [] => if address position = "" then [] else [address position ++ "\n"]
    | _ =>
      let line := bytes.take perLine
      let rest := bytes.drop perLine
      let again := dumpLines dumps perLine widest address showsAll fuel
      if before = some line && !showsAll && line.length = perLine then
        (if isLeftOut then [] else ["*\n"]) ++ again (position + line.length) before true rest
      else
        let front := address position
        let blanks := String.ofList (List.replicate front.length ' ')
        let texts := dumps.zipIdx.map fun (dump, index) =>
          (if index = 0 then front else blanks) ++ dump.line perLine widest line ++ "\n"
        texts ++ again (position + line.length) (some line) false rest

/-- How an address is shown. -/
def addressOf (radix : Char) (position : Nat) : String :=
  match radix with
  | 'd' => .ofList (Dump.padded 7 (Nat.toDigits 10 position))
  | 'x' => .ofList (Dump.padded 6 (Nat.toDigits 16 position))
  | 'o' => .ofList (Dump.padded 7 (Nat.toDigits 8 position))
  | _ => ""

def dump (name : String) (words : List String) : Procedure Unit :=
  withGiven name 1
    { plain := "abcdfilosxv", valued := "AtjNS", optional := "w"
      long := [("address-radix", 'A'), ("format", 't'), ("skip-bytes", 'j'), ("read-bytes", 'N'),
        ("output-duplicates", 'v'), ("width", 'w')] } words
    fun given => do
      let radix := (((given.value? 'A').getD "o").toList.head?).getD 'o'
      let texts := given.options.filterMap fun (letter, value) =>
        if letter = 't' then some value else dumpOptions.lookup letter
      let texts := if texts = [] then ["o2"] else texts
      match texts.mapM fun text => Dump.ofLetters text (text.length + 1) text.toList with
      | .error message =>
        complain name message
        setStatus 1
      | .ok dumps =>
        let dumps := dumps.flatten
        if !"doxn".contains radix then
          complain name <| s!"invalid output address radix '{radix}'; " ++
            "it must be one character from [doxn]"
          setStatus 1
        else
          let mut bytes : List (List Char) := []
          for operand in given.sources do
            let isDirectory := (← get).files.hasDirectory (pathOf operand)
            match ← read? name 1 operand (given.has 'N') with
            | some text => bytes := bytes ++ [text.toList]
            | none => if isDirectory then bytes := bytes ++ [[]]
          let all := bytes.flatten
          let skipped := ((given.value? 'j').bind sized?).getD 0
          if all.length < skipped then
            complain name "cannot skip past end of combined input"
            setStatus 1
          else if bytes ≠ [] then
            let rest := all.drop skipped
            let rest := (((given.value? 'N').bind sized?).map rest.take).getD rest
            modify ({ · with hasEndlessInput := false })
            let unit := (dumps.map Dump.size).foldl max 1
            let wanted := match given.value? 'w' with
              | none => 16
              | some "" => 32
              | some text => (number? text).getD 16
            let perLine := if wanted % unit = 0 && 0 < wanted then wanted else unit
            if perLine ≠ wanted then
              complain name s!"warning: invalid width {wanted}; using {perLine} instead"
            let widest := (dumps.map fun dump => perLine / dump.size * dump.width).foldl max 0
            let lines := dumpLines dumps perLine widest (addressOf radix) (given.has 'v')
              (rest.length + 2) skipped none false rest
            emit ("".intercalate lines)

end CompositeKeys.Shell.Utility
