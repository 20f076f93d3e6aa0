import CompositeKeys.Shell.Utility.Viewing

/-! Utilities that tell files apart by short sums of their bytes, and check such sums. -/

namespace CompositeKeys.Shell.Utility
open Files Procedure

/-- Arithmetic on words of so many bits. -/
structure WordSize where
  bits : Nat

namespace WordSize

def wrap (size : WordSize) (value : Nat) : Nat := value % Nat.pow 2 size.bits

def complement (size : WordSize) (value : Nat) : Nat := Nat.pow 2 size.bits - 1 - value

def rotateRight (size : WordSize) (value count : Nat) : Nat :=
  value >>> count ||| size.wrap (value <<< (size.bits - count))

def rotateLeft (size : WordSize) (value count : Nat) : Nat :=
  size.rotateRight value (size.bits - count)

/-- The word in which bytes stand, the first of which counts most or least. -/
def ofBytes (isLittle : Bool) (bytes : List Nat) : Nat :=
  (if isLittle then bytes.reverse else bytes).foldl (fun value byte => 256 * value + byte) 0

def toBytes (size : WordSize) (isLittle : Bool) (value : Nat) : List Nat :=
  let bytes := (List.range (size.bits / 8)).map fun index => value >>> (8 * index) % 256
  if isLittle then bytes else bytes.reverse

/-- The words of blocks into which a message is cut, with its length at the end. -/
def blocks (size : WordSize) (isLittle : Bool) (message : List Char) : List (Array Nat) :=
  let bytes := message.map Char.toNat
  let perWord := size.bits / 8
  let perBlock := 16 * perWord
  let lengthSize : WordSize := { bits := 2 * size.bits }
  let used := (bytes.length + 1 + 2 * perWord) % perBlock
  let gap := if used = 0 then 0 else perBlock - used
  let whole := bytes ++ 128 :: List.replicate gap 0 ++
    lengthSize.toBytes isLittle (8 * bytes.length)
  let words := (cut perWord (whole.length + 1) whole).map (ofBytes isLittle)
  (cut 16 (words.length + 1) words).map List.toArray
where
  cut {α : Type} (count : Nat) : Nat → List α → List (List α)
    | 0, _ | _, [] => []
    | fuel + 1, things => things.take count :: cut count fuel (things.drop count)

end WordSize

/-- The digits of bytes. -/
def hexadecimal (bytes : List Nat) : String :=
  .ofList (bytes.flatMap fun byte =>
    let digits := Nat.toDigits 16 byte
    if digits.length = 1 then '0' :: digits else digits)

/-- Primes in order. -/
def primesBelow (limit : Nat) : List Nat :=
  (List.range limit).filter fun number =>
    2 ≤ number && (List.range number).all fun other => other < 2 || number % other ≠ 0

/-- The greatest number whose power is not above another one, found bit by bit. -/
def rootOf (power target : Nat) : Nat → Nat → Nat
  | 0, found => found
  | bit + 1, found =>
    let next := found + Nat.pow 2 bit
    rootOf power target bit (if Nat.pow next power ≤ target then next else found)

/-- The first bits after the point of a root of a number. -/
def fractionOfRoot (power bits number : Nat) : Nat :=
  rootOf power (number * Nat.pow 2 (power * bits)) (bits + 8) 0 % Nat.pow 2 bits

namespace Digest

/-- Sums of the second kind of the secure hash. -/
def secure (size : WordSize) (rounds : Nat) (start : List Nat) (count : Nat)
    (sums : List (Nat × Nat × Nat)) (message : List Char) : String :=
  let constants := ((primesBelow 410).take rounds).map (fractionOfRoot 3 size.bits)
  let mixed := fun (which : Nat) (isShifted : Bool) (value : Nat) =>
    let (first, second, third) := sums.getD which (0, 0, 0)
    size.rotateRight value first ^^^ size.rotateRight value second ^^^
      (if isShifted then value >>> third else size.rotateRight value third)
  let expand := fun block : Array Nat =>
    (List.range (rounds - 16)).foldl (fun (words : Array Nat) index =>
      words.push (size.wrap (mixed 3 true (words.getD (index + 14) 0) + words.getD (index + 9) 0 +
        mixed 2 true (words.getD (index + 1) 0) + words.getD index 0))) block
  let step := fun (state : List Nat) (entry : Nat × Nat) =>
    match state with
    | [a, b, c, d, e, f, g, h] =>
      let choice := (e &&& f) ^^^ (size.complement e &&& g)
      let majority := (a &&& b) ^^^ (a &&& c) ^^^ (b &&& c)
      let first := h + mixed 1 false e + choice + entry.1 + entry.2
      let second := mixed 0 false a + majority
      [size.wrap (first + second), a, b, c, size.wrap (d + first), e, f, g]
    | other => other
  let final := (size.blocks false message).foldl (fun state block =>
    let after := (constants.zip (expand block).toList).foldl step state
    (state.zip after).map fun (first, second) => size.wrap (first + second)) start
  hexadecimal ((final.flatMap (size.toBytes false)).take count)

def small : WordSize := { bits := 32 }

def large : WordSize := { bits := 64 }

def smallSums : List (Nat × Nat × Nat) := [(2, 13, 22), (6, 11, 25), (7, 18, 3), (17, 19, 10)]

def largeSums : List (Nat × Nat × Nat) := [(28, 34, 39), (14, 18, 41), (1, 8, 7), (19, 61, 6)]

def sha256 : List Char → String :=
  secure small 64 (((primesBelow 20).take 8).map (fractionOfRoot 2 32)) 32 smallSums

def sha512 : List Char → String :=
  secure large 80 (((primesBelow 20).take 8).map (fractionOfRoot 2 64)) 64 largeSums

def sha384 : List Char → String :=
  secure large 80 ((((primesBelow 60).drop 8).take 8).map (fractionOfRoot 2 64)) 48 largeSums

def sha224 : List Char → String :=
  secure small 64 ((((primesBelow 60).drop 8).take 8).map fun prime =>
    fractionOfRoot 2 64 prime % Nat.pow 2 32) 28 smallSums

/-- Sums of the first kind of the secure hash. -/
def sha1 (message : List Char) : String :=
  let expand := fun block : Array Nat =>
    (List.range 64).foldl (fun (words : Array Nat) index =>
      words.push (small.rotateLeft (words.getD (index + 13) 0 ^^^ words.getD (index + 8) 0 ^^^
        words.getD (index + 2) 0 ^^^ words.getD index 0) 1)) block
  let step := fun (state : List Nat) (entry : Nat × Nat) =>
    match state with
    | [a, b, c, d, e] =>
      let (value, constant) := if entry.2 < 20 then
          ((b &&& c) ||| (small.complement b &&& d), 0x5a827999)
        else if entry.2 < 40 then (b ^^^ c ^^^ d, 0x6ed9eba1)
        else if entry.2 < 60 then ((b &&& c) ||| (b &&& d) ||| (c &&& d), 0x8f1bbcdc)
        else (b ^^^ c ^^^ d, 0xca62c1d6)
      [small.wrap (small.rotateLeft a 5 + value + e + constant + entry.1), a,
        small.rotateLeft b 30, c, d]
    | other => other
  let start := [0x67452301, 0xefcdab89, 0x98badcfe, 0x10325476, 0xc3d2e1f0]
  let final := (small.blocks false message).foldl (fun state block =>
    let after := (expand block).toList.zipIdx.foldl step state
    (state.zip after).map fun (first, second) => small.wrap (first + second)) start
  hexadecimal (final.flatMap (small.toBytes false))

/-- The constants of the fifth message digest, which are the sines of the first numbers. -/
def sines : List Nat :=
  (List.range 64).map fun index =>
    ((Float.abs (Float.sin (index + 1).toFloat)) * 4294967296.0).toUInt64.toNat

def md5 (message : List Char) : String :=
  let counts := [[7, 12, 17, 22], [5, 9, 14, 20], [4, 11, 16, 23], [6, 10, 15, 21]]
  let step := fun (block : Array Nat) (state : List Nat) (entry : Nat × Nat) =>
    match state with
    | [a, b, c, d] =>
      let index := entry.2
      let round := index / 16
      let (value, place) := match round with
        | 0 => ((b &&& c) ||| (small.complement b &&& d), index)
        | 1 => ((d &&& b) ||| (small.complement d &&& c), (5 * index + 1) % 16)
        | 2 => (b ^^^ c ^^^ d, (3 * index + 5) % 16)
        | _ => (c ^^^ (b ||| small.complement d), 7 * index % 16)
      let count := (counts.getD round []).getD (index % 4) 0
      let sum := small.wrap (a + value + entry.1 + block.getD place 0)
      [d, small.wrap (b + small.rotateLeft sum count), b, c]
    | other => other
  let start := [0x67452301, 0xefcdab89, 0x98badcfe, 0x10325476]
  let final := (small.blocks true message).foldl (fun state block =>
    let after := sines.zipIdx.foldl (step block) state
    (state.zip after).map fun (first, second) => small.wrap (first + second)) start
  hexadecimal (final.flatMap (small.toBytes true))

/-- The remainder that a byte leaves in a cyclic sum. -/
def cyclicTable : Array Nat :=
  ((List.range 256).map fun byte =>
    (List.range 8).foldl (fun value _ =>
      if value &&& 0x80000000 = 0 then value * 2
      else small.wrap (value * 2) ^^^ 0x04c11db7) (byte <<< 24)).toArray

/-- The bytes of a number, the least one first, as many as there have to be. -/
def bytesOfCount : Nat → Nat → List Nat
  | 0, _ => []
  | fuel + 1, count => if count = 0 then [] else count % 256 :: bytesOfCount fuel (count / 256)

/-- The cyclic sum of bytes and of their number. -/
def cyclic (message : List Char) : Nat :=
  let bytes := message.map Char.toNat ++ bytesOfCount 9 message.length
  let sum := bytes.foldl (fun sum byte =>
    small.wrap (sum <<< 8) ^^^ cyclicTable.getD (sum >>> 24 ^^^ byte) 0) 0
  small.complement sum

/-- The sum of bytes, which is turned by a bit before each of them. -/
def rotating (message : List Char) : Nat :=
  message.foldl (fun sum byte => (sum / 2 + (sum % 2) * 32768 + byte.toNat) % 65536) 0

/-- The sum of bytes in which what goes over is added again. -/
def plain (message : List Char) : Nat :=
  let sum := message.foldl (fun sum byte => sum + byte.toNat) 0
  let once := sum % 65536 + sum % 4294967296 / 65536
  once % 65536 + once / 65536

end Digest

/-- A kind of digest: the word for it, how many digits it has, and how it is made. -/
structure DigestKind where
  title : String
  digits : Nat
  sum : List Char → String

def digestKinds : List (String × DigestKind) :=
  [("md5sum", ⟨"MD5", 32, Digest.md5⟩), ("sha1sum", ⟨"SHA1", 40, Digest.sha1⟩),
    ("sha224sum", ⟨"SHA224", 56, Digest.sha224⟩), ("sha256sum", ⟨"SHA256", 64, Digest.sha256⟩),
    ("sha384sum", ⟨"SHA384", 96, Digest.sha384⟩), ("sha512sum", ⟨"SHA512", 128, Digest.sha512⟩)]

/-- The digest and the file that a line tells of. -/
def digestLine? (kind : DigestKind) (line : String) : Option (String × String) :=
  let letters := line.toList
  let title := (kind.title ++ " (").toList
  let isDigest := fun text : List Char =>
    text.length = kind.digits && text.all fun letter =>
      letter.isDigit || "abcdefABCDEF".contains letter
  if title.isPrefixOf letters then
    match ((line.drop title.length).toString).splitOn ") = " with
    | [path, digest] => if isDigest digest.toList then some (digest.toLower, path) else none
    | _ => none
  else
    let digest := letters.takeWhile (· ≠ ' ')
    match letters.drop digest.length with
    | ' ' :: mark :: path =>
      if isDigest digest && (mark = ' ' || mark = '*') then
        some ((String.ofList digest).toLower, .ofList path)
      else none
    | _ => none

/-- Checks the digests in a list of them. -/
def checkDigests (kind : DigestKind) (name : String) (given : Given) (operand : String) :
    Procedure Unit := do
  if let some text ← read? name 1 operand then
    let lines := linesIn text
    let entries := lines.filterMap (digestLine? kind)
    let isSilent := given.has 'S'
    let title := if operand = "-" then "'standard input'" else quotedIfNeeded operand
    if entries = [] then
      complain name s!"{title}: no properly formatted checksum lines found"
      setStatus 1
    else
      let mut wrong := 0
      let mut unread := 0
      for (digest, path) in entries do
        match ← contents path with
        | .error error =>
          unless given.has 'I' && error = .notFound do
            complain name s!"{quotedIfNeeded path}: {error.reason}"
            unless isSilent do emit s!"{path}: FAILED open or read\n"
            unread := unread + 1
        | .ok text =>
          if kind.sum text.toList = digest then
            unless isSilent || given.has 'q' do emit s!"{path}: OK\n"
          else
            wrong := wrong + 1
            unless isSilent do emit s!"{path}: FAILED\n"
      let bad := lines.length - entries.length
      unless isSilent do
        if 0 < bad then
          complain name <| s!"WARNING: {bad} " ++
            (if bad = 1 then "line is" else "lines are") ++ " improperly formatted"
        if 0 < unread then
          complain name <| s!"WARNING: {unread} listed " ++
            (if unread = 1 then "file" else "files") ++ " could not be read"
        if 0 < wrong then
          complain name <| s!"WARNING: {wrong} computed " ++
            (if wrong = 1 then "checksum" else "checksums") ++ " did NOT match"
      if 0 < wrong + unread then setStatus 1

def showDigests (kind : DigestKind) (name : String) (words : List String) : Procedure Unit :=
  withGiven name 1
    { plain := "bctwz", long := [("binary", 'b'), ("check", 'c'), ("text", 't'), ("tag", 'T'),
      ("zero", 'z'), ("status", 'S'), ("quiet", 'q'), ("ignore-missing", 'I'), ("warn", 'w'),
      ("strict", 's')] } words
    fun given => do
      if given.has 'c' then
        for operand in given.sources do checkDigests kind name given operand
      else
        for operand in given.sources do
          if let some text ← read? name 1 operand then
            let digest := kind.sum text.toList
            let ending := if given.has 'z' then "\x00" else "\n"
            let mark := if given.last? "bt" = some 'b' then "*" else " "
            let line := if given.has 'T' then s!"{kind.title} ({operand}) = {digest}"
              else s!"{digest} {mark}{operand}"
            emit (line ++ ending)

/-- Shows the cyclic sums of files with their sizes. -/
def showCyclic (name : String) (words : List String) : Procedure Unit :=
  withGiven name 1
    { plain := "z", valued := "a", long := [("algorithm", 'a'), ("untagged", 'u')] } words
    fun given => do
      let kind? := (given.value? 'a').bind fun text => digestKinds.lookup (text ++ "sum")
      for operand in given.sources do
        if let some text ← read? name 1 operand then
          let bytes := text.toList
          let label := if given.operands = [] then "" else " " ++ operand
          match kind? with
          | some kind =>
            emit (if given.has 'u' then s!"{kind.sum bytes}  {operand}\n"
              else s!"{kind.title} ({operand}) = {kind.sum bytes}\n")
          | none => emit s!"{Digest.cyclic bytes} {bytes.length}{label}\n"

/-- Shows short sums of files with the number of blocks that they take. -/
def showSums (name : String) (words : List String) : Procedure Unit :=
  withGiven name 1 { plain := "rs", long := [("sysv", 's')] } words fun given => do
    for operand in given.sources do
      if let some text ← read? name 1 operand then
        let bytes := text.toList
        let label := if given.operands = [] then "" else " " ++ operand
        if given.last? "rs" = some 's' then
          emit s!"{Digest.plain bytes} {(bytes.length + 511) / 512}{label}\n"
        else
          let digits := Nat.toDigits 10 (Digest.rotating bytes)
          let sum := String.ofList (List.replicate (5 - digits.length) '0' ++ digits)
          emit s!"{sum} {column 5 ((bytes.length + 1023) / 1024)}{label}\n"

end CompositeKeys.Shell.Utility
