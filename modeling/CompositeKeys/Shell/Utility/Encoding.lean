import CompositeKeys.Shell.Utility.Viewing

/-! Utilities that spell bytes with the letters of a short alphabet. -/

namespace CompositeKeys.Shell.Utility
open Files Procedure

/-- A way to spell bytes: its letters, each of which stands for so many bits, and how many letters
go together. -/
structure Alphabet where
  letters : List Char
  bits : Nat
  group : Nat

namespace Alphabet

def base64 : Alphabet :=
  { letters := "ABCDEFGHIJKLMNOPQRSTUVWXYZabcdefghijklmnopqrstuvwxyz0123456789+/".toList
    bits := 6
    group := 4 }

def base32 : Alphabet :=
  { letters := "ABCDEFGHIJKLMNOPQRSTUVWXYZ234567".toList, bits := 5, group := 8 }

def bytesInGroup (alphabet : Alphabet) : Nat := alphabet.bits * alphabet.group / 8

/-- Spells so many bytes as go together. -/
def encodeGroup (alphabet : Alphabet) (bytes : List Char) : List Char :=
  let bits := alphabet.bits * alphabet.group
  let value := bytes.foldl (fun value byte => 256 * value + byte.toNat) 0
  let value := value * Nat.pow 256 (alphabet.bytesInGroup - bytes.length)
  let used := (8 * bytes.length + alphabet.bits - 1) / alphabet.bits
  (List.range alphabet.group).map fun index =>
    if used ≤ index then '='
    else
      let digit := value / Nat.pow 2 (bits - alphabet.bits * (index + 1))
      (alphabet.letters[digit % Nat.pow 2 alphabet.bits]?).getD '='

/-- Lists of so many things each. -/
def chunks {α : Type} (size : Nat) : Nat → List α → List (List α)
  | 0, _ | _, [] => []
  | fuel + 1, things => things.take size :: chunks size fuel (things.drop size)

def encode (alphabet : Alphabet) (bytes : List Char) : List Char :=
  (chunks alphabet.bytesInGroup bytes.length bytes).flatMap alphabet.encodeGroup

/-- The bytes that so many letters as go together spell, and whether they are well formed. -/
def decodeGroup (alphabet : Alphabet) (letters : List Char) : List Char × Bool :=
  let used := letters.takeWhile alphabet.letters.contains
  let isPadded := (letters.drop used.length).all (· = '=')
  let count := alphabet.bits * used.length / 8
  let value := used.foldl (fun value letter =>
    value * Nat.pow 2 alphabet.bits + (alphabet.letters.findIdx (· = letter))) 0
  let value := value / Nat.pow 2 (alphabet.bits * used.length - 8 * count)
  let bytes := (List.range count).map fun index =>
    Char.ofNat (value / Nat.pow 256 (count - 1 - index) % 256)
  let isWhole := letters.length = alphabet.group &&
    (8 * count + alphabet.bits - 1) / alphabet.bits = used.length && 0 < count
  (bytes, isPadded && isWhole)

/-- The bytes that letters spell up to a fault, and whether there is none. -/
def decode (alphabet : Alphabet) : List (List Char) → List Char × Bool
  | [] => ([], true)
  | letters :: rest =>
    match alphabet.decodeGroup letters with
    | (bytes, true) =>
      let (others, isRight) := decode alphabet rest
      (bytes ++ others, isRight)
    | (bytes, false) => (bytes, false)

end Alphabet

def encodeText (alphabet : Alphabet) (name : String) (words : List String) : Procedure Unit :=
  withGiven name 1
    { plain := "di", valued := "w"
      long := [("decode", 'd'), ("ignore-garbage", 'i'), ("wrap", 'w')] } words
    fun given => do
      let wrap := (given.value? 'w').getD "76"
      match number? wrap, given.operands with
      | none, _ =>
        complain name s!"invalid wrap size: {quotedWord wrap}"
        setStatus 1
      | _, _ :: extra :: _ => extraOperand name extra
      | some width, operands =>
        let operand := operands.headD "-"
        match ← contentsSoFar operand with
        | .error .isDirectory =>
          complain name "read error: Is a directory"
          setStatus 1
        | .error error =>
          complain name s!"{quotedIfNeeded operand}: {error.reason}"
          setStatus 1
        | .ok text =>
          if given.has 'd' then
            let letters := text.toList.filter fun letter =>
              letter ≠ '\n' && (!given.has 'i' || alphabet.letters.contains letter || letter = '=')
            let (bytes, isRight) :=
              alphabet.decode (Alphabet.chunks alphabet.group letters.length letters)
            emit (.ofList bytes)
            unless isRight do
              complain name "invalid input"
              setStatus 1
          else
            let letters := alphabet.encode text.toList
            if width = 0 then emit (.ofList letters)
            else
              for line in Alphabet.chunks width letters.length letters do
                emit (.ofList line ++ "\n")

end CompositeKeys.Shell.Utility
