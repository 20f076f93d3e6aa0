/-! Texts as sequences of bytes. A byte is kept as the character with its number, so that a text in
ASCII is its own sequence of bytes. -/

namespace CompositeKeys.Text

/-- The characters that stand for bytes which are no part of a character. They are the last ones
that there are, which no text has a use for. -/
def strayStart : Nat := 0x10FF00

def isStray (letter : Char) : Bool := strayStart + 0x80 ≤ letter.toNat

/-- The bytes of a character in UTF-8. -/
def bytesOfLetter (letter : Char) : List Char :=
  if letter.toNat < 0x80 then [letter]
  else if isStray letter then [Char.ofNat (letter.toNat - strayStart)]
  else (String.singleton letter).toUTF8.toList.map fun byte => Char.ofNat byte.toNat

/-- The bytes of a text in UTF-8. -/
def bytesOf (text : String) : String := .ofList (text.toList.flatMap bytesOfLetter)

/-- The ranges of the bytes that follow a first byte, if it begins a character of more than one. -/
def rangesAfter (first : Nat) : Option (List (Nat × Nat)) :=
  let any := (0x80, 0xBF)
  if first < 0xC2 then none
  else if first < 0xE0 then some [any]
  else if first = 0xE0 then some [(0xA0, 0xBF), any]
  else if first = 0xED then some [(0x80, 0x9F), any]
  else if first < 0xF0 then some [any, any]
  else if first = 0xF0 then some [(0x90, 0xBF), any, any]
  else if first < 0xF4 then some [any, any, any]
  else if first = 0xF4 then some [(0x80, 0x8F), any, any]
  else none

/-- The number of bytes that are in their ranges, from the front. -/
def countInRanges : List (Nat × Nat) → List Char → Nat
  | range :: ranges, byte :: bytes =>
    if range.1 ≤ byte.toNat ∧ byte.toNat ≤ range.2 then countInRanges ranges bytes + 1 else 0
  | _, _ => 0

/-- The character whose first byte and whose other bytes are given. -/
def characterOf (first : Nat) (others : List Char) : Char :=
  let lead := if first < 0xE0 then first - 0xC0 else if first < 0xF0 then first - 0xE0
    else first - 0xF0
  Char.ofNat (others.foldl (fun value byte => 64 * value + byte.toNat % 64) lead)

/-- Reads characters. What bytes stand for that begin a character which is not completed is
given. -/
def charactersOf (stray : List Char → List Char) : Nat → List Char → List Char
  | 0, _ | _, [] => []
  | fuel + 1, byte :: rest =>
    if byte.toNat < 0x80 then byte :: charactersOf stray fuel rest
    else match rangesAfter byte.toNat with
      | none => stray [byte] ++ charactersOf stray fuel rest
      | some ranges =>
        let count := countInRanges ranges rest
        let others := rest.take count
        let read := if count = ranges.length then [characterOf byte.toNat others]
          else stray (byte :: others)
        read ++ charactersOf stray fuel (rest.drop count)

/-- The text that bytes stand for, with a replacement character for bytes that stand for none. -/
def ofBytes (bytes : String) : String :=
  .ofList (charactersOf (fun _ => ['\ufffd']) bytes.length bytes.toList)

/-- The text that keeps all bytes. -/
def keepingBytes (bytes : String) : String :=
  .ofList (charactersOf (·.map fun byte => Char.ofNat (strayStart + byte.toNat)) bytes.length
    bytes.toList)

end CompositeKeys.Text
