/-! Quoted text is a string literal in double quotes. Quotes, backslashes and the control characters
below U+0020 are escaped; every other character stands for itself. -/

namespace CompositeKeys.Text

def hexDigits : List Char := "0123456789abcdef".toList

def hexDigit (value : Nat) : Char := hexDigits.getD (value % 16) '0'

/-- The spelling of one character between double quotes. -/
def escaped (letter : Char) : List Char :=
  if letter = '"' then ['\\', '"']
  else if letter = '\\' then ['\\', '\\']
  else if letter = '\x08' then ['\\', 'b']
  else if letter = '\x0c' then ['\\', 'f']
  else if letter = '\n' then ['\\', 'n']
  else if letter = '\r' then ['\\', 'r']
  else if letter = '\t' then ['\\', 't']
  else if letter.toNat < 0x20 then
    ['\\', 'u', '0', '0', hexDigit (letter.toNat / 16), hexDigit letter.toNat]
  else [letter]

def quoted (text : String) : String :=
  .ofList ('"' :: text.toList.flatMap escaped ++ ['"'])

end CompositeKeys.Text
