import CBind.Number.Numeral

/-!
# Quoted texts

A quoted text stands in quotation marks. Quotation marks, backslashes and control characters in it are
written behind a backslash, so the text can be read back and stays on one line.
-/

namespace CBind.Text

/-- Recognize the control characters of ASCII. -/
def isControl (c : Char) : Bool :=
  c.toNat < 32 || c.toNat == 127

/-- Write a character between quotation marks. -/
def quotedChar (c : Char) : List Char :=
  if c == '"' then ['\\', '"']
  else if c == '\\' then ['\\', '\\']
  else if c == '\n' then ['\\', 'n']
  else if c == '\r' then ['\\', 'r']
  else if c == '\t' then ['\\', 't']
  else if c == '\x00' then ['\\', '0']
  else if isControl c then ['\\', 'u', '\x7b'] ++ (hexadecimal c.toNat).toList ++ ['\x7d']
  else [c]

/-- Write a text between quotation marks. -/
def quoted (s : String) : String :=
  "\"" ++ String.ofList (s.toList.flatMap quotedChar) ++ "\""

end CBind.Text
