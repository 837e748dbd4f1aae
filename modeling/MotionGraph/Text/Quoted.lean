import MotionGraph.Text.Glyph

/-!
# Quoted text in messages

Messages show a piece of input between double quotes. A quote or a backslash gets a backslash in
front, the usual controls have a letter (`\n`, `\t`, `\r`, `\0`), and every other character that
has no picture of its own is shown by its code in hexadecimal digits.
-/

namespace MotionGraph.Quoted

/-- A code point in hexadecimal digits. -/
def hex (n : Nat) : String := String.ofList (Nat.toDigits 16 n)

/-- One character as it stands between quotes. -/
def encodeChar (c : Char) : String :=
  if c = '"' then "\\\""
  else if c = '\\' then "\\\\"
  else if c = '\n' then "\\n"
  else if c = '\t' then "\\t"
  else if c = '\r' then "\\r"
  else if c = '\x00' then "\\0"
  else if Glyph.isInvisible c || Glyph.isCombining c then "\\u\x7b" ++ hex c.toNat ++ "\x7d"
  else c.toString

/-- A text between double quotes. -/
def encode (s : String) : String := "\"" ++ String.join (s.toList.map encodeChar) ++ "\""

end MotionGraph.Quoted
