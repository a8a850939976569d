import Bench65.Text.Ascii
import Bench65.Text.Hex

/-!
# Bytes and text inside messages

A message that quotes a byte shows it as itself where it is a printable ASCII character and
escaped otherwise.
-/

namespace Bench65.Escape

/-- A byte as it appears in quoted text: tabs, line ends, quotes and backslashes as two-character
escapes, other characters that do not print as `\x` and two digits. -/
def byte (b : UInt8) : String :=
  match Ascii.char b with
  | '\t' => "\\t"
  | '\r' => "\\r"
  | '\n' => "\\n"
  | '\'' => "\\'"
  | '"' => "\\\""
  | '\\' => "\\\\"
  | c => if Ascii.isPrintable b then String.singleton c else "\\x" ++ Hex.byte b

/-- A byte as a number, followed by its character in quotes if it prints. -/
def byteWithChar (b : UInt8) : String :=
  let number := "0x" ++ Hex.byte b
  if Ascii.isPrintable b then
    match Ascii.char b with
    | '\'' => number ++ " ('\\'')"
    | '\\' => number ++ " ('\\\\')"
    | c => s!"{number} ('{c}')"
  else number

/-- Text in double quotes, with backslashes before the quotes and backslashes in it. -/
def quoted (text : String) : String :=
  "\"" ++ String.join (text.toList.map fun c =>
    if c = '"' then "\\\"" else if c = '\\' then "\\\\" else String.singleton c) ++ "\""

end Bench65.Escape
