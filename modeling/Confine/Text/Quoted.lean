import Confine.Text.Hex
import Confine.Text.Invisible
import Confine.Text.Utf8

/-! # Bytes in quotes

How a log line shows bytes that came from outside: in double quotes, with everything escaped that
could not be told apart on a terminal.
-/

namespace Confine.Text

/-- A byte as `\x` and two hexadecimal digits. -/
def escapedByte (byte : UInt8) : String :=
  let digits := hexDigits byte.toNat
  "\\x" ++ (if digits.length = 1 then "0" else "") ++ digits

/-- The code points that are escaped by a letter or by themselves, with what stands for them. -/
def shortEscapes : List (Nat × String) :=
  [(0x09, "\\t"), (0x0a, "\\n"), (0x0d, "\\r"), (0x22, "\\\""), (0x27, "\\'"), (0x5c, "\\\\")]

/-- A character as it stands in quotes: the other controls of ASCII by their number, invisible
characters by their code point, and all others as they are. -/
def quotedChar (c : Char) : String :=
  match shortEscapes.lookup c.toNat with
  | some escape => escape
  | none =>
    if c.toNat < 0x20 || c.toNat = 0x7f then escapedByte c.toNat.toUInt8
    else if 0x80 ≤ c.toNat && isInvisible c then "\\u\x7b" ++ hexDigits c.toNat ++ "\x7d"
    else c.toString

/-- Text between double quotes. -/
def inQuotes (text : String) : String :=
  "\"" ++ text ++ "\""

/-- Bytes as quoted text. A byte that begins no character is shown by its number. -/
def quoted (bytes : List UInt8) : String :=
  let body := (pieces bytes).map fun
    | .char c => quotedChar c
    | .stray byte => escapedByte byte
  inQuotes (String.join body)

end Confine.Text
