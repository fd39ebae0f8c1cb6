/-! # Hexadecimal numbers -/

namespace Confine.Text

/-- The hexadecimal digits of a number, in lower case and without leading zeros. -/
def hexDigits (n : Nat) : String :=
  String.ofList (Nat.toDigits 16 n)

/-- A number as `0x` and its hexadecimal digits. -/
def hex (n : Nat) : String :=
  "0x" ++ hexDigits n

end Confine.Text
