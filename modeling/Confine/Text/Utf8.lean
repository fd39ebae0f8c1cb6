/-! # Characters in bytes

Text comes from outside as bytes, which need not be UTF-8. `decode?` reads all of them as characters
or none; `pieces` reads what it can, and keeps each byte that begins no character by itself.
-/

namespace Confine.Text

/-- The characters that the bytes encode, if they are UTF-8. -/
def decode? (bytes : List UInt8) : Option (List Char) :=
  bytes.toByteArray.utf8Decode?.map Array.toList

/-- A character, or a byte that begins none. -/
inductive Piece where
  | char (c : Char)
  | stray (byte : UInt8)
  deriving Repr, DecidableEq

/-- The first character encoded by the bytes. No encoding is longer than four bytes. -/
def firstChar? (bytes : List UInt8) : Option Char :=
  (bytes.take 4).toByteArray.utf8DecodeChar? 0

/-- The bytes as characters and stray bytes. -/
def pieces : List UInt8 → List Piece
  | [] => []
  | byte :: rest =>
    match firstChar? (byte :: rest) with
    | some c => .char c :: pieces (rest.drop (c.utf8Size - 1))
    | none => .stray byte :: pieces rest
termination_by bytes => bytes.length
decreasing_by
  all_goals simp only [List.length_drop, List.length_cons]; omega

end Confine.Text
