import Confine.Text.Blank
import Confine.Text.Utf8
import Mathlib.Data.List.DropRight

/-! # Text in bytes

A text is decoded from the bytes that encode it and from no others.  Trimming takes off the white
space of Unicode at both ends of a text, and nothing else.
-/

namespace Confine.Text

variable {bytes : List UInt8} {text core front back : List Char} {c : Char}

def encode (text : List Char) : List UInt8 :=
  text.flatMap String.utf8EncodeChar

theorem decode?_encode (text : List Char) : decode? (encode text) = some text := by
  change (text.utf8Encode.utf8Decode?).map Array.toList = some text
  simp only [List.utf8Decode?_utf8Encode, Option.map_some]

theorem eq_encode_of_decode? (decoded : decode? bytes = some text) : bytes = encode text := by
  obtain ⟨chars, whole, rfl⟩ := Option.map_eq_some_iff.mp decoded
  have valid : bytes.toByteArray.utf8Decode?.isSome = true := by simp [whole]
  have back := ByteArray.utf8Encode_get_utf8Decode? (h := valid)
  simp only [whole, Option.get_some] at back
  exact List.toByteArray_inj.mp back.symm

theorem decode?_eq_some_iff : decode? bytes = some text ↔ bytes = encode text :=
  ⟨eq_encode_of_decode?, fun encoded => encoded ▸ decode?_encode text⟩

/-! ## White space -/

def whiteSpace : List Nat :=
  [0x9, 0xa, 0xb, 0xc, 0xd, 0x20, 0x85, 0xa0, 0x1680, 0x2000, 0x2001, 0x2002, 0x2003, 0x2004,
    0x2005, 0x2006, 0x2007, 0x2008, 0x2009, 0x200a, 0x2028, 0x2029, 0x202f, 0x205f, 0x3000]

theorem isBlank_iff : isBlank c = true ↔ c.toNat ∈ whiteSpace := by
  simp only [isBlank, whiteSpace, Bool.or_eq_true, Bool.and_eq_true, decide_eq_true_eq, beq_iff_eq,
    List.mem_cons, List.not_mem_nil, or_false]
  omega

theorem not_mem_whiteSpace_of_isDigit (digit : c.isDigit = true) : c.toNat ∉ whiteSpace := by
  obtain ⟨low, high⟩ := Char.isDigit_iff_toNat.mp digit
  have zero : '0'.toNat = 48 := rfl
  have nine : '9'.toNat = 57 := rfl
  simp only [whiteSpace, List.mem_cons, List.not_mem_nil, or_false]
  omega

/-- The text is white space throughout. -/
def Blank (text : List Char) : Prop :=
  ∀ c ∈ text, c.toNat ∈ whiteSpace

theorem Blank.isBlank (blank : Blank text) : ∀ c ∈ text, isBlank c = true :=
  fun c mem => isBlank_iff.mpr (blank c mem)

theorem blank_of_isBlank (blank : ∀ c ∈ text, isBlank c = true) : Blank text :=
  fun c mem => isBlank_iff.mp (blank c mem)

/-! ## Trimming -/

/-- The text is `core` between white space, and `core` neither begins nor ends with some. -/
structure Trims (text core : List Char) : Prop where
  surrounded : ∃ front back, Blank front ∧ Blank back ∧ text = front ++ core ++ back
  first : ∀ c ∈ core.head?, c.toNat ∉ whiteSpace
  last : ∀ c ∈ core.getLast?, c.toNat ∉ whiteSpace

theorem trim_eq_rdropWhile (text : List Char) :
    trim text = (text.dropWhile isBlank).rdropWhile isBlank :=
  rfl

theorem dropWhile_eq_self (first : ∀ c ∈ text.head?, c.toNat ∉ whiteSpace) :
    text.dropWhile isBlank = text := by
  cases text with
  | nil => rfl
  | cons c rest =>
      refine List.dropWhile_cons_of_neg fun blank => ?_
      exact first c rfl (isBlank_iff.mp blank)

theorem trim_surrounded (hfront : Blank front) (hback : Blank back)
    (first : ∀ c ∈ core.head?, c.toNat ∉ whiteSpace)
    (last : ∀ c ∈ core.getLast?, c.toNat ∉ whiteSpace) :
    trim (front ++ core ++ back) = core := by
  have backwards : core.reverse.dropWhile isBlank = core.reverse :=
    dropWhile_eq_self (by rwa [List.head?_reverse])
  rw [trim, List.append_assoc, List.dropWhile_append_of_pos hfront.isBlank]
  cases core with
  | nil =>
      have gone : back.dropWhile isBlank = [] := List.dropWhile_eq_nil_iff.mpr hback.isBlank
      simp [gone]
  | cons c rest =>
      have kept : (c :: rest ++ back).dropWhile isBlank = c :: rest ++ back := dropWhile_eq_self first
      have blank : ∀ c ∈ back.reverse, isBlank c = true := by
        simpa only [List.mem_reverse] using hback.isBlank
      rw [kept, List.reverse_append, List.dropWhile_append_of_pos blank, backwards,
        List.reverse_reverse]

theorem trims_trim (text : List Char) : Trims text (trim text) where
  surrounded := by
    refine ⟨text.takeWhile isBlank, (text.dropWhile isBlank).rtakeWhile isBlank, ?_, ?_, ?_⟩
    · exact blank_of_isBlank fun c mem => List.mem_takeWhile_imp mem
    · exact blank_of_isBlank fun c mem => List.mem_rtakeWhile_imp mem
    · rw [trim_eq_rdropWhile, List.append_assoc, List.rdropWhile_append_rtakeWhile,
        List.takeWhile_append_dropWhile]
  first := by
    intro c head blank
    obtain ⟨rest, kept⟩ : trim text <+: text.dropWhile isBlank := List.rdropWhile_prefix ..
    have begins : (text.dropWhile isBlank).head? = some c := by
      rw [← kept, List.head?_append, head]
      rfl
    have outcome := List.head?_dropWhile_not isBlank text
    rw [begins] at outcome
    exact Bool.eq_false_iff.mp outcome (isBlank_iff.mpr blank)
  last := by
    intro c last blank
    obtain ⟨present, rfl⟩ := List.mem_getLast?_eq_getLast last
    exact List.rdropWhile_last_not isBlank _ present (isBlank_iff.mpr blank)

theorem trim_eq_iff : trim text = core ↔ Trims text core := by
  constructor
  · rintro rfl
    exact trims_trim text
  · rintro ⟨⟨front, back, hfront, hback, rfl⟩, first, last⟩
    exact trim_surrounded hfront hback first last

end Confine.Text
