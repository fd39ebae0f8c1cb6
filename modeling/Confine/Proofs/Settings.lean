import Confine.Proofs.Text
import Confine.Settings
import Mathlib

/-! # The grammar of the settings

A size is read from the decimal numerals of words, and a verbosity from the six names of verbosities,
in letters of either case.  White space around them is of no account, and all other bytes are refused.
-/

namespace Confine

namespace Log.Verbosity

variable {v : Verbosity} {name : List Char}

def word : Verbosity → String
  | off => "off"
  | upTo .error => "error"
  | upTo .warn => "warn"
  | upTo .info => "info"
  | upTo .debug => "debug"
  | upTo .trace => "trace"

theorem mem_all (v : Verbosity) : v ∈ all := by
  cases v with
  | off => decide
  | upTo level => cases level <;> decide

theorem eq_of_name {w : Verbosity} (same : w.name.toList = v.name.toList) : w = v := by
  have distinct : ∀ w ∈ all, ∀ v ∈ all, w.name.toList = v.name.toList → w = v := by decide
  exact distinct w (mem_all w) v (mem_all v) same

theorem ofName?_eq_some_iff : ofName? name = some v ↔ v.name.toList = name.map Char.toUpper := by
  constructor
  · intro found
    simpa using List.find?_some found
  · intro named
    cases found : ofName? name with
    | none =>
        have missed := List.find?_eq_none.mp found v (mem_all v)
        simp [named] at missed
    | some w =>
        have same : w.name.toList = name.map Char.toUpper := by simpa using List.find?_some found
        rw [eq_of_name (same.trans named.symm)]

theorem map_toUpper_eq_iff :
    v.name.toList = name.map Char.toUpper ↔ name.map Char.toLower = v.word.toList := by
  have lowered : v.name.toList.map Char.toLower = v.word.toList := by
    cases v with
    | off => decide
    | upTo level => cases level <;> decide
  have raised : v.word.toList.map Char.toUpper = v.name.toList := by
    cases v with
    | off => decide
    | upTo level => cases level <;> decide
  constructor
  · intro same
    rw [← lowered, same, List.map_map]
    congr 1
    funext c
    exact (Char.toLower_toUpper_eq_toLower c).symm
  · intro same
    rw [← raised, ← same, List.map_map]
    congr 1
    funext c
    exact Char.toUpper_toLower_eq_toUpper c

end Log.Verbosity

namespace Settings

open Text

variable {text : List Char} {raw : List UInt8} {n : Nat}

/-! ## Numerals -/

/-- The text is a decimal numeral of the number: digits, as many zeros in front as one likes, and
perhaps a plus sign before them. -/
def Numeral (n : Nat) (text : List Char) : Prop :=
  ∃ digits : List Nat, digits ≠ [] ∧ (∀ d ∈ digits, d < 10) ∧ Nat.ofDigits 10 digits.reverse = n ∧
    (text = digits.map Nat.digitChar ∨ text = '+' :: digits.map Nat.digitChar)

theorem foldl_digits {digits : List Nat} (small : ∀ d ∈ digits, d < 10) (start : Nat) :
    (digits.map Nat.digitChar).foldl (fun n digit => 10 * n + (digit.toNat - '0'.toNat)) start =
      10 ^ digits.length * start + Nat.ofDigits 10 digits.reverse := by
  induction digits generalizing start with
  | nil => simp
  | cons d rest ih =>
      obtain ⟨first, others⟩ := List.forall_mem_cons.mp small
      have value : d.digitChar.toNat - '0'.toNat = d := Nat.toNat_digitChar_sub_48_of_lt_ten first
      rw [List.map_cons, List.foldl_cons, value, ih others, List.reverse_cons, Nat.ofDigits_append,
        List.length_reverse, List.length_cons]
      simp only [Nat.ofDigits_singleton]
      ring

theorem digitChar_sub {c : Char} (digit : c.isDigit = true) :
    c.toNat - '0'.toNat < 10 ∧ (c.toNat - '0'.toNat).digitChar = c := by
  obtain ⟨low, high⟩ := Char.isDigit_iff_toNat.mp digit
  have zero : '0'.toNat = 48 := rfl
  have nine : '9'.toNat = 57 := rfl
  have small : c.toNat - '0'.toNat < 10 := by omega
  refine ⟨small, Char.toNat_inj.mp ?_⟩
  rw [Nat.toNat_digitChar_of_lt_ten small]
  omega

theorem natural?_eq_some_iff : natural? text = some n ↔
    ∃ digits : List Nat, digits ≠ [] ∧ (∀ d ∈ digits, d < 10) ∧
      Nat.ofDigits 10 digits.reverse = n ∧ text = digits.map Nat.digitChar := by
  constructor
  · intro read
    unfold natural? at read
    split at read
    · next written =>
        obtain ⟨present, all⟩ := written
        let digits := text.map fun c => c.toNat - '0'.toNat
        have back : text = digits.map Nat.digitChar := by
          have each : ∀ c ∈ text, (c.toNat - '0'.toNat).digitChar = id c :=
            fun c mem => (digitChar_sub (List.all_eq_true.mp all c mem)).2
          rw [List.map_map]
          exact ((List.map_congr_left each).trans (List.map_id text)).symm
        have small : ∀ d ∈ digits, d < 10 := by
          intro d mem
          obtain ⟨c, listed, rfl⟩ := List.mem_map.mp mem
          exact (digitChar_sub (List.all_eq_true.mp all c listed)).1
        have value := foldl_digits small 0
        rw [← back] at value
        refine ⟨digits, by simpa [digits] using present, small, ?_, back⟩
        rw [← Option.some.inj read, value, Nat.mul_zero, Nat.zero_add]
    · cases read
  · rintro ⟨digits, present, small, rfl, rfl⟩
    have all : (digits.map Nat.digitChar).all Char.isDigit = true := by
      simpa [Nat.isDigit_digitChar] using small
    rw [natural?, if_pos ⟨by simpa using present, all⟩, foldl_digits small, Nat.mul_zero,
      Nat.zero_add]

theorem natural?_dropPlus_eq_some_iff : natural? (dropPlus text) = some n ↔ Numeral n text := by
  rw [natural?_eq_some_iff]
  unfold dropPlus
  split
  · next rest =>
      constructor
      · rintro ⟨digits, present, small, value, rfl⟩
        exact ⟨digits, present, small, value, .inr rfl⟩
      · rintro ⟨digits, present, small, value, plain | plus⟩
        · obtain ⟨d, digits, rfl⟩ := List.exists_cons_of_ne_nil present
          exact absurd (List.cons.inj plain).1.symm (Nat.digitChar_ne '+' (by decide))
        · exact ⟨digits, present, small, value, (List.cons.inj plus).2⟩
  · next other =>
      constructor
      · rintro ⟨digits, present, small, value, rfl⟩
        exact ⟨digits, present, small, value, .inl rfl⟩
      · rintro ⟨digits, present, small, value, plain | plus⟩
        · exact ⟨digits, present, small, value, plain⟩
        · exact absurd plus (other _)

/-! ## Raw bytes -/

theorem parseHeapSize?_eq_some_iff : parseHeapSize? raw = some n ↔
    ∃ text core, raw = encode text ∧ Trims text core ∧ Numeral n core ∧ n < 2 ^ 64 := by
  simp only [parseHeapSize?, Option.bind_eq_bind, Option.bind_eq_some_iff, decode?_eq_some_iff,
    Option.filter_eq_some_iff, natural?_dropPlus_eq_some_iff, decide_eq_true_eq]
  constructor
  · rintro ⟨text, encoded, numeral, word⟩
    exact ⟨text, trim text, encoded, trims_trim text, numeral, word⟩
  · rintro ⟨text, core, encoded, trims, numeral, word⟩
    rw [← trim_eq_iff] at trims
    exact ⟨text, encoded, trims ▸ numeral, word⟩

theorem parseVerbosity?_eq_some_iff {v : Log.Verbosity} : parseVerbosity? raw = some v ↔
    ∃ text core, raw = encode text ∧ Trims text core ∧
      core.map Char.toLower = v.word.toList := by
  simp only [parseVerbosity?, Option.bind_eq_bind, Option.bind_eq_some_iff, decode?_eq_some_iff,
    Log.Verbosity.ofName?_eq_some_iff, Log.Verbosity.map_toUpper_eq_iff]
  constructor
  · rintro ⟨text, encoded, named⟩
    exact ⟨text, trim text, encoded, trims_trim text, named⟩
  · rintro ⟨text, core, encoded, trims, named⟩
    rw [← trim_eq_iff] at trims
    exact ⟨text, encoded, trims ▸ named⟩

/-! ## Writing a size -/

theorem numeral_repr (n : Nat) : Numeral n n.repr.toList := by
  have digit : ∀ c ∈ Nat.toDigits 10 n, c.isDigit = true :=
    fun c mem => Nat.isDigit_of_mem_toDigits (by decide) (by decide) mem
  have read : natural? n.repr.toList = some n := by
    rw [Nat.repr, String.toList_ofList, natural?,
      if_pos ⟨Nat.toDigits_ne_nil, List.all_eq_true.mpr digit⟩, ← Nat.ofDigitChars_eq_foldl,
      Nat.ofDigitChars_ten_toDigits]
  obtain ⟨digits, present, small, value, written⟩ := natural?_eq_some_iff.mp read
  exact ⟨digits, present, small, value, .inl written⟩

theorem Numeral.trims {core front back : List Char} (numeral : Numeral n core)
    (hfront : Blank front) (hback : Blank back) : Trims (front ++ core ++ back) core := by
  obtain ⟨digits, present, small, -, written⟩ := numeral
  have dark : ∀ c ∈ core, c.toNat ∉ whiteSpace := by
    have digit : ∀ c ∈ digits.map Nat.digitChar, c.toNat ∉ whiteSpace := by
      intro c mem
      obtain ⟨d, listed, rfl⟩ := List.mem_map.mp mem
      exact not_mem_whiteSpace_of_isDigit (by simpa [Nat.isDigit_digitChar] using small d listed)
    rcases written with rfl | rfl
    · exact digit
    · exact List.forall_mem_cons.mpr ⟨by decide, digit⟩
  exact {
    surrounded := ⟨front, back, hfront, hback, rfl⟩
    first := fun c head => dark c (List.mem_of_mem_head? head)
    last := fun c last => dark c (List.mem_of_mem_getLast? last) }

/-- The settings are read from raw bytes as the grammar says. -/
structure ReadByGrammar (raw : List UInt8) : Prop where
  heapSize : ∀ n, parseHeapSize? raw = some n ↔
    ∃ text core, raw = encode text ∧ Trims text core ∧ Numeral n core ∧ n < 2 ^ 64
  verbosity : ∀ v, parseVerbosity? raw = some v ↔
    ∃ text core, raw = encode text ∧ Trims text core ∧ core.map Char.toLower = v.word.toList
  /-- A word that is written in decimal digits is read again. -/
  written : ∀ n front back, n < 2 ^ 64 → Blank front → Blank back →
    raw = encode (front ++ (toString n).toList ++ back) → parseHeapSize? raw = some n

theorem readByGrammar_of_bytes (raw : List UInt8) : ReadByGrammar raw where
  heapSize _ := parseHeapSize?_eq_some_iff
  verbosity _ := parseVerbosity?_eq_some_iff
  written n front back word hfront hback encoded := by
    have numeral := numeral_repr n
    exact parseHeapSize?_eq_some_iff.mpr
      ⟨_, _, encoded, numeral.trims hfront hback, numeral, word⟩

example : parseHeapSize? (encode "\u2003+0018446744073709551615\n".toList) = some (2 ^ 64 - 1) := by
  cbv

example : parseHeapSize? (encode "18446744073709551616".toList) = none := by
  cbv

end Settings

end Confine
