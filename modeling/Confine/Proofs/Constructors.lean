import Confine.Constructors
import Confine.Proofs.Action

/-! # What a dynamic section says of constructors

Of the entries before the one that ends the section, the last one of a kind counts, and three kinds
do.  So the order of the entries matters within a kind only.
-/

namespace Confine

namespace DynamicEntry

variable {α : Type} {tag : Nat} {f : Nat → α} {before : α}

/-- The entries of a section before the one that ends it. -/
def body (entries : List DynamicEntry) : List DynamicEntry :=
  entries.takeWhile (·.tag ≠ nullTag)

def tagged (tag : Nat) (entries : List DynamicEntry) : List DynamicEntry :=
  (body entries).filter (·.tag = tag)

def lastValue? (tag : Nat) (entries : List DynamicEntry) : Option Nat :=
  (tagged tag entries).getLast?.map (·.value)

/-- What the last entry of a kind makes of its value, if there is one. -/
def latest (tag : Nat) (f : Nat → α) (before : α) (entries : List DynamicEntry) : α :=
  ((entries.filter (·.tag = tag)).getLast?.map fun e => f e.value).getD before

theorem latest_nil : latest tag f before [] = before :=
  rfl

theorem latest_cons (e : DynamicEntry) (entries : List DynamicEntry) :
    latest tag f before (e :: entries) =
      latest tag f (if e.tag = tag then f e.value else before) entries := by
  simp only [latest]
  by_cases same : e.tag = tag
  · rw [List.filter_cons_of_pos (by simpa using same), if_pos same, List.getLast?_cons]
    cases (entries.filter (·.tag = tag)).getLast? <;> rfl
  · rw [List.filter_cons_of_neg (by simpa using same), if_neg same]

theorem latest_body (entries : List DynamicEntry) :
    latest tag f before (body entries) = ((lastValue? tag entries).map f).getD before := by
  rw [latest, lastValue?, Option.map_map]
  rfl

theorem body_append (value : Nat) (entries more : List DynamicEntry) :
    body (entries ++ ⟨nullTag, value⟩ :: more) = body entries := by
  induction entries with
  | nil => rfl
  | cons e rest ih =>
      simp only [body, List.cons_append, List.takeWhile_cons] at ih ⊢
      rw [ih]

end DynamicEntry

namespace Constructors

open DynamicEntry

variable {bias : Nat} {c : Constructors} {e : DynamicEntry} {entries others : List DynamicEntry}

/-- The address that an entry names is no word. -/
def Overflows (bias : Nat) (e : DynamicEntry) : Prop :=
  (e.tag = initTag ∨ e.tag = initArrayTag) ∧ Word.limit ≤ bias + e.value

instance (bias : Nat) (e : DynamicEntry) : Decidable (Overflows bias e) :=
  inferInstanceAs (Decidable (_ ∧ _))

/-- The constructors after some entries whose addresses are words. -/
def after (bias : Nat) (c : Constructors) (entries : List DynamicEntry) : Constructors where
  init := latest initTag (fun value => some (bias + value)) c.init entries
  array := latest initArrayTag (bias + ·) c.array entries
  len := latest initArraySizeTag (· / 8) c.len entries

theorem record_of_overflows (h : Overflows bias e) : c.record bias e = .error .addOverflow := by
  obtain ⟨kind, beyond⟩ := h
  have sum : Word.add bias e.value = .error .addOverflow := by
    rw [Word.add_eq_ite, if_pos beyond]
  rw [record, sum]
  cases kind with
  | inl init =>
      rw [if_pos init]
      rfl
  | inr array =>
      have other : ¬initArrayTag = initTag := by decide
      rw [array, if_neg other, if_pos rfl]
      rfl

theorem record_of_not_overflows (h : ¬Overflows bias e) :
    c.record bias e = .ok (c.after bias [e]) := by
  have sum (kind : e.tag = initTag ∨ e.tag = initArrayTag) :
      Word.add bias e.value = .ok (bias + e.value) := by
    rw [Word.add_eq_ite, if_neg fun beyond => h ⟨kind, beyond⟩]
  simp only [record, after, latest_cons, latest_nil]
  by_cases init : e.tag = initTag
  · rw [sum (.inl init), init]
    rfl
  by_cases array : e.tag = initArrayTag
  · rw [sum (.inr array), array]
    rfl
  by_cases size : e.tag = initArraySizeTag
  · rw [size]
    rfl
  · simp only [if_neg init, if_neg array, if_neg size]
    rfl

/-- What all entries do, one after another. -/
theorem foldlM_record (bias : Nat) (entries : List DynamicEntry) (c : Constructors) :
    entries.foldlM (record bias) c =
      if ∃ e ∈ entries, Overflows bias e then .error .addOverflow
      else .ok (c.after bias entries) := by
  induction entries generalizing c with
  | nil =>
      rw [if_neg (by simp)]
      rfl
  | cons e rest ih =>
      rw [List.foldlM_cons]
      by_cases first : Overflows bias e
      · rw [record_of_overflows first, if_pos ⟨e, List.mem_cons_self, first⟩]
        rfl
      · have same : (∃ d ∈ e :: rest, Overflows bias d) ↔ ∃ d ∈ rest, Overflows bias d := by
          simp only [List.mem_cons, exists_eq_or_imp, first, false_or]
        have later : (c.after bias [e]).after bias rest = c.after bias (e :: rest) := by
          simp only [after, latest_cons, latest_nil]
        simp only [record_of_not_overflows first, same, ← later]
        exact ih _

/-- The constructors that a section lists, if all of their addresses are words. -/
def listed (bias : Nat) (entries : List DynamicEntry) : Constructors :=
  let array := ((lastValue? initArrayTag entries).map (bias + ·)).getD 0
  { init := (lastValue? initTag entries).map (bias + ·)
    array
    len := if array = 0 then 0 else ((lastValue? initArraySizeTag entries).map (· / 8)).getD 0 }

theorem ofDynamic_of_overflows (h : ∃ e ∈ body entries, Overflows bias e) :
    ofDynamic bias entries = .error .addOverflow := by
  have gathered : (body entries).foldlM (record bias) empty = .error .addOverflow := by
    rw [foldlM_record, if_pos h]
  rw [ofDynamic]
  exact congrArg (· >>= _) gathered

theorem ofDynamic_of_words (h : ¬∃ e ∈ body entries, Overflows bias e) :
    ofDynamic bias entries = .ok (listed bias entries) := by
  have init : latest initTag (fun value => some (bias + value)) none (body entries) =
      (lastValue? initTag entries).map (bias + ·) := by
    rw [latest_body]
    cases lastValue? initTag entries <;> rfl
  have gathered : (body entries).foldlM (record bias) empty =
      .ok ⟨(lastValue? initTag entries).map (bias + ·),
        ((lastValue? initArrayTag entries).map (bias + ·)).getD 0,
        ((lastValue? initArraySizeTag entries).map (· / 8)).getD 0⟩ := by
    rw [foldlM_record, if_neg h, after, empty, init, latest_body, latest_body]
  rw [ofDynamic]
  refine (congrArg (· >>= _) gathered).trans ?_
  by_cases missing : ((lastValue? initArrayTag entries).map (bias + ·)).getD 0 = 0
  · simp only [listed, if_pos missing]
    exact congrArg Except.ok (if_pos missing)
  · simp only [listed, if_neg missing]
    exact congrArg Except.ok (if_neg missing)

/-- The last of two initial functions counts, and part of a word does not. -/
example : ofDynamic 4096 [⟨initTag, 16⟩, ⟨initArraySizeTag, 31⟩, ⟨initArrayTag, 64⟩, ⟨30, 8⟩,
    ⟨initTag, 32⟩, ⟨nullTag, 0⟩, ⟨initArraySizeTag, 800⟩] = .ok ⟨some 4128, 4160, 3⟩ := rfl

theorem overflows_iff_tagged : (∃ e ∈ body entries, Overflows bias e) ↔
    ∃ tag ∈ [initTag, initArrayTag], ∃ e ∈ tagged tag entries, Word.limit ≤ bias + e.value := by
  simp only [tagged, List.mem_filter, decide_eq_true_eq]
  constructor
  · rintro ⟨e, mem, kind, beyond⟩
    exact ⟨e.tag, by simpa using kind, e, ⟨mem, rfl⟩, beyond⟩
  · rintro ⟨tag, kind, e, ⟨mem, rfl⟩, beyond⟩
    exact ⟨e, mem, by simpa using kind, beyond⟩

/-- Nothing but the entries of the three kinds counts, and their order within each kind. -/
theorem ofDynamic_congr (same : ∀ tag ∈ [initTag, initArrayTag, initArraySizeTag],
    tagged tag others = tagged tag entries) (bias : Nat) :
    ofDynamic bias others = ofDynamic bias entries := by
  have last : ∀ tag ∈ [initTag, initArrayTag, initArraySizeTag],
      lastValue? tag others = lastValue? tag entries := by
    intro tag kind
    rw [lastValue?, same tag kind, lastValue?]
  have agree : (∃ e ∈ body others, Overflows bias e) ↔ ∃ e ∈ body entries, Overflows bias e := by
    rw [overflows_iff_tagged, overflows_iff_tagged]
    simp only [List.mem_cons, List.not_mem_nil, or_false, exists_eq_or_imp, exists_eq_left,
      same initTag (by simp), same initArrayTag (by simp)]
  by_cases overflows : ∃ e ∈ body entries, Overflows bias e
  · rw [ofDynamic_of_overflows overflows, ofDynamic_of_overflows (agree.mpr overflows)]
  · rw [ofDynamic_of_words overflows, ofDynamic_of_words (overflows ∘ agree.mp), listed,
      last initTag (by simp), last initArrayTag (by simp), last initArraySizeTag (by simp), listed]

theorem ofDynamic_append (bias value : Nat) (entries more : List DynamicEntry) :
    ofDynamic bias (entries ++ ⟨nullTag, value⟩ :: more) = ofDynamic bias entries := by
  apply ofDynamic_congr
  intro tag _
  rw [tagged, body_append, tagged]

end Constructors

end Confine
