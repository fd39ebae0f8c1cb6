import Confine.Log.Logger

/-! # What is said and what is written

Records and initialisations reach the logger one after another, and some lines go to standard error
past it.  What is written of all that is decided by the first initialisation: nothing that was
recorded before it, what its verbosity admits of everything later, and a warning for every other
initialisation.
-/

namespace Confine.Log

/-- Something said to the logger, or past it. -/
inductive Utterance where
  | init (verbosity : Verbosity)
  | record (level : Level) (text : String)
  /-- A line is written past the logger. -/
  | aside (line : String)
  deriving Repr, DecidableEq

namespace Utterance

def init? : Utterance → Option Verbosity
  | init verbosity => some verbosity
  | _ => none

def first? (said : List Utterance) : Option Verbosity :=
  said.findSome? init?

theorem first?_append_record (said : List Utterance) (level : Level) (text : String) :
    first? (said ++ [.record level text]) = first? said := by
  simp [first?, init?]

theorem first?_append_init (early : List Utterance) (v : Verbosity) (later : List Utterance) :
    first? (early ++ .init v :: later) = some ((first? early).getD v) := by
  rw [first?, List.findSome?_append]
  change (first? early).or (some v) = _
  cases first? early <;> rfl

end Utterance

/-- What is written of an utterance once the logger has a verbosity. -/
def Verbosity.shows (v : Verbosity) : Utterance → List String
  | .init _ =>
    if v.admits .warn then ["[strictbox] [WARN] Logger is already initialized, skipping init"] else []
  | .record level text =>
    if v.admits level then [s!"[strictbox] [{level.name}] {text}"] else []
  | .aside line => [line]

/-- What is written of all that is said to a logger that was not initialised before. -/
def transcript : List Utterance → List String
  | [] => []
  | .init v :: later => later.flatMap v.shows
  | .record _ _ :: later => transcript later
  | .aside line :: later => line :: transcript later

theorem transcript_of_records {early : List Utterance}
    (records : ∀ u ∈ early, ∃ level text, u = .record level text) (later : List Utterance) :
    transcript (early ++ later) = transcript later := by
  induction early with
  | nil => rfl
  | cons u rest ih =>
      obtain ⟨⟨level, text, rfl⟩, others⟩ := List.forall_mem_cons.mp records
      exact ih others

theorem shows_off {u : Utterance} (spoken : ∀ line, u ≠ .aside line) :
    Verbosity.off.shows u = [] := by
  cases u with
  | init | record => rfl
  | aside line => exact absurd rfl (spoken line)

/-- Nothing is written without an initialisation, or if the first one is for silence. -/
theorem transcript_of_silent {said : List Utterance} (spoken : ∀ line, .aside line ∉ said)
    (silent : ∀ v, Utterance.first? said = some v → v = .off) : transcript said = [] := by
  induction said with
  | nil => rfl
  | cons u later ih =>
      have spoken' (line : String) : .aside line ∉ later :=
        fun mem => spoken line (List.mem_cons_of_mem _ mem)
      cases u with
      | init v =>
          obtain rfl := silent v rfl
          refine List.flatMap_eq_nil_iff.mpr fun u mem => shows_off ?_
          rintro line rfl
          exact spoken' line mem
      | record level text => exact ih spoken' silent
      | aside line => exact absurd List.mem_cons_self (spoken line)

/-- A logger, and what was written to standard error as long as that is open. -/
structure Journal where
  logger : Logger
  isOpen : Bool
  lines : List String

namespace Journal

variable {j : Journal} {lines : List String} {said : List Utterance}

def adding (j : Journal) (lines : List String) : Journal :=
  if j.isOpen then { j with lines := j.lines ++ lines } else j

def hear (j : Journal) : Utterance → Journal
  | .init v => { j.adding (j.logger.init v).1 with logger := (j.logger.init v).2 }
  | .record level text => j.adding (j.logger.record level text)
  | .aside line => j.adding [line]

@[simp] theorem isOpen_adding (j : Journal) (lines : List String) :
    (j.adding lines).isOpen = j.isOpen := by
  unfold adding
  split <;> rfl

@[simp] theorem isOpen_hear (j : Journal) (u : Utterance) : (j.hear u).isOpen = j.isOpen := by
  cases u <;> simp [hear]

theorem isOpen_foldl_hear (said : List Utterance) (j : Journal) :
    (said.foldl hear j).isOpen = j.isOpen := by
  induction said generalizing j with
  | nil => rfl
  | cons u later ih => rw [List.foldl_cons, ih, isOpen_hear]

theorem hear_of_chosen (v : Verbosity) (u : Utterance) :
    hear ⟨⟨some v⟩, true, lines⟩ u = ⟨⟨some v⟩, true, lines ++ v.shows u⟩ := by
  cases u <;> rfl

/-- The first verbosity stays for ever, and shows what it admits. -/
theorem foldl_hear_of_chosen (v : Verbosity) (said : List Utterance) :
    said.foldl hear ⟨⟨some v⟩, true, lines⟩ = ⟨⟨some v⟩, true, lines ++ said.flatMap v.shows⟩ := by
  induction said generalizing lines with
  | nil => simp
  | cons u later ih =>
      rw [List.foldl_cons, hear_of_chosen, ih, List.flatMap_cons, List.append_assoc]

theorem foldl_hear_of_fresh (said : List Utterance) :
    said.foldl hear ⟨.fresh, true, lines⟩ =
      ⟨⟨Utterance.first? said⟩, true, lines ++ transcript said⟩ := by
  induction said generalizing lines with
  | nil => simp [Utterance.first?, transcript, Logger.fresh]
  | cons u later ih =>
      rw [List.foldl_cons]
      cases u with
      | init v =>
          have heard : hear ⟨.fresh, true, lines⟩ (.init v) = ⟨⟨some v⟩, true, lines⟩ := by
            simp [hear, adding, Logger.init, Logger.fresh]
          rw [heard, foldl_hear_of_chosen]
          rfl
      | record level text =>
          have heard : hear ⟨.fresh, true, lines⟩ (.record level text) = ⟨.fresh, true, lines⟩ := by
            simp [hear, adding, Logger.record, Logger.enabled, Logger.verbosity, Logger.fresh,
              Verbosity.admits]
          rw [heard, ih]
          rfl
      | aside line =>
          have heard : hear ⟨.fresh, true, lines⟩ (.aside line) = ⟨.fresh, true, lines ++ [line]⟩ :=
            rfl
          rw [heard, ih, List.append_assoc]
          rfl

theorem foldl_hear_asides (lines : List String) (j : Journal) :
    (lines.map Utterance.aside).foldl hear j = j.adding lines := by
  induction lines generalizing j with
  | nil =>
      simp only [List.map_nil, List.foldl_nil, adding]
      split <;> simp
  | cons line rest ih =>
      rw [List.map_cons, List.foldl_cons, ih]
      simp only [hear, adding]
      split <;> simp_all

end Journal

end Confine.Log
