import Confine.Proofs.Sandbox.MainExit
import Confine.Proofs.Sandbox.Speaking

/-! # The log of a process

With standard error open, a process whose logger was not initialised yet writes the transcript of all
that is said in it.  A program may say things before it is started, and the initialisation at the start
is one more utterance, to which the verbosity that was chosen before is no matter.
-/

namespace Confine

open Log Utterance

/-- What the step says, if saying something is all that it does. -/
def Step.utterance? : Step → Option Utterance
  | .initLogger v => some (.init v)
  | .log level text => some (.record level text)
  | _ => none

namespace Sandbox

variable {m : Machine} {p q : Sandbox}

/-- Say something to the logger of the process, or past it. -/
def say : Utterance → Run Unit
  | .init v => initLogger v
  | .record level text => log level text
  | .aside line => writeErrors [line]

def sayAll (said : List Utterance) : Run Unit :=
  said.forM say

def relogged (p : Sandbox) (j : Journal) : Sandbox :=
  { p with logger := j.logger, errors := j.lines }

theorem writing_eq_relogged (p : Sandbox) (lines : List String) :
    p.writing lines = p.relogged (p.journal.adding lines) := by
  unfold writing relogged journal Journal.adding
  split <;> rfl

theorem say_eq (u : Utterance) (p : Sandbox) :
    say u p = (.ok (), p.relogged (p.journal.hear u)) := by
  cases u with
  | init v =>
      rw [say, initLogger_eq, writing_eq_relogged]
      rfl
  | record level text =>
      rw [say, log_eq, writing_eq_relogged]
      rfl
  | aside line =>
      rw [say, writeErrors_eq, writing_eq_relogged]
      rfl

theorem journal_relogged {j : Journal} (same : j.isOpen = p.errorsOpen) :
    (p.relogged j).journal = j := by
  cases j
  cases same
  rfl

theorem logger_of_journal {j : Journal} (left : p.journal = j) : p.logger = j.logger :=
  left ▸ rfl

theorem sayAll_eq (said : List Utterance) (p : Sandbox) :
    sayAll said p = (.ok (), p.relogged (said.foldl Journal.hear p.journal)) := by
  induction said generalizing p with
  | nil => rfl
  | cons u later ih =>
      have rest := ih (p.relogged (p.journal.hear u))
      rw [journal_relogged (Journal.isOpen_hear p.journal u)] at rest
      exact (bind_ok (say_eq u p)).trans rest

theorem takeStep_heard {step : Step} {u : Utterance} (uttered : step.utterance? = some u)
    (w : Wrappers) (p : Sandbox) :
    ∃ q, takeStep m w step p = (.ok (), q) ∧ q.journal = p.journal.hear u := by
  cases step with
  | initLogger v =>
      cases uttered
      let q : Sandbox := { p.counted.writing (p.logger.init v).1 with
        logger := (p.logger.init v).2 }
      exact ⟨{ q with trace := .step .done :: q.trace }, rfl, journal_init p.counted v⟩
  | log level text =>
      cases uttered
      let q := p.counted.writing (p.logger.record level text)
      exact ⟨{ q with trace := .step (.enabled (q.logger.enabled level)) :: q.trace }, rfl,
        journal_writing p.counted _⟩
  | _ => cases uttered

theorem takeSteps_heard {steps : List Step} (say : ∀ step ∈ steps, step.utterance?.isSome)
    (w : Wrappers) (p : Sandbox) : ∃ q, takeSteps m w steps p = (.ok (), q) ∧
      q.journal = (steps.filterMap Step.utterance?).foldl Journal.hear p.journal := by
  induction steps generalizing p with
  | nil => exact ⟨p, rfl, rfl⟩
  | cons step rest ih =>
      obtain ⟨first, others⟩ := List.forall_mem_cons.mp say
      obtain ⟨u, uttered⟩ := Option.isSome_iff_exists.mp first
      obtain ⟨q, taken, heard⟩ := takeStep_heard (m := m) uttered w p
      obtain ⟨r, onwards, heard'⟩ := ih others q
      refine ⟨r, (bind_ok taken).trans onwards, ?_⟩
      rw [heard', heard, List.filterMap_cons_some uttered, List.foldl_cons]

theorem heard_after {α : Type} {x : Run α} (speaks : Speaks x) (said : List Utterance) (p : Sandbox) :
    ∃ rest, Proper rest ∧
      ((do sayAll said; x) p).2.journal = (said ++ rest).foldl Journal.hear p.journal := by
  have isOpen : (said.foldl Journal.hear p.journal).isOpen = p.errorsOpen :=
    Journal.isOpen_foldl_hear said p.journal
  obtain ⟨rest, proper, heard⟩ := speaks.told (p.relogged (said.foldl Journal.hear p.journal))
  refine ⟨rest, proper, ?_⟩
  rw [bind_ok (sayAll_eq said p), heard, journal_relogged isOpen, List.foldl_append]

/-- What is said in the process goes to its log as the first initialisation has it. -/
structure KeepsJournal (m : Machine) (p : Sandbox) : Prop where
  /-- The log is all that changes, and it is decided by what was said. -/
  said : ∀ said, sayAll said p =
    (.ok (), { p with logger := ⟨first? said⟩, errors := p.errors ++ transcript said })
  /-- The first verbosity stays in force. -/
  forever : ∀ early v later, (∀ u ∈ early, u.init? = none) →
    (sayAll (early ++ .init v :: later) p).2.logger.verbosity = v
  /-- Records before it leave no trace, and later ones do as it has them. -/
  lines : ∀ early v later, (∀ u ∈ early, ∃ level text, u = .record level text) →
    (sayAll (early ++ .init v :: later) p).2.errors = p.errors ++ later.flatMap v.shows
  /-- There are only traces of records that come after an initialisation for more than silence. -/
  silent : ∀ said, (∀ line, .aside line ∉ said) → (∀ v, first? said = some v → v = .off) →
    (sayAll said p).2.errors = p.errors
  /-- A record changes nothing but what stands on standard error. -/
  recorded : ∀ said level text, ∃ errors,
    sayAll (said ++ [.record level text]) p = (.ok (), { (sayAll said p).2 with errors })
  /-- So it is where the steps of program code say these things. -/
  steps : ∀ w steps, (∀ step ∈ steps, step.utterance?.isSome) →
    ∃ q, takeSteps m w steps p = (.ok (), q) ∧
      q.journal = (sayAll (steps.filterMap Step.utterance?) p).2.journal
  /-- The initialisation at the start of a program is like any other. -/
  started : ∀ said program routine request, ∃ rest, Proper rest ∧
    ((do sayAll said; startMain m program routine request) p).2.journal =
      ⟨⟨some ((first? said).getD m.environment.requestedVerbosity)⟩, true,
        p.errors ++ transcript (said ++ .init m.environment.requestedVerbosity :: rest)⟩
  /-- The log of a whole run is the transcript of what was said in its course. -/
  whole : ∀ s : Startup, ∃ said, Proper said ∧
    (runStartup m s p).2.journal = ⟨⟨first? said⟩, true, p.errors ++ transcript said⟩

theorem keepsJournal_of_fresh (m : Machine) (p : Sandbox) (fresh : p.logger = .fresh)
    (working : p.errorsOpen = true) : KeepsJournal m p := by
  have journal_eq : p.journal = ⟨.fresh, true, p.errors⟩ := by rw [journal, fresh, working]
  have said (said : List Utterance) : sayAll said p =
      (.ok (), { p with logger := ⟨first? said⟩, errors := p.errors ++ transcript said }) := by
    rw [sayAll_eq, journal_eq, Journal.foldl_hear_of_fresh]
    rfl
  have after {α : Type} {x : Run α} (speaks : Speaks x) (said : List Utterance) :
      ∃ rest, Proper rest ∧ ((do sayAll said; x) p).2.journal =
        ⟨⟨first? (said ++ rest)⟩, true, p.errors ++ transcript (said ++ rest)⟩ := by
    obtain ⟨rest, proper, heard⟩ := heard_after speaks said p
    exact ⟨rest, proper, by rw [heard, journal_eq, Journal.foldl_hear_of_fresh]⟩
  refine
    { said
      forever := ?forever
      lines := ?lines
      silent := ?silent
      recorded := ?recorded
      steps := ?steps
      started := ?started
      whole := fun s => after (.runStartup s) [] }
  case forever =>
    intro early v later uninitialised
    have none : first? early = none := List.findSome?_eq_none_iff.mpr uninitialised
    rw [said, first?_append_init, none]
    rfl
  case lines =>
    intro early v later records
    rw [said, transcript_of_records records]
    rfl
  case silent =>
    intro script spoken silent
    rw [said, transcript_of_silent spoken silent, List.append_nil]
  case recorded =>
    intro script level text
    refine ⟨p.errors ++ transcript (script ++ [.record level text]), ?_⟩
    rw [said, said, first?_append_record]
  case steps =>
    intro w steps say
    obtain ⟨q, taken, heard⟩ := takeSteps_heard say w p
    refine ⟨q, taken, ?_⟩
    rw [heard, sayAll_eq, journal_relogged (Journal.isOpen_foldl_hear _ p.journal)]
  case started =>
    intro script program routine request
    obtain ⟨rest, speaks, same⟩ := Speaks.startMain_after (m := m) program routine request
    obtain ⟨more, proper, heard⟩ :=
      after speaks (script ++ [.init m.environment.requestedVerbosity])
    have opens : (do sayAll script; startMain m program routine request) =
        (do sayAll (script ++ [.init m.environment.requestedVerbosity]); rest) := by
      simp [same, sayAll, say, bind_assoc]
    refine ⟨more, proper, ?_⟩
    rw [opens, heard, List.append_assoc, List.singleton_append, first?_append_init]

/-- A second initialisation warns and lets the first verbosity be, and so does a start that asks for
more. -/
theorem keepsJournal_of_second_init :
    (Forger.outset.logger = .fresh ∧ Forger.outset.errorsOpen = true) ∧
      (sayAll [.record .error "lost", .init (.upTo .warn), .record .info "hidden",
        .record .warn "shown", .init (.upTo .trace), .record .debug "hidden"] Forger.outset).2.errors =
        ["[strictbox] [WARN] shown",
          "[strictbox] [WARN] Logger is already initialized, skipping init"] ∧
      ((do sayAll [.init (.upTo .warn)]
           startMain talkative forger.program forger.routine forger.request)
        Forger.outset).2.logger = ⟨some (.upTo .warn)⟩ := by
  have keeps := keepsJournal_of_fresh talkative Forger.outset rfl rfl
  refine ⟨⟨rfl, rfl⟩, ?_, ?_⟩
  · rw [keeps.said]
    decide +kernel
  · obtain ⟨rest, -, started⟩ :=
      keeps.started [.init (.upTo .warn)] forger.program forger.routine forger.request
    exact logger_of_journal started

end Sandbox

end Confine
