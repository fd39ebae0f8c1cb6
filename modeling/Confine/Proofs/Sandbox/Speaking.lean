import Confine.Proofs.Journal
import Confine.Proofs.Sandbox.Writing

/-! # What a process says

Whatever a process does, its log changes by utterances alone: records and initialisations for the
logger, and a few kinds of lines past it.  So the log of a whole run is the transcript of what was said
in the course of it.
-/

namespace Confine.Sandbox

open Log

/-- The lines that are written past the logger. -/
inductive Aside : String → Prop
  | sentinel : Aside sentinel
  | panicked {cause : Panic} {line : String} (listed : line ∈ panicReport cause) : Aside line
  | invalidFree (pointer : Nat) : Aside s!"Invalid free at {Text.hex pointer}"
  | invalidRealloc (pointer : Nat) : Aside s!"Invalid realloc at {Text.hex pointer}"

/-- All that is said past the logger is of these kinds. -/
def Proper (said : List Utterance) : Prop :=
  ∀ line, .aside line ∈ said → Aside line

def journal (p : Sandbox) : Journal :=
  ⟨p.logger, p.errorsOpen, p.errors⟩

theorem journal_writing (p : Sandbox) (lines : List String) :
    (p.writing lines).journal = p.journal.adding lines := by
  unfold writing journal Journal.adding
  split <;> rfl

theorem journal_init (p : Sandbox) (v : Verbosity) :
    journal { p.writing (p.logger.init v).1 with logger := (p.logger.init v).2 } =
      p.journal.hear (.init v) := by
  rw [Journal.hear, ← journal_writing]
  rfl

/-- From the one process to the other the log has changed by what was said. -/
def Told (p q : Sandbox) : Prop :=
  ∃ said, Proper said ∧ q.journal = said.foldl Journal.hear p.journal

/-- A computation changes the log by what it says. -/
def Speaks {α : Type} (x : Run α) : Prop :=
  ∀ p, Contract (Told p) x (fun _ => Told p) fun _ => Told p

variable {m : Machine} {p q r : Sandbox} {α β : Type} {x : Run α} {f : α → Run β}

namespace Told

theorem refl (p : Sandbox) : Told p p :=
  ⟨[], nofun, rfl⟩

theorem trans (h : Told p q) (h' : Told q r) : Told p r := by
  obtain ⟨said, proper, heard⟩ := h
  obtain ⟨later, proper', heard'⟩ := h'
  refine ⟨said ++ later, ?_, by rw [heard', heard, List.foldl_append]⟩
  exact fun line listed => (List.mem_append.mp listed).elim (proper line) (proper' line)

end Told

namespace Speaks

theorem told (h : Speaks x) (p : Sandbox) : Told p (x p).2 := by
  have outcome := h p p (.refl p)
  split at outcome <;> simp_all

theorem pure {a : α} : Speaks (Pure.pure a) :=
  fun _ => .pure fun _ h => h

theorem throw {e : Ending} : Speaks (MonadExcept.throw e : Run α) :=
  fun _ => .throw fun _ h => h

theorem bind (hx : Speaks x) (hf : ∀ a, Speaks (f a)) : Speaks (x >>= f) :=
  fun p => .bind (hx p) fun a => hf a p

theorem read {f : Sandbox → Run β} (h : ∀ p, Speaks (f p)) : Speaks (get >>= f) :=
  fun p => .read fun q => h q p

theorem map {g : α → β} (h : Speaks x) : Speaks (g <$> x) :=
  fun p => .map (h p)

theorem discard (h : Speaks x) : Speaks (discard x) :=
  fun p => .discard (h p)

theorem forM {ι : Type} {l : List ι} {f : ι → Run PUnit} (h : ∀ i, Speaks (f i)) :
    Speaks (l.forM f) :=
  fun p => .forM fun i _ => h i p

theorem modify {g : Sandbox → Sandbox} (quiet : ∀ p, (g p).journal = p.journal) :
    Speaks (modify g) :=
  fun _ => .modify fun q told => told.trans ⟨[], nofun, quiet q⟩

theorem emit (e : Event) : Speaks (emit e) :=
  .modify fun _ => rfl

theorem modifyContext (change : Context → Context) : Speaks (modifyContext change) :=
  .modify fun _ => rfl

theorem writeErrors {lines : List String} (aside : ∀ line ∈ lines, Aside line) :
    Speaks (writeErrors lines) := by
  intro p q told
  refine told.trans ⟨lines.map .aside, ?_, ?_⟩
  · intro line listed
    obtain ⟨_, mem, same⟩ := List.mem_map.mp listed
    cases same
    exact aside line mem
  · rw [Journal.foldl_hear_asides]
    exact journal_writing q lines

theorem log (level : Level) (text : String) : Speaks (log level text) :=
  fun p q told => told.trans ⟨[.record level text], by simp [Proper], journal_writing q _⟩

theorem initLogger (verbosity : Verbosity) : Speaks (initLogger verbosity) :=
  fun p q told => told.trans ⟨[.init verbosity], by simp [Proper], journal_init q verbosity⟩

/-! ## The streams and the ways to end -/

theorem systemCall : Speaks systemCall := by
  refine .read fun p => ?_
  split
  · exact .throw
  · exact .pure

theorem print (text : String) : Speaks (print text) := by
  refine .read fun p => ?_
  extract_lets put
  have added : Speaks (put ()) := .bind (.modify fun _ => rfl) fun _ => .emit _
  split
  · exact .bind .systemCall fun _ => added
  · exact added

theorem flush : Speaks flush :=
  .modify fun _ => rfl

theorem restrictedExit (status : Int) : Speaks (restrictedExit status : Run α) :=
  .bind .flush fun _ => .throw

theorem fatal (failure : SetupFailure) : Speaks (fatal failure : Run α) :=
  .bind (.emit _) fun _ => .bind (.log _ _) fun _ => .bind .systemCall fun _ => .throw

theorem panic (cause : Panic) : Speaks (panic m cause : Run α) := by
  unfold Sandbox.panic
  split
  · exact .bind (.emit _) fun _ => .throw
  · exact .bind (.writeErrors fun _ listed => .panicked listed) fun _ => .restrictedExit _

theorem readInput : Speaks readInput := by
  refine .read fun p => ?_
  extract_lets input rest
  have taken : Speaks (rest ()) := by
    refine .bind (.modify fun _ => rfl) fun _ => ?_
    split
    · exact .pure
    · exact .throw
  split
  · exact .bind .systemCall fun _ => taken
  · exact taken

/-! ## The heap -/

theorem provision : Speaks (provision m) := by
  have reserve : Speaks (reserveHeap m) := by
    refine .bind (.emit _) fun _ => ?_
    split
    · exact .fatal _
    · exact .bind (.log _ _) fun _ => .bind (.modifyContext _) fun _ => .pure
  refine .read fun p => ?_
  split
  · exact .pure
  · split
    · exact .bind (.log _ _) fun _ => reserve
    · exact reserve

theorem onAllocator (action : Allocator.Action α) : Speaks (onAllocator m action) := by
  refine .bind .provision fun before => .bind (.modifyContext _) fun _ =>
    .bind (.forM fun _ => .log _ _) fun _ => ?_
  split
  · exact .pure
  · exact .pure
  · exact .panic _
  · exact .throw

theorem logHeapUsage : Speaks (logHeapUsage m) := by
  refine .read fun p => ?_
  split
  · exact .pure
  · split
    · exact .pure
    · split
      · exact .panic _
      · exact .throw
      · exact .log _ _

/-! ## Steps -/

theorem ofAllocation (result : Except AllocError Nat) : Speaks (CCall.ofAllocation result) := by
  cases result with
  | ok address => exact .pure
  | error cause => exact .bind (.log _ _) fun _ => .pure

theorem call (c : CCall Nat) : Speaks (c.run m) := by
  have aligned (alignment size : Nat) : Speaks (CCall.runAlignedAlloc m alignment size) := by
    refine .bind (.onAllocator _) fun _ => ?_
    split
    · exact .pure
    · exact .ofAllocation _
  cases c with
  | malloc | calloc => exact .bind (.onAllocator _) .ofAllocation
  | alignedAlloc | memalign => exact aligned _ _
  | realloc pointer size =>
      refine .bind (.onAllocator _) fun _ => ?_
      split
      · exact .pure
      · refine .bind (.writeErrors fun line listed => ?_) fun _ => .pure
        exact List.mem_singleton.mp listed ▸ .invalidRealloc pointer
      · exact .ofAllocation _
  | posixMemalign alignment size =>
      simp only [CCall.run, CCall.runPosixMemalign]
      split
      · exact .pure
      · refine .bind (.onAllocator _) fun _ => ?_
        split <;> exact .pure
  | sbrk increment =>
      refine .bind (.onAllocator _) fun _ => ?_
      split <;> exact .pure
  | free pointer =>
      refine .bind (.onAllocator _) fun _ => ?_
      split
      · exact .pure
      · refine .bind (.writeErrors fun line listed => ?_) fun _ => .pure
        exact List.mem_singleton.mp listed ▸ .invalidFree pointer
  | mallocUsableSize pointer =>
      simp only [CCall.run, CCall.runUsableSize]
      split
      · exact .pure
      · refine .bind (.onAllocator _) fun _ => ?_
        split <;> exact .pure

theorem answer (request : Request Operand) : Speaks (answer m request) := by
  refine .read fun p => ?_
  dsimp only
  split
  · refine .bind (.onAllocator _) fun _ => ?_
    split <;> exact .bind .provision fun _ => .pure
  · exact .bind .provision fun _ => .bind (.modifyContext _) fun _ => .pure

theorem access (a : Access Operand) : Speaks (access m a) := by
  refine .read fun p => ?_
  dsimp only
  split
  · exact .pure
  · exact .bind (.modifyContext _) fun _ => .pure

theorem callWrapper {wrapper : Arguments → Run Unit} (h : ∀ arguments, Speaks (wrapper arguments)) :
    Speaks (callWrapper wrapper) := by
  refine .read fun p => ?_
  split
  · exact h _
  · exact .pure

theorem takeSteps {w : Wrappers} (calls : ∀ c arguments, Speaks (w.entered c arguments))
    (steps : List Step) : Speaks (takeSteps m w steps) := by
  have performed (step : Step) : Speaks (perform m w step) := by
    cases step with
    | request request => exact .answer request
    | access a => exact .access a
    | call c => exact .read fun _ => .bind (.call _) fun _ => .pure
    | context => exact .read fun _ => .pure
    | callInit => exact .bind (.callWrapper (calls .init)) fun _ => .pure
    | callMain => exact .bind (.callWrapper (calls .main)) fun _ => .pure
    | provision => exact .bind (.discard .provision) fun _ => .pure
    | heapUsage => exact .bind .logHeapUsage fun _ => .pure
    | initLogger verbosity => exact .bind (.initLogger _) fun _ => .pure
    | log level text => exact .bind (.log _ _) fun _ => .read fun _ => .pure
    | reenter => exact .panic _
    | print text => exact .bind (.print _) fun _ => .pure
    | readInput => exact .bind .readInput fun _ => .pure
    | inputFlags => exact .bind .systemCall fun _ => .read fun _ => .pure
    | forbidden => exact .bind .systemCall fun _ => .pure
    | exit status => exact .bind .logHeapUsage fun _ => .restrictedExit _
  refine .forM fun step => .read fun p => .bind (.modify fun _ => rfl) fun _ =>
    .bind (performed step) fun result => ?_
  dsimp only
  split
  · exact .bind (.modify fun _ => rfl) fun _ => .emit _
  · exact .emit _

/-! ## Starting a program -/

theorem enterRestrictedMode : Speaks (enterRestrictedMode m) := by
  have prepared {request : Event} {preparation : Run Unit} (prepares : Speaks preparation) :
      Speaks (prepare m request preparation) := by
    refine .bind (.emit _) fun _ => ?_
    split
    · exact prepares
    · exact .pure
  have sentinels : Speaks emitSentinels := by
    refine .bind (.print _) fun _ => .bind .flush fun _ => .writeErrors fun line listed => ?_
    exact List.mem_singleton.mp listed ▸ .sentinel
  have primed : Speaks primeInput := by
    refine .read fun p => .bind (.modify fun _ => rfl) fun _ => ?_
    split
    · exact .log _ _
    · exact .pure
  have requested : Speaks (requestRestriction m) := by
    refine .bind (.emit _) fun _ => ?_
    split
    · exact .pure
    · exact .modify fun _ => rfl
    · exact .fatal _
  exact .bind (prepared sentinels) fun _ => .bind (prepared primed) fun _ =>
    .bind requested fun _ => .log _ _

theorem wrapInit {runInit : InitCode → Arguments → Run Unit}
    (h : ∀ code arguments, Speaks (runInit code arguments)) (arguments : Arguments) :
    Speaks (wrapInit m runInit arguments) := by
  have located (initSaved : Bool) : Speaks (InitCode.locate m initSaved) := by
    unfold InitCode.locate
    split
    · exact .pure
    · refine .map (.bind (.emit _) fun _ => ?_)
      split
      · exact .pure
      · exact .panic _
  refine .read fun p => .bind (.modifyContext _) fun _ => ?_
  split
  · exact .log _ _
  · exact .bind (located _) fun _ => .bind .enterRestrictedMode fun _ =>
      .bind (.modifyContext _) fun _ => h _ _

theorem wrapMain {programMain : Arguments → Run Int} (h : ∀ arguments, Speaks (programMain arguments))
    (arguments : Arguments) : Speaks (wrapMain m programMain arguments) := by
  have exit (status : Int) : Speaks (Sandbox.exit status : Run Unit) :=
    .bind (.emit _) fun _ => .restrictedExit _
  refine .read fun p => .bind (.modifyContext _) fun _ => ?_
  split
  · exact .bind (h _) fun _ => .bind .logHeapUsage fun _ => exit _
  · exact .bind (.log _ _) fun _ => exit _

theorem wrappers (program : Program) (depth : Nat) : ∀ c arguments,
    Speaks ((wrappers m program depth).entered c arguments) := by
  -- What a wrapper runs calls the wrappers of one depth less.
  induction depth with
  | zero =>
      intro c arguments
      cases c with
      | init => exact .wrapInit (fun _ _ => .pure) arguments
      | main => exact .wrapMain (fun _ => .pure) arguments
  | succ depth ih =>
      intro c arguments
      cases c with
      | init =>
          refine .wrapInit (fun code arguments => ?_) arguments
          cases code with
          | program => exact .bind (.emit _) fun _ => .takeSteps ih _
          | constructors c =>
              exact .forM fun _ => .bind (.log _ _) fun _ => .bind (.emit _) fun _ =>
                .takeSteps ih _
      | main =>
          exact .wrapMain (fun _ => .bind (.emit _) fun _ => .bind (.takeSteps ih _) fun _ => .pure)
            arguments

/-- What happens at the start of a program once the logger is initialised. -/
theorem startMain_after (program : Program) (routine : StartRoutine) (request : StartRequest) :
    ∃ rest : Run Int, Speaks rest ∧ startMain m program routine request =
      (Sandbox.initLogger m.environment.requestedVerbosity >>= fun _ => rest) := by
  have resolved : Speaks (resolveStart m) := by
    refine .bind (.emit _) fun _ => ?_
    split
    · exact .fatal _
    · exact .fatal _
    · split
      · exact .log _ _
      · exact .pure
  have run : Speaks (runStartRoutine m program routine request) :=
    .bind (.emit _) fun _ => .bind (.modify fun _ => rfl) fun _ =>
      .bind (.forM fun c => .wrappers program 2 c _) fun _ => .pure
  exact ⟨_, .bind (.modifyContext _) fun _ => .bind (.discard .provision) fun _ =>
    .bind resolved fun _ => .bind (.log _ _) fun _ => run, rfl⟩

theorem startMain (program : Program) (routine : StartRoutine) (request : StartRequest) :
    Speaks (startMain m program routine request) := by
  obtain ⟨rest, speaks, same⟩ := startMain_after (m := m) program routine request
  rw [same]
  exact .bind (.initLogger _) fun _ => speaks

theorem runStartup (s : Startup) : Speaks (runStartup m s) := by
  have steps (steps : List Step) : Speaks (Sandbox.takeSteps m (outerWrappers m s.program) steps) :=
    .takeSteps (.wrappers s.program 2) steps
  have finished : Speaks finish :=
    .bind (.emit _) fun _ => .bind .flush fun _ => .bind .systemCall fun _ => .throw
  exact .bind (steps _) fun _ => .bind (.startMain _ _ _) fun _ => .bind (.emit _) fun _ =>
    .bind (steps _) fun _ => finished

end Speaks

end Confine.Sandbox
