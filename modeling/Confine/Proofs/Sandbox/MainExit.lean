import Confine.Proofs.Sandbox.Endings
import Confine.Proofs.Sandbox.Honesty

/-! # How a process exits

A call of the main wrapper is the last thing that happens, wherever it is made.  The first one runs
the program's main function and exits with what that returns, any other one exits at once.  In
between the live blocks are counted if someone listens, and a heap with more of them than can be
counted ends the process instead.  An exit that flushes the output stream delivers all that was
printed.
-/

namespace Confine

/-- The event ends the process, and nothing is flushed. -/
def Event.isAbrupt : Event → Bool
  | .fatal _ | .panic _ => true
  | _ => false

namespace Sandbox

variable {m : Machine} {s : Startup} {p r start : Sandbox} {depth : Nat} {arguments : Arguments}
  {isOpen : Bool} {e : Ending}

theorem events_push (p : Sandbox) (event : Event) :
    events { p with trace := event :: p.trace } = p.events ++ [event] :=
  List.reverse_cons

theorem entered_iff (p : Sandbox) : p.gist.entered = true ↔ ∃ a, .programMain a ∈ p.events := by
  rw [gist, List.any_eq_true]
  constructor
  · rintro ⟨event, he, main⟩
    cases event <;> cases main
    exact ⟨_, List.mem_reverse.mpr he⟩
  · rintro ⟨a, he⟩
    exact ⟨.programMain a, List.mem_reverse.mp he, rfl⟩

theorem exit_contract {α : Type} {post : α → Sandbox → Prop} (status : Int) :
    Contract (Still p) (exit status) post fun e q =>
      e = .exited (observed status) ∧ q.events = p.events ++ [.exit status] := by
  intro q still
  exact ⟨rfl, (events_push q (.exit status)).trans (by rw [still.events])⟩

theorem wrapMain_exits {programMain : Arguments → Run Int} {status : Int} (sited : m.Sited)
    (saved : p.context.mainSaved = true)
    (returned : programMain arguments p.takeMain = (.ok status, r))
    (accounts : m.Accounts r.context.allocator) (canLog : r.CanLog) :
    ∃ q, wrapMain m programMain arguments p = (.error (.exited (observed status)), q) ∧
      q.events = r.events ++ [.exit status] := by
  have rest : Contract (· = r) (do logHeapUsage m; exit status : Run Unit) (fun _ _ => False)
      fun e q => e = .exited (observed status) ∧ q.events = r.events ++ [.exit status] :=
    .bind ((logHeapUsage_returns sited accounts canLog).consequence (fun _ eq => eq) (fun _ _ hq => hq)
      fun _ _ never => never.elim) fun _ => exit_contract status
  obtain ⟨_, q, run, rfl, last⟩ := rest.ends rfl
  exact ⟨q, (wrapMain_saved m saved).trans ((bind_ok returned).trans run), last⟩

theorem wrapMain_panics {programMain : Arguments → Run Int} {status : Int} (sited : m.Sited)
    (saved : p.context.mainSaved = true)
    (returned : programMain arguments p.takeMain = (.ok status, r))
    (accounts : m.Accounts r.context.allocator) (cannot : ¬r.CanLog) :
    ∃ q, wrapMain m programMain arguments p =
      (.error (.exited ExitReason.unreachable.status), q) := by
  obtain ⟨q, panicked⟩ := panic_exits (m := m) (α := Unit) .addOverflow r
  have logged := (logHeapUsage_panics sited accounts cannot).trans panicked
  exact ⟨q, (wrapMain_saved m saved).trans ((bind_ok returned).trans (bind_error logged))⟩

theorem wrapMain_exits_unreachable {programMain : Arguments → Run Int}
    (taken : p.context.mainSaved = false) :
    ∃ q, wrapMain m programMain arguments p =
        (.error (.exited ExitReason.unreachable.status), q) ∧
      q.events = p.events ++ [.exit ExitReason.unreachable.status] := by
  have rest : Contract (· = p.takeMain)
      (do log .error "No main function to run"; exit ExitReason.unreachable.status : Run Unit)
      (fun _ _ => False) fun e q => e = .exited ExitReason.unreachable.status ∧
        q.events = p.events ++ [.exit ExitReason.unreachable.status] :=
    .bind (((log_idle _ _).returns fun _ _ => Still.trans).started_in (.refl p.takeMain)) fun _ =>
      exit_contract _
  obtain ⟨_, q, run, rfl, last⟩ := rest.ends rfl
  exact ⟨q, (wrapMain_taken m taken).trans run, last⟩

/-! ## Calls of the main wrapper -/

/-- What becomes of the process `r` in which the program's main function has returned `value`. -/
structure Leaves (m : Machine) (s : Startup) (start : Sandbox) (value : Int) (r : Sandbox) :
    Prop where
  /-- It exits with that value, as far as others see it. -/
  exits : r.CanLog → ∃ q,
    conclude (runStartup m s) start = (some (.exited (value % 256).toNat), q) ∧
      q.events = r.events ++ [.exit value]
  /-- While the heap usage is logged, the count of the live blocks overflows. -/
  overflows : ¬r.CanLog → ∃ q, conclude (runStartup m s) start = (some (.exited 122), q)
  /-- Only a region of `2 ^ 36` bytes or more has room for so many blocks. -/
  canLog : m.environment.requestedHeapSize < 2 ^ 36 → r.CanLog

/-- What becomes of a call of the main wrapper that a run makes in this process. -/
structure ExitsFrom (m : Machine) (s : Startup) (start : Sandbox) (depth : Nat)
    (arguments : Arguments) (p : Sandbox) : Prop where
  /-- The call does not return to where it was made.  The process ends in it. -/
  ends : ∃ e q, (wrappers m s.program depth).main arguments p = (.error e, q) ∧
    conclude (runStartup m s) start = (some e, q)
  /-- The first call enters the main function, and if that returns the process leaves with what it
  returned. -/
  first : (∀ a, .programMain a ∉ p.events) → ∃ inner, depth = inner + 1 ∧
    s.Comes m start (.steps inner s.program.mainSteps) (p.enterMain arguments) ∧
      ∀ value r, programMain m s.program (wrappers m s.program inner) arguments p.takeMain =
          (.ok value, r) →
        Leaves m s start value r
  /-- Once the main function was entered it is not entered again. -/
  again : (∃ a, .programMain a ∈ p.events) → ∃ q,
    conclude (runStartup m s) start = (some (.exited 122), q) ∧ q.events = p.events ++ [.exit 122]

/-- A call of the main wrapper in an honest run. -/
theorem exitsFrom_of_comes (sited : m.Sited) (honest : s.Honest m start)
    (unstarted : start.gist.Trusted m false 2)
    (here : s.Comes m start (.call depth .main arguments) p) :
    ExitsFrom m s start depth arguments p := by
  have trusted : p.gist.Trusted m true depth := here.trusted honest unstarted
  have ended {e : Ending} {q : Sandbox}
      (run : (wrappers m s.program depth).main arguments p = (.error e, q)) :
      conclude (runStartup m s) start = (some e, q) :=
    conclude_error (here.error run)
  constructor
  · have never : Contract (· = p) ((wrappers m s.program depth).main arguments)
        (fun _ _ => False) fun _ _ => True := by
      cases depth <;> simp only [wrappers] <;> exact wrapMain_ends
    obtain ⟨e, q, run, -⟩ := never.ends rfl
    exact ⟨e, q, run, ended run⟩
  · intro new
    have unentered : p.gist.entered = false :=
      Bool.eq_false_iff.mpr fun entered => ((entered_iff p).mp entered).elim new
    have saved : p.context.mainSaved = true := by
      have taken := trusted.entered
      rw [unentered] at taken
      simpa [gist] using taken
    cases depth with
    | zero =>
        -- Where nothing can be entered any more, the main function was taken before.
        have left := trusted.left
        simp [gist, saved] at left
    | succ inner =>
        have entering := here.next (.main saved)
        refine ⟨inner, rfl, entering, fun value r returned => ?_⟩
        have trusted := (main_returns honest entering (enterMain_trusted trusted saved)).returned
          rfl returned
        constructor
        · intro canLog
          obtain ⟨q, run, last⟩ := wrapMain_exits sited saved returned trusted.accounts canLog
          exact ⟨q, ended run, last⟩
        · intro cannot
          obtain ⟨q, run⟩ := wrapMain_panics sited saved returned trusted.accounts cannot
          exact ⟨q, ended run⟩
        · exact fun small _ => countable_of_small sited trusted.accounts small
  · intro entered
    have taken : p.context.mainSaved = false := by
      have taken := trusted.entered
      rw [(entered_iff p).mpr entered] at taken
      simpa [gist] using taken.symm
    have exits : ∃ q, (wrappers m s.program depth).main arguments p =
        (.error (.exited 122), q) ∧ q.events = p.events ++ [.exit 122] := by
      cases depth <;> simp only [wrappers] <;> exact wrapMain_exits_unreachable taken
    obtain ⟨q, run, last⟩ := exits
    exact ⟨q, ended run, last⟩

/-! ## The whole run -/

theorem fresh_trusted (m : Machine) (input : InputSource) (outputOpen errorsOpen : Bool) :
    (fresh input outputOpen errorsOpen).gist.Trusted m false 2 where
  received := rfl
  left := Nat.le_succ 1
  entered := rfl
  accounts := nofun

/-- How the processes of a run exit. -/
structure MainExits (m : Machine) (s : Startup) (start : Sandbox) : Prop where
  /-- Calls of the main wrapper in an honest run, wherever they are made. -/
  calls : m.Sited → s.Honest m start → ∀ depth arguments p,
    s.Comes m start (.call depth .main arguments) p → ExitsFrom m s start depth arguments p
  /-- A process that exits, but not abruptly, has delivered all that was printed, in order, and the
  sentinel is part of it if there are streams for it. -/
  delivered : ∀ status p, conclude (runStartup m s) start = (some (.exited status), p) →
    (∀ event ∈ p.events, event.isAbrupt = false) → Delivered m start.output.isOpen p

theorem delivered_of_closed {status : Nat} (closed : Closed m s isOpen (.exited status) p)
    (gentle : ∀ event ∈ p.events, event.isAbrupt = false) : Delivered m isOpen p := by
  have last {event : Event} {past : List Event} (trace : p.trace = event :: past) :
      event.isAbrupt = false :=
    gentle event (List.mem_reverse.mpr (by rw [trace]; exact List.mem_cons_self))
  cases closed with
  | left _ delivered | exit _ _ delivered => exact delivered
  | panic trace _ => cases last trace
  | failed trace _ _ => cases last trace

/-- Every call of the main wrapper ends the process with the right status, and every exit that
flushes delivers what was printed. -/
theorem mainExits_of_run (m : Machine) (s : Startup) (input : InputSource)
    (outputOpen errorsOpen : Bool) : MainExits m s (fresh input outputOpen errorsOpen) where
  calls sited honest _ _ _ here :=
    exitsFrom_of_comes sited honest (fresh_trusted m input outputOpen errorsOpen) here
  delivered status p run gentle := by
    obtain ⟨e, q, run', closed⟩ := conclude_closed m s input outputOpen errorsOpen
    have same := run.symm.trans run'
    cases same
    exact delivered_of_closed closed gentle

/-! ## A run with a forged header -/

theorem eq_of_returned {α : Type} {x : Run α} {a : α} (h : (x p).1 = .ok a) :
    x p = (.ok a, (x p).2) :=
  Prod.ext h rfl

theorem takeStep_request {w : Wrappers} {a : Allocator} (request : Request Operand)
    (present : p.context.allocator = some a) :
    Contract (· = p) (takeStep m w (.request request))
      (fun _ q => q.context.allocator =
        some (a.perform (request.map (·.resolve m.heapBase p.results))).2) fun _ _ => True := by
  have holds (a : Allocator) :
      Steady m (fun q => q.context.allocator = some a) fun _ _ => True := by
    have reserving : Gist.Reserving m (·.allocator = some a) :=
      fun g heap h missing _ => by cases h.symm.trans missing
    exact reserving.steady
  refine Steady.takeStep_of_perform (holds _).still (holds _).stepped fun q eq => ?_
  rw [eq]
  refine (holds a).answer (holds _) request present fun r before hr had => ?_
  cases hr.symm.trans had
  rfl

/-- A machine on which the heap usage is logged before an exit. -/
def talkative : Machine where
  environment := ⟨some [49, 48, 52, 56, 53, 55, 54], some [100, 101, 98, 117, 103]⟩
  heapBase := 2 ^ 32
  startAddress := 0
  panics := .recorded
  host := {
    lookup := .found, announcesLookup := false, loadBias := 0, dynamicSection := []
    constructorWords := [], preparesStreams := true, restriction := .strict }

/-- A program whose main function stores words that look like a header in a block of its own, and
then returns a negative number. -/
def forger : Startup where
  early := []
  program := {
    initSteps := []
    mainSteps := [.request (.operation (.allocate 256)),
      .access (.storeWords (.result 0 32) [64, 64, 32, 1])]
    mainStatus := -1 }
  routine := ⟨[.main], 0⟩
  request := ⟨⟨1, 0, 0⟩, true, false, false, 0⟩
  late := []

namespace Forger

def outset : Sandbox :=
  fresh .closed true true

def begun : Sandbox :=
  (enterRoutine talkative forger.request outset).2

def entered : Sandbox :=
  begun.enterMain forger.request.arguments

def holding : Sandbox :=
  (takeStep talkative (wrappers talkative forger.program 1) (.request (.operation (.allocate 256)))
    entered).2

def Passes : Task → Sandbox → Prop
  | .steps depth steps, p => steps = [] ∨ depth = 1 ∧
      (steps = forger.program.mainSteps ∧ p = entered ∨
        steps = forger.program.mainSteps.tail ∧ p = holding)
  | .call depth c arguments, p =>
      depth = 2 ∧ c = .main ∧ arguments = forger.request.arguments ∧ p = begun
  | .constructors _ _, _ => False
  | .routine calls arguments, p =>
      calls = [] ∨ calls = [.main] ∧ arguments = forger.request.arguments ∧ p = begun

theorem passes_of_comes {t : Task} {p : Sandbox} (h : forger.Comes talkative outset t p) :
    Passes t p := by
  induction h with
  | early => exact .inl rfl
  | routine early entered =>
      cases early
      exact .inr ⟨rfl, rfl, (congrArg Prod.snd entered).symm⟩
  | late => exact .inl rfl
  | next _ leads ih =>
      cases leads with
      | stepOver taken =>
          rcases ih with ih | ⟨rfl, ⟨ih, rfl⟩ | ⟨ih, -⟩⟩ <;> cases ih
          · exact .inr ⟨rfl, .inr ⟨rfl, (congrArg Prod.snd taken).symm⟩⟩
          · exact .inl rfl
      | stepInto calls => rcases ih with ih | ⟨-, ⟨ih, -⟩ | ⟨ih, -⟩⟩ <;> cases ih <;> cases calls
      | init | constructors => cases ih.2.1
      | main =>
          obtain ⟨eq, -, rfl, rfl⟩ := ih
          cases eq
          exact .inr ⟨rfl, .inl ⟨rfl, rfl⟩⟩
      | constructorOver | constructorInto => exact ih.elim
      | routineOver =>
          rcases ih with ih | ⟨ih, -⟩ <;> cases ih
          exact .inl rfl
      | routineInto =>
          rcases ih with ih | ⟨ih, rfl, rfl⟩ <;> cases ih
          exact ⟨rfl, rfl, rfl, rfl⟩

theorem granted_mebibyte : talkative.Grants Client.mebibyte :=
  rfl

theorem sited : talkative.Sited :=
  ⟨by decide, by decide⟩

theorem entered_allocator : entered.context.allocator = some (.new Client.mebibyte) :=
  rfl

theorem holding_results : holding.results = [(0, 2 ^ 32 + 32)] := by
  decide +kernel

theorem holding_allocator : holding.context.allocator = some Client.tenant.allocator := by
  have returned : (takeStep talkative (wrappers talkative forger.program 1)
      (.request (.operation (.allocate 256))) entered).1 = .ok () := by decide +kernel
  rw [Client.tenant, Client.allocator_serve]
  have kept := (takeStep_request (m := talkative) (w := wrappers talkative forger.program 1)
    (.operation (.allocate 256)) entered_allocator).returned rfl (eq_of_returned returned)
  rw [holding]
  exact kept

theorem honest : forger.Honest talkative outset := by
  intro depth step rest p here request asked heap granted
  have same : Client.mebibyte = heap := Except.ok.inj (granted_mebibyte.symm.trans granted)
  subst same
  rcases passes_of_comes here with ended | ⟨-, ⟨steps, rfl⟩ | ⟨steps, last⟩⟩
  · cases ended
  · cases steps
    cases asked
    exact ⟨.start Client.mebibyte, .refl, rfl, Client.honest_of_no_pointer rfl⟩
  · cases steps
    rw [last, Step.request?, holding_allocator, holding_results] at asked
    rw [last, holding_allocator]
    cases asked
    exact ⟨Client.tenant, Client.tenant_reached, rfl, Client.tenant_owns (by decide),
      fun _ _ eq => by cases eq⟩

theorem comes_begun :
    forger.Comes talkative outset (.call 2 .main forger.request.arguments) begun := by
  have opened : (enterRoutine talkative forger.request outset).1 = .ok () := by decide +kernel
  exact .next (.routine rfl (eq_of_returned opened)) .routineInto

end Forger

open Forger in
/-- The process of the forger exits, although the heap usage is logged before. -/
theorem mainExits_of_forger :
    talkative.Sited ∧ forger.Honest talkative outset ∧
      ∃ q, conclude (runStartup talkative forger) outset = (some (.exited 255), q) ∧
        q.events.getLast? = some (.exit (-1)) := by
  refine ⟨sited, honest, ?_⟩
  have exits := (mainExits_of_run talkative forger .closed true true).calls sited honest 2 _ begun
    comes_begun
  have unentered : begun.gist.entered = false := by decide +kernel
  obtain ⟨inner, eq, -, first⟩ := exits.first fun a he =>
    Bool.eq_false_iff.mp unentered ((entered_iff begun).mpr ⟨a, he⟩)
  cases eq
  have returned : (programMain talkative forger.program (wrappers talkative forger.program 1)
      forger.request.arguments begun.takeMain).1 = .ok (-1) := by decide +kernel
  have leaves := first (-1) _ (eq_of_returned returned)
  obtain ⟨q, run, last⟩ := leaves.exits (leaves.canLog (by decide))
  exact ⟨q, run, by rw [last, List.getLast?_concat]⟩

end Sandbox

end Confine
