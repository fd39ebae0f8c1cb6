import Confine.Proofs.Sandbox.Composition
import Confine.Proofs.Sandbox.HeapUse
import Confine.Proofs.Sandbox.Honesty

/-! # The order in which a run comes by

Whatever the heap and the events of a process satisfy all along is found again in a later process of
the same run.  Any two tasks of a run are carried out one after the other, or the one as a part of
the other, so that of any two processes that a run comes to one is the later one.
-/

namespace Confine

open Sandbox

/-- The process satisfies a condition on its allocator and on what has happened in it. -/
def Sandbox.Meets (p : Sandbox) (K : Option Allocator → List Event → Prop) : Prop :=
  K p.context.allocator p.trace

namespace Startup

variable (m : Machine) (s : Startup) (start : Sandbox)

/-- The condition is kept whatever happens, when the heap is reserved, and by the steps of the run
that call no wrapper. -/
structure Keeps (K : Option Allocator → List Event → Prop) : Prop where
  happens {a? : Option Allocator} {past : List Event} (e : Event) : K a? past → K a? (e :: past)
  reserves {heap : Heap} {past : List Event} : m.Grants heap → heapRequest m ∈ past →
    K none past → K (some (.new heap)) past
  steps {depth : Nat} {step : Step} {rest : List Step} {p q : Sandbox} :
    s.Comes m start (.steps depth (step :: rest)) p → step.wrapperCall? = none →
    takeStep m (wrappers m s.program depth) step p = (.ok (), q) → p.Meets K → q.Meets K

/-- Whatever the run keeps and the first process satisfies is found in the second one. -/
def Before (p q : Sandbox) : Prop :=
  ∀ K, s.Keeps m start K → p.Meets K → q.Meets K

/-- The task that begins in this process is over before the second one. -/
def Over (t : Task) (p q : Sandbox) : Prop :=
  ∃ e, t.run m s.program p = (.ok (), e) ∧ s.Before m start e q

end Startup

section Keeps

variable {m : Machine} {s : Startup} {start p q r : Sandbox} {t u : Task} {α β : Type}
  {K : Option Allocator → List Event → Prop}

/-- The computation keeps the condition if it returns. -/
def Sandbox.Carries (K : Option Allocator → List Event → Prop) ⦃α : Type⦄ (x : Run α)
    (p : Sandbox) : Prop :=
  p.Meets K → ∀ a q, x p = (.ok a, q) → q.Meets K

theorem Sandbox.Still.meets (h : Still p q) (hp : p.Meets K) : q.Meets K := by
  unfold Sandbox.Meets
  rw [h.context, h.trace]
  exact hp

theorem Sandbox.Carries.of_idle {x : Run α} (idle : Idle (fun _ => True) x) : Carries K x p :=
  fun hp _ _ run => Still.meets ((idle p).returned (.refl p) run) hp

namespace Startup.Keeps

variable (h : s.Keeps m start K)

include h

theorem steady : Steady m (·.Meets K) fun _ _ => True where
  still _ _ hp still := still.meets hp
  closed _ _ _ _ _ := trivial
  killed _ _ := trivial
  never _ _ := trivial
  left _ _ _ := trivial
  panicked _ _ _ := trivial
  stepped _ _ hp := h.happens _ hp
  printed _ _ hp := h.happens _ hp
  reserved _ _ hp missing granted :=
    h.reserves granted List.mem_cons_self (h.happens _ (missing ▸ hp))
  refused _ _ _ _ _ := trivial

theorem pervades : Pervades m s start (Carries K) where
  pure hp _ _ run := by cases run; exact hp
  throw _ _ _ run := by cases run
  bind hx hf hp _ _ run := by
    obtain ⟨a, q, first, rest⟩ := ok_of_bind run
    exact hf a q first (hx hp a q first) _ _ rest
  get_bind _ h := h
  modify _ kept hp _ _ run := by
    cases run
    unfold Sandbox.Meets
    rw [(kept _).1, (kept _).2]
    exact hp
  emit hp _ _ run := by cases run; exact h.happens _ hp
  writeErrors := .of_idle (writeErrors_idle _)
  log := .of_idle (log_idle _ _)
  initLogger := .of_idle (initLogger_idle _)
  provide missing granted asked hp _ _ run := by
    cases run
    exact h.reserves granted asked (missing ▸ hp)
  plain here hstep hp _ _ taken := h.steps here hstep taken hp
  usage _ _ _ _ _ hp _ _ run := h.steady.logHeapUsage.returned hp run

/-- The condition holds wherever the run comes from a process where it holds. -/
theorem leads (here : s.Comes m start t p) (leads : t.Leads m s.program p u q) (hp : p.Meets K) :
    q.Meets K := by
  have calls := h.pervades.calls
  cases leads with
  | stepOver taken => exact h.pervades.step_of_calls (calls _) here hp _ _ taken
  | stepInto => exact hp
  | init admitted => exact h.happens _ (h.pervades.admitInit hp _ _ admitted)
  | constructors admitted => exact h.pervades.admitInit hp _ _ admitted
  | main => exact h.happens _ hp
  | constructorOver called => exact h.pervades.constructor_of_calls (calls _) here hp _ _ called
  | constructorInto logged => exact h.happens _ (h.pervades.log hp _ _ logged)
  | routineOver returned => exact calls 2 _ _ p (here.next .routineInto) hp _ _ returned
  | routineInto => exact hp

theorem comes (here : s.Comes m start t p) (first : start.Meets K) : p.Meets K := by
  induction here with
  | early => exact first
  | routine early entered =>
      exact h.pervades.enterRoutine _ (h.pervades.task .early first _ _ early) _ _ entered
  | late early returned =>
      have begun := h.pervades.task .early first _ _ early
      rw [startMain_eq] at returned
      obtain ⟨_, q, entered, rest⟩ := ok_of_bind returned
      obtain ⟨_, r, called, last⟩ := ok_of_bind rest
      cases last
      have opened := h.pervades.enterRoutine _ begun _ _ entered
      exact h.happens _ (h.pervades.task (.routine early entered) opened _ _ called)
  | next comes leads ih => exact h.leads comes leads ih

end Startup.Keeps

/-! ## Later processes -/

namespace Startup.Before

theorem refl (p : Sandbox) : s.Before m start p p :=
  fun _ _ hp => hp

theorem trans (h : s.Before m start p q) (h' : s.Before m start q r) : s.Before m start p r :=
  fun K keeps hp => h' K keeps (h K keeps hp)

theorem of_run {x : Run α} {a : α} (run : x p = (.ok a, q))
    (carries : ∀ K, s.Keeps m start K → Carries K x p) : s.Before m start p q :=
  fun K keeps hp => carries K keeps hp a q run

theorem leads (here : s.Comes m start t p) (leads : t.Leads m s.program p u q) :
    s.Before m start p q :=
  fun _ keeps => keeps.leads here leads

theorem push (h : s.Before m start p q) (e : Event) :
    s.Before m start p { q with trace := e :: q.trace } :=
  fun K keeps hp => keeps.happens e (h K keeps hp)

end Startup.Before

/-! ## Tasks that are over -/

section Tasks

variable {depth : Nat} {step : Step} {c : WrapperCall} {arguments : Arguments} {v : Task}

/-- A step that has called a wrapper has returned from it. -/
theorem Sandbox.stepInto_over (calls : step.wrapperCall? = some c)
    (received : p.received = some arguments)
    (taken : takeStep m (wrappers m s.program depth) step p = (.ok (), q)) :
    s.Over m start (.call depth c arguments) p.counted q := by
  rw [takeStep_eq, perform_wrapperCall calls] at taken
  obtain ⟨result, r, performed, recorded⟩ := ok_of_bind taken
  obtain ⟨_, e, called, last⟩ := ok_of_bind performed
  cases last
  rw [callWrapper_received (p := p.counted) received] at called
  exact ⟨r, called, .of_run recorded fun K keeps => keeps.pervades.record _ _⟩

theorem Sandbox.constructorInto_over {call : ConstructorCall} {number : Nat}
    (logged : log .trace call.message p = (.ok (), q))
    (called : callConstructor m s.program (wrappers m s.program depth) call number p =
      (.ok (), r)) :
    s.Over m start (.steps depth (s.program.constructorSteps.getD number []))
      { q with trace := .constructorCall call :: q.trace } r :=
  ⟨r, (bind_ok logged).symm.trans called, .refl r⟩

/-- A task that has returned has gone through what it leads to. -/
theorem Task.Leads.finished (here : s.Comes m start t p) (leads : t.Leads m s.program p u q)
    (run : t.run m s.program p = (.ok (), r)) : s.Over m start u q r := by
  have later {v : Task} {e w : Sandbox} (ended : s.Over m start u q e)
      (next : s.Comes m start v e) (run : v.run m s.program e = (.ok (), w)) :
      s.Over m start u q w := by
    obtain ⟨f, returned, before⟩ := ended
    exact ⟨f, returned, before.trans (.of_run run fun K keeps => keeps.pervades.task next)⟩
  cases leads with
  | stepOver taken => exact ⟨r, (bind_ok taken).symm.trans run, .refl r⟩
  | stepInto calls received =>
      obtain ⟨_, e, taken, rest⟩ := ok_of_bind run
      exact later (stepInto_over calls received taken) (here.next (.stepOver taken)) rest
  | init admitted =>
      refine ⟨r, ?_, .refl r⟩
      exact (bind_ok admitted).symm.trans ((congrFun (wrapInit_eq m _ _) p).symm.trans run)
  | constructors admitted =>
      refine ⟨r, ?_, .refl r⟩
      exact (bind_ok admitted).symm.trans ((congrFun (wrapInit_eq m _ _) p).symm.trans run)
  | @main inner arguments _ saved =>
      have never : Contract (· = p) ((wrappers m s.program (inner + 1)).main arguments)
          (fun _ _ => False) fun _ _ => True :=
        wrapMain_ends
      exact (never.returned rfl run).elim
  | constructorOver called => exact ⟨r, (bind_ok called).symm.trans run, .refl r⟩
  | constructorInto logged =>
      obtain ⟨_, e, called, rest⟩ := ok_of_bind run
      exact later (constructorInto_over logged called) (here.next (.constructorOver called)) rest
  | routineOver returned => exact ⟨r, (bind_ok returned).symm.trans run, .refl r⟩
  | routineInto =>
      obtain ⟨_, e, returned, rest⟩ := ok_of_bind run
      exact later ⟨e, returned, .refl e⟩ (here.next (.routineOver returned)) rest

/-- Two tasks that one task leads to are the same, or the one is over before the other begins. -/
theorem Task.Leads.apart (here : s.Comes m start t p) (h : t.Leads m s.program p u q)
    (h' : t.Leads m s.program p v r) :
    (u = v ∧ q = r) ∨ s.Over m start u q r ∨ s.Over m start v r q := by
  cases h with
  | stepOver taken =>
      cases h' with
      | stepOver taken' =>
          cases taken.symm.trans taken'
          exact .inl ⟨rfl, rfl⟩
      | stepInto calls received => exact .inr (.inr (stepInto_over calls received taken))
  | stepInto calls received =>
      cases h' with
      | stepOver taken => exact .inr (.inl (stepInto_over calls received taken))
      | stepInto calls' received' =>
          cases calls.symm.trans calls'
          cases received.symm.trans received'
          exact .inl ⟨rfl, rfl⟩
  | init admitted =>
      cases h' with
      | init admitted' =>
          cases admitted.symm.trans admitted'
          exact .inl ⟨rfl, rfl⟩
      | constructors admitted' => cases admitted.symm.trans admitted'
  | constructors admitted =>
      cases h' with
      | init admitted' => cases admitted.symm.trans admitted'
      | constructors admitted' =>
          cases admitted.symm.trans admitted'
          exact .inl ⟨rfl, rfl⟩
  | main =>
      cases h' with
      | main => exact .inl ⟨rfl, rfl⟩
  | constructorOver called =>
      cases h' with
      | constructorOver called' =>
          cases called.symm.trans called'
          exact .inl ⟨rfl, rfl⟩
      | constructorInto logged => exact .inr (.inr (constructorInto_over logged called))
  | constructorInto logged =>
      cases h' with
      | constructorOver called => exact .inr (.inl (constructorInto_over logged called))
      | constructorInto logged' =>
          cases logged.symm.trans logged'
          exact .inl ⟨rfl, rfl⟩
  | routineOver returned =>
      cases h' with
      | routineOver returned' =>
          cases returned.symm.trans returned'
          exact .inl ⟨rfl, rfl⟩
      | routineInto => exact .inr (.inr ⟨_, returned, .refl _⟩)
  | routineInto =>
      cases h' with
      | routineOver returned => exact .inr (.inl ⟨_, returned, .refl _⟩)
      | routineInto => exact .inl ⟨rfl, rfl⟩

end Tasks

/-! ## What a task goes through -/

/-- The first task, begun in the first process, comes to the second one in any number of steps. -/
inductive Task.Passes (m : Machine) (program : Program) : Task → Sandbox → Task → Sandbox → Prop
  | here {t : Task} {p : Sandbox} : Passes m program t p t p
  | next {t u v : Task} {p q r : Sandbox} (leads : t.Leads m program p u q)
      (passes : Passes m program u q v r) : Passes m program t p v r

namespace Task.Passes

variable {v : Task}

theorem concat {program : Program} (h : Passes m program t p u q)
    (leads : u.Leads m program q v r) : Passes m program t p v r := by
  induction h with
  | here => exact .next leads .here
  | next first _ ih => exact .next first (ih leads)

theorem before (here : s.Comes m start t p) (h : Passes m s.program t p u q) :
    s.Before m start p q := by
  induction h with
  | here => exact .refl _
  | next leads _ ih => exact .trans (.leads here leads) (ih (here.next leads))

theorem before_end (here : s.Comes m start t p) (h : Passes m s.program t p u q)
    (run : t.run m s.program p = (.ok (), r)) : s.Before m start q r := by
  induction h generalizing r with
  | here => exact .of_run run fun K keeps => keeps.pervades.task here
  | next leads _ ih =>
      obtain ⟨e, returned, before⟩ := leads.finished here run
      exact (ih (here.next leads) returned).trans before

/-- What a task that is over has passed comes before what another one passes that begins later. -/
theorem before_of_over {w : Task} {o : Sandbox} (here : s.Comes m start t p)
    (h : Passes m s.program t p u q) (next : s.Comes m start v r)
    (h' : Passes m s.program v r w o) (ended : s.Over m start t p r) : s.Before m start q o := by
  obtain ⟨e, run, before⟩ := ended
  exact (h.before_end here run).trans (before.trans (h'.before next))

/-- Of two processes that a task passes one is no later than the other. -/
theorem total (here : s.Comes m start t p) (h : Passes m s.program t p u q)
    (h' : Passes m s.program t p v r) : s.Before m start q r ∨ s.Before m start r q := by
  induction h generalizing v r with
  | here => exact .inl (h'.before here)
  | next leads passes ih =>
      cases h' with
      | here => exact .inr (before here (.next leads passes))
      | next leads' passes' =>
          have next := here.next leads
          have next' := here.next leads'
          rcases leads.apart here leads' with ⟨rfl, rfl⟩ | ended | ended
          · exact ih next passes'
          · exact .inl (passes.before_of_over next next' passes' ended)
          · exact .inr (passes'.before_of_over next' next passes ended)

end Task.Passes

/-! ## The whole run -/

/-- The tasks that a run consists of. -/
inductive Startup.Opens (m : Machine) (s : Startup) (start : Sandbox) : Task → Sandbox → Prop
  | early : Opens m s start (.steps 2 s.early) start
  | routine {p q : Sandbox}
      (early : takeSteps m (outerWrappers m s.program) s.early start = (.ok (), p))
      (entered : enterRoutine m s.request p = (.ok (), q)) :
      Opens m s start (.routine s.routine.calls s.request.arguments) q
  | late {p q : Sandbox} {value : Int}
      (early : takeSteps m (outerWrappers m s.program) s.early start = (.ok (), p))
      (returned : startMain m s.program s.routine s.request p = (.ok value, q)) :
      Opens m s start (.steps 2 s.late) { q with trace := .returned value :: q.trace }

namespace Startup

variable {v : Task}

theorem Opens.comes (h : s.Opens m start t p) : s.Comes m start t p := by
  cases h with
  | early => exact .early
  | routine early entered => exact .routine early entered
  | late early returned => exact .late early returned

theorem early_over (early : takeSteps m (outerWrappers m s.program) s.early start = (.ok (), p))
    (entered : enterRoutine m s.request p = (.ok (), q)) :
    s.Over m start (.steps 2 s.early) start q :=
  ⟨p, early, .of_run entered fun _ keeps => keeps.pervades.enterRoutine _⟩

theorem routine_over {value : Int} (entered : enterRoutine m s.request p = (.ok (), r))
    (returned : startMain m s.program s.routine s.request p = (.ok value, q)) :
    s.Over m start (.routine s.routine.calls s.request.arguments) r
      { q with trace := .returned value :: q.trace } := by
  rw [startMain_eq, bind_ok entered] at returned
  obtain ⟨_, _, called, last⟩ := ok_of_bind returned
  cases last
  exact ⟨q, called, .push (.refl q) _⟩

theorem early_over_late {value : Int}
    (early : takeSteps m (outerWrappers m s.program) s.early start = (.ok (), p))
    (returned : startMain m s.program s.routine s.request p = (.ok value, q)) :
    s.Over m start (.steps 2 s.early) start { q with trace := .returned value :: q.trace } := by
  obtain ⟨_, r, entered, -⟩ := ok_of_bind (startMain_eq m _ _ _ ▸ returned)
  obtain ⟨e, run, before⟩ := early_over early entered
  obtain ⟨f, called, after⟩ : s.Over m start _ r _ := routine_over entered returned
  have routine : s.Before m start r f :=
    .of_run called fun K keeps => keeps.pervades.task (.routine early entered)
  exact ⟨e, run, before.trans (routine.trans after)⟩

/-- The tasks that a run consists of come one after the other. -/
theorem Opens.apart (h : s.Opens m start t p) (h' : s.Opens m start u q) :
    (t = u ∧ p = q) ∨ s.Over m start t p q ∨ s.Over m start u q p := by
  cases h with
  | early =>
      cases h' with
      | early => exact .inl ⟨rfl, rfl⟩
      | routine early entered => exact .inr (.inl (early_over early entered))
      | late early returned => exact .inr (.inl (early_over_late early returned))
  | routine early entered =>
      cases h' with
      | early => exact .inr (.inr (early_over early entered))
      | routine early' entered' =>
          cases early.symm.trans early'
          cases entered.symm.trans entered'
          exact .inl ⟨rfl, rfl⟩
      | late early' returned =>
          cases early.symm.trans early'
          exact .inr (.inl (routine_over entered returned))
  | late early returned =>
      cases h' with
      | early => exact .inr (.inr (early_over_late early returned))
      | routine early' entered =>
          cases early.symm.trans early'
          exact .inr (.inr (routine_over entered returned))
      | late early' returned' =>
          cases early.symm.trans early'
          cases returned.symm.trans returned'
          exact .inl ⟨rfl, rfl⟩

theorem Comes.opened (h : s.Comes m start t p) :
    ∃ u q, s.Opens m start u q ∧ Task.Passes m s.program u q t p := by
  induction h with
  | early => exact ⟨_, _, .early, .here⟩
  | routine early entered => exact ⟨_, _, .routine early entered, .here⟩
  | late early returned => exact ⟨_, _, .late early returned, .here⟩
  | next _ leads ih =>
      obtain ⟨u, q, opens, passes⟩ := ih
      exact ⟨u, q, opens, passes.concat leads⟩

/-- Of two processes that a run comes to, one is no later than the other. -/
theorem Comes.total (h : s.Comes m start t p) (h' : s.Comes m start u q) :
    s.Before m start p q ∨ s.Before m start q p := by
  obtain ⟨_, o, opens, passes⟩ := h.opened
  obtain ⟨_, o', opens', passes'⟩ := h'.opened
  rcases opens.apart opens' with ⟨rfl, rfl⟩ | ended | ended
  · exact passes.total opens.comes passes'
  · exact .inl (passes.before_of_over opens.comes opens'.comes passes' ended)
  · exact .inr (passes'.before_of_over opens'.comes opens.comes passes ended)

theorem keeps_grown (past : List Event) : s.Keeps m start fun _ events => past <:+ events where
  happens e h := h.trans (List.suffix_cons e _)
  reserves _ _ h := h
  steps _ hstep taken h := by
    obtain ⟨result, later, took⟩ := takeStep_took hstep taken
    unfold Sandbox.Meets
    rw [took.trace]
    exact h.trans (took.grown.trans (List.suffix_cons _ _))

theorem Before.grown (h : s.Before m start p q) : p.trace <:+ q.trace :=
  h _ (keeps_grown p.trace) (List.suffix_refl _)

/-- The process in which more has happened is the later one. -/
theorem Comes.before (h : s.Comes m start t p) (h' : s.Comes m start u q)
    (earlier : p.trace.length < q.trace.length) : s.Before m start p q := by
  rcases h.total h' with before | after
  · exact before
  · exact absurd after.grown.length_le (Nat.not_le_of_lt earlier)

end Startup

end Keeps

end Confine
