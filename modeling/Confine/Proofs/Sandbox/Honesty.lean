import Confine.Proofs.Sandbox.Account
import Confine.Proofs.Sandbox.Course
import Confine.Proofs.Sandbox.Triple

/-! # Honest runs

In an honest run every step that the run comes to is honest.  Then the heap is accounted for
wherever the run comes, and so is the saved main function: it was taken if and only if it was
entered, and it is left only where it can be entered from within.
-/

namespace Confine

/-- Every step that the run comes to is honest. -/
def Startup.Honest (m : Machine) (s : Startup) (start : Sandbox) : Prop :=
  ∀ depth step rest p, s.Comes m start (.steps depth (step :: rest)) p → step.Honest m p

namespace Sandbox

/-- What is followed of a process. -/
structure Gist where
  /-- The start routine has received the wrappers. -/
  received : Bool
  mainSaved : Bool
  restricted : Bool
  /-- The main function was entered. -/
  entered : Bool
  allocator : Option Allocator

def gist (p : Sandbox) : Gist where
  received := p.received.isSome
  mainSaved := p.context.mainSaved
  restricted := p.context.restricted
  entered := p.trace.any Event.isMain
  allocator := p.context.allocator

variable {m : Machine} {p q : Sandbox} {α β : Type} {started : Bool} {depth : Nat}

theorem Still.gist (h : Still p q) : q.gist = p.gist := by
  simp only [Sandbox.gist, h.received, h.context, h.trace]

theorem gist_push (p : Sandbox) {e : Event} (h : e.isMain = false) :
    gist { p with trace := e :: p.trace } = p.gist := by
  simp [gist, h]

namespace Gist

/-- The heap is accounted for, the main function was entered if and only if it was taken after the
start, and program code can be entered at most `depth` times more. -/
structure Trusted (m : Machine) (started : Bool) (depth : Nat) (g : Gist) : Prop where
  received : g.received = started
  left : g.mainSaved.toNat + (!g.restricted).toNat ≤ depth
  entered : g.entered = (started && !g.mainSaved)
  accounts : m.Accounts g.allocator

/-- The main function is saved, and the start routine is about to be called. -/
structure Saved (m : Machine) (g : Gist) : Prop where
  received : g.received = false
  mainSaved : g.mainSaved = true
  entered : g.entered = false
  accounts : m.Accounts g.allocator

/-- The reservation of the heap keeps the condition. -/
def Reserving (m : Machine) (C : Gist → Prop) : Prop :=
  ∀ g heap, C g → g.allocator = none → m.Grants heap → C { g with allocator := some (.new heap) }

theorem Trusted.reserving : Reserving m (Trusted m started depth) :=
  fun _ _ h _ granted => { h with accounts := .reserve granted }

theorem Saved.reserving : Reserving m (Saved m) :=
  fun _ _ h _ granted => { h with accounts := .reserve granted }

theorem Trusted.deeper {g : Gist} (h : Trusted m started depth g) :
    Trusted m started (depth + 1) g :=
  { h with left := Nat.le_succ_of_le h.left }

end Gist

/-- A condition that the reservation of the heap keeps is kept by all that has to do neither with
the allocator nor with the wrappers. -/
theorem Gist.Reserving.steady {C : Gist → Prop} (h : Gist.Reserving m C) :
    Steady m (fun p => C p.gist) fun _ _ => True where
  still _ _ hp still := still.gist ▸ hp
  closed _ _ _ _ _ := trivial
  killed _ _ := trivial
  never _ _ := trivial
  left _ _ _ := trivial
  panicked _ _ _ := trivial
  stepped p result hp := (gist_push p (e := .step result) rfl).symm ▸ hp
  printed p text hp := (gist_push p (e := .printed text) rfl).symm ▸ hp
  reserved p heap hp missing granted := by
    have kept := h p.gist heap hp missing granted
    rwa [← gist_push p (e := .reserveHeap m.environment.requestedHeapSize) rfl] at kept
  refused _ _ _ _ _ := trivial

/-! ## Entering the restricted mode -/

section Keeps

variable {C : Gist → Prop}

theorem emit_keeps {e : Event} (other : e.isMain = false) :
    Contract (fun p => C p.gist) (emit e) (fun _ p => C p.gist) fun _ _ => True :=
  .emit fun p hp => (gist_push p other).symm ▸ hp

theorem idle_keeps {x : Run α} (h : Idle (fun _ => True) x) :
    Contract (fun p => C p.gist) x (fun _ p => C p.gist) fun _ _ => True :=
  h.keeps (fun _ _ hp still => still.gist ▸ hp) fun _ _ _ _ => trivial

theorem fatal_ends {pre : Sandbox → Prop} {post : α → Sandbox → Prop} (failure : SetupFailure) :
    Contract pre (fatal failure) post fun _ _ => True :=
  fun p _ => (fatal_contract failure p).consequence (fun _ h => h) (fun _ _ h => h)
    (fun _ _ _ => trivial) p (.refl p)

theorem resolveStart_keeps :
    Contract (fun p => C p.gist) (resolveStart m) (fun _ p => C p.gist) fun _ _ => True := by
  refine .bind (emit_keeps rfl) fun _ => ?_
  split
  · exact fatal_ends _
  · exact fatal_ends _
  · split
    · exact idle_keeps (log_idle _ _)
    · exact .pure fun _ hp => hp

variable (reserving : Gist.Reserving m C)

include reserving

theorem locate_keeps (initSaved : Bool) :
    Contract (fun p => C p.gist) (InitCode.locate m initSaved) (fun _ p => C p.gist)
      fun _ _ => True := by
  unfold InitCode.locate
  split
  · exact .pure fun _ hp => hp
  · refine .map (.bind (emit_keeps rfl) fun _ => ?_)
    split
    · exact .pure fun _ hp => hp
    · exact reserving.steady.panic _

theorem enterRestrictedMode_keeps :
    Contract (fun p => C p.gist) (enterRestrictedMode m) (fun _ p => C p.gist)
      fun _ _ => True := by
  have flushed : Contract (fun p => C p.gist) flush (fun _ p => C p.gist) fun _ _ => True :=
    .modify fun _ hp => hp
  have sentinels : Contract (fun p => C p.gist) emitSentinels (fun _ p => C p.gist)
      fun _ _ => True :=
    .bind (reserving.steady.print _) fun _ => .bind flushed fun _ => idle_keeps (writeErrors_idle _)
  have prepared {request : Event} {preparation : Run Unit} (other : request.isMain = false)
      (h : Contract (fun p => C p.gist) preparation (fun _ p => C p.gist) fun _ _ => True) :
      Contract (fun p => C p.gist) (prepare m request preparation) (fun _ p => C p.gist)
        fun _ _ => True := by
    refine .bind (emit_keeps other) fun _ => ?_
    split
    · exact h
    · exact .pure fun _ hp => hp
  have requested : Contract (fun p => C p.gist) (requestRestriction m) (fun _ p => C p.gist)
      fun _ _ => True := by
    refine .bind (emit_keeps rfl) fun _ => ?_
    split
    · exact .pure fun _ hp => hp
    · exact .modify fun _ hp => hp
    · exact fatal_ends _
  exact .bind (prepared rfl sentinels) fun _ => .bind (prepared rfl (idle_keeps primeInput_idle))
    fun _ => .bind requested fun _ => idle_keeps (log_idle _ _)

end Keeps

/-- A process that is to run this init code can enter it.  Without any it goes on as before. -/
def Gist.Admitted (m : Machine) (depth : Nat) (g : Gist) : Option InitCode → Prop
  | none => g.Trusted m true depth
  | some _ => ∃ left, depth = left + 1 ∧ g.Trusted m true left

theorem admitInit_trusted :
    Contract (fun p => p.gist.Trusted m true depth) (admitInit m)
      (fun code? p => p.gist.Admitted m depth code?) fun _ _ => True := by
  let Open (g : Gist) : Prop := g.Trusted m true depth ∧ g.restricted = false
  have reserving : Gist.Reserving m Open :=
    fun g heap h missing granted => ⟨Gist.Trusted.reserving g heap h.1 missing granted, h.2⟩
  have restrict (code : InitCode) : Contract (fun p => Open p.gist)
      (modifyContext ({ · with restricted := true }))
      (fun _ p => p.gist.Admitted m depth (some code)) fun _ _ => True := by
    refine .modify fun p hp => ?_
    obtain ⟨h, unrestricted⟩ := hp
    have left := h.left
    rw [unrestricted, Bool.not_false, Bool.toNat_true] at left
    refine ⟨depth - 1, by omega, { h with left := ?_ }⟩
    rw [gist, Bool.not_true]
    exact Nat.le_sub_one_of_lt left
  refine .get_bind fun p hp => ?_
  have taken : Contract (· = p) (modifyContext ({ · with initSaved := false }))
      (fun _ q => q.gist = p.gist) fun _ _ => True :=
    .modify fun q eq => eq ▸ rfl
  refine .bind taken fun _ => ?_
  split
  · have kept : ∀ q : Sandbox, q.gist = p.gist → q.gist.Trusted m true depth :=
      fun q eq => eq ▸ hp
    exact .bind ((idle_keeps (log_idle _ _)).strengthen kept) fun _ => .pure fun _ hq => hq
  · next unrestricted =>
      have opened : ∀ q : Sandbox, q.gist = p.gist → Open q.gist :=
        fun q eq => ⟨eq ▸ hp, eq ▸ Bool.eq_false_iff.mpr unrestricted⟩
      exact .bind ((locate_keeps reserving _).strengthen opened) fun code =>
        .bind (enterRestrictedMode_keeps reserving) fun _ =>
        .bind (restrict code) fun _ =>
        .pure fun _ hq => hq

theorem enterMain_trusted {arguments : Arguments} (h : p.gist.Trusted m true (depth + 1))
    (saved : p.context.mainSaved = true) : (p.enterMain arguments).gist.Trusted m true depth where
  received := h.received
  left := by
    have left := h.left
    simp only [gist, saved, Bool.toNat_true] at left
    simp only [gist, enterMain, takeMain, Bool.toNat_false]
    omega
  entered := rfl
  accounts := h.accounts

theorem enterRoutine_trusted (request : StartRequest) :
    Contract (fun p => p.gist.Trusted m false 2) (enterRoutine m request)
      (fun _ p => p.gist.Trusted m true 2) fun _ _ => True := by
  have save : Contract (fun p => p.gist.Trusted m false 2)
      (modifyContext ({ · with initSaved := request.hasInit, mainSaved := true }))
      (fun _ p => p.gist.Saved m) fun _ _ => True :=
    .modify fun p h => ⟨h.received, rfl, h.entered, h.accounts⟩
  have provisioned : Contract (fun p => p.gist.Saved m) (discard (provision m))
      (fun _ p => p.gist.Saved m) fun _ _ => True :=
    .discard (Gist.Saved.reserving.steady.provision.imp fun _ _ h => h.1)
  have receive : Contract (fun p => p.gist.Saved m)
      (modify fun p => { p with received := some request.arguments })
      (fun _ p => p.gist.Trusted m true 2) fun _ _ => True := by
    refine .modify fun p h => ⟨rfl, ?_, ?_, h.accounts⟩
    · exact Nat.add_le_add (Bool.toNat_le _) (Bool.toNat_le _)
    · have saved : p.context.mainSaved = true := h.mainSaved
      exact h.entered.trans (by simp [gist, saved])
  exact .bind (idle_keeps (initLogger_idle _)) fun _ => .bind save fun _ =>
    .bind provisioned fun _ => .bind resolveStart_keeps fun _ =>
    .bind (idle_keeps (log_idle _ _)) fun _ => .bind (emit_keeps rfl) fun _ => receive

/-! ## Steps -/

theorem takeStep_trusted (w : Wrappers) {step : Step} (hstep : step.wrapperCall? = none)
    (h : p.gist.Trusted m started depth) (honest : step.Honest m p) :
    Contract (· = p) (takeStep m w step) (fun _ q => q.gist.Trusted m started depth)
      fun _ _ => True := by
  -- The heap may be reserved before the request is answered, so honesty is followed up to there.
  let Asking (g : Gist) : Prop := g.Trusted m started depth ∧
    ∀ request, step.request? m p = some request → m.Admits g.allocator request
  have asking : Gist.Reserving m Asking := by
    intro g heap hg missing granted
    refine ⟨Gist.Trusted.reserving g heap hg.1 missing granted, fun request asked => ?_⟩
    exact Machine.Admits.reserve (missing ▸ hg.2 request asked) granted
  have trusted : Steady m (fun q => q.gist.Trusted m started depth) fun _ _ => True :=
    Gist.Trusted.reserving.steady
  refine Steady.takeStep_of_perform trusted.still trusted.stepped fun q eq => ?_
  rw [eq]
  refine asking.steady.perform trusted w hstep ⟨h, honest⟩ (fun _ hq => hq.1) ?_
  intro request asked q a hq present
  have accounts : m.Accounts (some a) := present ▸ hq.1.accounts
  have admits : m.Admits (some a) request := present ▸ hq.2 request asked
  exact { hq.1 with accounts := admits.serve accounts }

section Run

variable {s : Startup} {start : Sandbox}

/-- A wrapper that returns leaves the process to be trusted as before. -/
def CallsReturn (m : Machine) (s : Startup) (start : Sandbox) (depth : Nat) : Prop :=
  ∀ c arguments p, s.Comes m start (.call depth c arguments) p → p.gist.Trusted m true depth →
    Contract (· = p) ((wrappers m s.program depth).entered c arguments)
      (fun _ q => q.gist.Trusted m true depth) fun _ _ => True

section Depth

variable (honest : s.Honest m start) (calls : CallsReturn m s start depth)

include honest calls

theorem step_returns {step : Step} {rest : List Step}
    (here : s.Comes m start (.steps depth (step :: rest)) p)
    (h : p.gist.Trusted m started depth) :
    Contract (· = p) (takeStep m (wrappers m s.program depth) step)
      (fun _ q => q.gist.Trusted m started depth) fun _ _ => True := by
  cases hstep : step.wrapperCall? with
  | none => exact takeStep_trusted _ hstep h (honest depth step rest p here)
  | some c =>
      have trusted : Steady m (fun q => q.gist.Trusted m started depth) fun _ _ => True :=
        Gist.Trusted.reserving.steady
      refine Steady.takeStep_of_perform trusted.still trusted.stepped fun q eq => ?_
      rw [eq]
      refine Steady.perform_call hstep (.get_bind fun q eq => ?_)
      cases received : q.received with
      | none => exact .pure fun r same => by rw [same, eq]; exact h
      | some arguments =>
          rw [eq] at received ⊢
          have first : (true : Bool) = started :=
            (congrArg Option.isSome received).symm.trans h.received
          subst first
          exact calls c arguments p.counted (.next here (.stepInto hstep received)) h

theorem steps_return (steps : List Step) :
    ∀ p, s.Comes m start (.steps depth steps) p → p.gist.Trusted m started depth →
      Contract (· = p) (takeSteps m (wrappers m s.program depth) steps)
        (fun _ q => q.gist.Trusted m started depth) fun _ _ => True := by
  induction steps with
  | nil => exact fun p _ h => .pure fun q eq => eq ▸ h
  | cons step rest ih =>
      intro p here h
      exact .bind_eq (step_returns honest calls here h) fun _ q taken hq =>
        ih q (.next here (.stepOver taken)) hq

theorem constructor_returns {call : ConstructorCall} {number : Nat}
    {rest : List (ConstructorCall × Nat)}
    (here : s.Comes m start (.constructors depth ((call, number) :: rest)) p)
    (h : p.gist.Trusted m true depth) :
    Contract (· = p) (callConstructor m s.program (wrappers m s.program depth) call number)
      (fun _ q => q.gist.Trusted m true depth) fun _ _ => True := by
  refine .bind_eq ((idle_keeps (log_idle _ _)).started_in h) fun _ q logged hq => ?_
  let entered : Sandbox := { q with trace := .constructorCall call :: q.trace }
  have h' : entered.gist.Trusted m true depth :=
    (gist_push q (e := .constructorCall call) rfl).symm ▸ hq
  exact .bind (.emit fun r eq => eq ▸ rfl) fun _ =>
    steps_return honest calls _ entered (.next here (.constructorInto logged)) h'

theorem constructors_return (numbered : List (ConstructorCall × Nat)) :
    ∀ p, s.Comes m start (.constructors depth numbered) p → p.gist.Trusted m true depth →
      Contract (· = p) (Task.run m s.program (.constructors depth numbered))
        (fun _ q => q.gist.Trusted m true depth) fun _ _ => True := by
  induction numbered with
  | nil => exact fun p _ h => .pure fun q eq => eq ▸ h
  | cons first rest ih =>
      intro p here h
      exact .bind_eq (constructor_returns honest calls here h) fun _ q called hq =>
        ih q (.next here (.constructorOver called)) hq

theorem init_returns {code : InitCode} {arguments : Arguments} {q : Sandbox}
    (here : s.Comes m start (.call (depth + 1) .init arguments) p)
    (admitted : admitInit m p = (.ok (some code), q)) (h : q.gist.Trusted m true depth) :
    Contract (· = q) (runInitCode m s.program (wrappers m s.program depth) code arguments)
      (fun _ r => r.gist.Trusted m true (depth + 1)) fun _ _ => True := by
  cases code with
  | program =>
      let entered : Sandbox := { q with trace := .programInit arguments :: q.trace }
      have h' : entered.gist.Trusted m true depth :=
        (gist_push q (e := .programInit arguments) rfl).symm ▸ h
      exact .bind (.emit fun r eq => eq ▸ rfl) fun _ =>
        (steps_return honest calls _ entered (.next here (.init admitted)) h').imp
          fun _ _ hr => hr.deeper
  | constructors c =>
      exact (constructors_return honest calls _ q (.next here (.constructors admitted)) h).imp
        fun _ _ hr => hr.deeper

end Depth

theorem wrapMain_ends {pre : Sandbox → Prop} {programMain : Arguments → Run Int}
    {arguments : Arguments} {post : Unit → Sandbox → Prop} :
    Contract pre (wrapMain m programMain arguments) post fun _ _ => True := by
  have any {α : Type} {x : Run α} {pre : Sandbox → Prop} :
      Contract pre x (fun _ _ => True) fun _ _ => True := by
    intro p _
    split <;> trivial
  have ends {status : Int} : Contract (fun _ => True) (exit status) post fun _ _ => True :=
    fun _ _ => trivial
  refine .read fun p => .bind any fun _ => ?_
  split
  · exact .bind any fun _ => .bind any fun _ => ends
  · exact .bind any fun _ => ends

theorem calls_return (honest : s.Honest m start) : ∀ depth, CallsReturn m s start depth := by
  have main {depth : Nat} {arguments : Arguments} {p : Sandbox} :
      Contract (· = p) ((wrappers m s.program depth).entered .main arguments)
        (fun _ q => q.gist.Trusted m true depth) fun _ _ => True := by
    cases depth <;> simp only [wrappers, Wrappers.entered] <;> exact wrapMain_ends
  have init {depth : Nat} {arguments : Arguments} {p : Sandbox}
      {runInit : InitCode → Arguments → Run Unit} (h : p.gist.Trusted m true depth)
      (run : ∀ code left q, admitInit m p = (.ok (some code), q) → depth = left + 1 →
        q.gist.Trusted m true left → Contract (· = q) (runInit code arguments)
          (fun _ r => r.gist.Trusted m true depth) fun _ _ => True) :
      Contract (· = p) (wrapInit m runInit arguments) (fun _ q => q.gist.Trusted m true depth)
        fun _ _ => True := by
    rw [wrapInit_eq]
    refine .bind_eq (admitInit_trusted.started_in h) fun code? q admitted hq => ?_
    cases code? with
    | none => exact .pure fun r eq => eq ▸ hq
    | some code =>
        obtain ⟨left, eq, hq⟩ := hq
        exact run code left q admitted eq hq
  -- What a wrapper runs calls the wrappers of one depth less.
  intro depth
  induction depth with
  | zero =>
      intro c arguments p here h
      cases c with
      | init =>
          simp only [wrappers, Wrappers.entered]
          exact init h fun _ left _ _ eq _ => by cases eq
      | main => exact main
  | succ depth ih =>
      intro c arguments p here h
      cases c with
      | init =>
          simp only [wrappers, Wrappers.entered]
          refine init h fun code left q admitted eq hq => ?_
          cases eq
          exact init_returns honest ih here admitted hq
      | main => exact main

theorem routine_returns (honest : s.Honest m start) (calls : List WrapperCall)
    (arguments : Arguments) :
    ∀ p, s.Comes m start (.routine calls arguments) p → p.gist.Trusted m true 2 →
      Contract (· = p) (calls.forM ((outerWrappers m s.program).entered · arguments))
        (fun _ q => q.gist.Trusted m true 2) fun _ _ => True := by
  induction calls with
  | nil => exact fun p _ h => .pure fun q eq => eq ▸ h
  | cons c rest ih =>
      intro p here h
      exact .bind_eq (calls_return honest 2 c arguments p (.next here .routineInto) h)
        fun _ q returned hq => ih q (.next here (.routineOver returned)) hq

theorem main_returns {arguments : Arguments} (honest : s.Honest m start)
    (here : s.Comes m start (.steps depth s.program.mainSteps) (p.enterMain arguments))
    (h : (p.enterMain arguments).gist.Trusted m true depth) :
    Contract (· = p.takeMain)
      (programMain m s.program (wrappers m s.program depth) arguments)
      (fun _ q => q.gist.Trusted m true depth) fun _ _ => True :=
  .bind (.emit fun _ eq => eq ▸ rfl) fun _ =>
    .bind (steps_return honest (calls_return honest depth) _ _ here h) fun _ =>
    .pure fun _ hq => hq

end Run

end Sandbox

open Sandbox

/-- The process that begins the task can be trusted. -/
def Task.Trusted (m : Machine) (p : Sandbox) : Task → Prop
  | .steps depth _ => ∃ started, p.gist.Trusted m started depth
  | t => p.gist.Trusted m true t.depth

/-- Wherever an honest run comes, the process can be trusted. -/
theorem Startup.Comes.trusted {m : Machine} {s : Startup} {t : Task} {start p : Sandbox}
    (honest : s.Honest m start) (unstarted : start.gist.Trusted m false 2)
    (h : s.Comes m start t p) : t.Trusted m p := by
  have earlySteps : Contract (· = start) (takeSteps m (outerWrappers m s.program) s.early)
      (fun _ q => q.gist.Trusted m false 2) fun _ _ => True :=
    steps_return honest (calls_return honest 2) s.early start .early unstarted
  induction h with
  | early => exact ⟨false, unstarted⟩
  | routine early entered =>
      exact (enterRoutine_trusted s.request).returned (earlySteps.returned rfl early) entered
  | @late p q value early returned =>
      have opened : Contract (· = p) (enterRoutine m s.request)
          (fun _ r => r.gist.Trusted m true 2) fun _ _ => True :=
        (enterRoutine_trusted s.request).started_in (earlySteps.returned rfl early)
      have whole : Contract (· = p) (startMain m s.program s.routine s.request)
          (fun _ r => r.gist.Trusted m true 2) fun _ _ => True := by
        rw [startMain_eq]
        exact .bind_eq opened fun _ r entered hr => .bind
          (routine_returns honest _ _ r (.routine early entered) hr) fun _ => .pure fun _ hr => hr
      exact ⟨true, (gist_push q (e := .returned value) rfl).symm ▸ whole.returned rfl returned⟩
  | next comes leads ih =>
      cases leads with
      | stepOver taken =>
          obtain ⟨started, h⟩ := ih
          exact ⟨started, (step_returns honest (calls_return honest _) comes h).returned rfl taken⟩
      | stepInto calls received =>
          obtain ⟨started, h⟩ := ih
          have first : (true : Bool) = started :=
            (congrArg Option.isSome received).symm.trans h.received
          subst first
          exact h
      | init admitted =>
          obtain ⟨left, eq, h⟩ := admitInit_trusted.returned ih admitted
          cases eq
          exact ⟨true, (gist_push _ (e := .programInit _) rfl).symm ▸ h⟩
      | constructors admitted =>
          obtain ⟨left, eq, h⟩ := admitInit_trusted.returned ih admitted
          cases eq
          exact h
      | main saved => exact ⟨true, enterMain_trusted ih saved⟩
      | constructorOver called =>
          exact (constructor_returns honest (calls_return honest _) comes ih).returned rfl called
      | constructorInto logged =>
          have h := (idle_keeps (log_idle _ _)).returned ih logged
          exact ⟨true, (gist_push _ (e := .constructorCall _) rfl).symm ▸ h⟩
      | routineOver returned =>
          have call := calls_return honest 2 _ _ _ (.next comes .routineInto) ih
          exact call.returned rfl returned
      | routineInto => exact ih

end Confine
