import Confine.Proofs.Sandbox.Going

/-! # Every run comes to an end

A run in which a program is started is followed as far as it goes on.  Whatever the host grants and
whatever the program does, the run ends, and in one of the few ways in which a process can.
-/

namespace Confine.Sandbox

variable {m : Machine} {s : Startup} {received : Option Arguments} {isOpen : Bool} {α : Type}
  {ended : Ending → Sandbox → Prop}

namespace Going

theorem emit {e : Event} (passes : e.Passes m s) (plain : e.text = "")
    (other : e ≠ .emitSentinels) :
    Contract (Going m s received isOpen) (emit e) (fun _ => Going m s received isOpen) ended :=
  .emit fun _ h => h.push passes plain other

theorem idle {x : Run α} (h : Idle (fun _ => False) x) :
    Contract (Going m s received isOpen) x (fun _ => Going m s received isOpen) ended :=
  h.returns fun _ _ h still => h.still still

/-- A request of the set-up that fails is the last one. -/
theorem fails {p : Sandbox} {request : Event} {post : α → Sandbox → Prop}
    (h : Going m s received isOpen p) (failure : SetupFailure) (alive : p.strict = false)
    (fails : request.Fails m s failure.reason.status) :
    Contract (Still { p with trace := request :: p.trace }) (fatal failure) post
      (Closed m s isOpen) := by
  refine (fatal_contract failure _).consequence (fun _ hq => hq) (fun _ _ hq => hq) ?_
  rintro e q ⟨rfl, hq⟩
  have last : Closed m s isOpen (.exited failure.reason.status)
      { p with trace := .fatal failure.reason.status :: request :: p.trace } :=
    .failed rfl h.passes fails
  have ending : exitEnding p.strict failure.reason.status = .exited failure.reason.status := by
    rw [alive]
    rfl
  exact ending ▸ last.still hq

end Going

/-! ## Entering the restricted mode -/

theorem print_flowing (text : String) :
    Contract (Flowing m s received isOpen) (print text)
      (fun _ p => Flowing m s received isOpen p ∧ .printed text ∈ p.trace) (Closed m s isOpen) := by
  refine .read fun p => ?_
  extract_lets put
  have added : Contract (Flowing m s received isOpen) (put ())
      (fun _ p => Flowing m s received isOpen p ∧ .printed text ∈ p.trace) (Closed m s isOpen) :=
    fun p h => ⟨h.print text, List.mem_cons_self⟩
  split
  · refine .bind (systemCall_keeps ?_ ?_) fun _ => added
    · exact fun _ _ h still => h.still still
    · exact fun _ h => .killed h.passes
  · exact added

theorem prepareSentinels_going :
    Contract (Going m s received isOpen) (prepare m .emitSentinels emitSentinels)
      (fun _ => Going m s received isOpen) (Closed m s isOpen) := by
  have asked : Contract (Going m s received isOpen) (emit .emitSentinels)
      (fun _ => Flowing m s received isOpen) (Closed m s isOpen) :=
    .emit fun p h => h.toFlowing.push trivial rfl
  refine .bind asked fun _ => ?_
  split
  · refine .bind (print_flowing _) fun _ => .bind (.modify fun p h => ?_) fun _ =>
      Going.idle (writeErrors_idle _)
    exact ⟨h.1.flush, fun _ _ => h.2⟩
  · next absent => exact .pure fun p h => ⟨h, fun prepares => absurd prepares absent⟩

theorem prepareInput_going :
    Contract (Going m s received isOpen) (prepare m .primeInput primeInput)
      (fun _ => Going m s received isOpen) (Closed m s isOpen) := by
  refine .bind (Going.emit trivial rfl nofun) fun _ => ?_
  split
  · exact Going.idle primeInput_idle
  · exact .pure fun _ h => h

section Handed

variable (handed : s.Hands m)

include handed

theorem requestRestriction_going (arguments : Arguments) :
    Contract (Going m s (some arguments) isOpen) (requestRestriction m)
      (fun _ => Going m s (some arguments) isOpen) (Closed m s isOpen) := by
  have requested (granted : m.host.restriction.granted = true) :
      Contract (Going m s (some arguments) isOpen) (Sandbox.emit .enterRestrictedMode)
        (fun _ => Going m s (some arguments) isOpen) (Closed m s isOpen) :=
    Going.emit ⟨granted, handed⟩ rfl nofun
  unfold requestRestriction
  cases restriction : m.host.restriction with
  | nominal =>
      exact .bind (requested (by rw [restriction]; rfl)) fun _ => .pure fun _ h => h
  | strict =>
      refine .bind (requested (by rw [restriction]; rfl)) fun _ => .modify fun p h => ?_
      exact { h with strict := fun _ => ⟨rfl, restriction⟩ }
  | refused cause =>
      intro p h
      have alive : p.strict = false := by
        refine Bool.eq_false_iff.mpr fun strict => ?_
        have entered := (h.strict strict).2
        rw [restriction] at entered
        cases entered
      have refused : m.host.restriction.granted = false := by
        rw [restriction]
        rfl
      have request : Contract (· = p) (Sandbox.emit .enterRestrictedMode)
          (fun _ => Still { p with trace := .enterRestrictedMode :: p.trace })
          (Closed m s isOpen) :=
        .emit fun q eq => eq ▸ .refl _
      exact Contract.bind request (fun _ => h.fails (.restrictedMode cause) alive
        (.restriction refused handed)) p rfl

theorem enterRestrictedMode_going (arguments : Arguments) :
    Contract (Going m s (some arguments) isOpen) (enterRestrictedMode m)
      (fun _ => Going m s (some arguments) isOpen) (Closed m s isOpen) :=
  .bind prepareSentinels_going fun _ => .bind prepareInput_going fun _ =>
    .bind (requestRestriction_going handed arguments) fun _ => Going.idle (log_idle _ _)

end Handed

theorem locate_going (initSaved : Bool) :
    Contract (Going m s received isOpen) (InitCode.locate m initSaved)
      (fun _ => Going m s received isOpen) (Closed m s isOpen) := by
  unfold InitCode.locate
  split
  · exact .pure fun _ h => h
  · refine .map (.bind (Going.emit trivial rfl nofun) fun _ => ?_)
    split
    · exact .pure fun _ h => h
    · exact Going.steady.panic _

/-! ## Program code -/

/-- The process goes on when a wrapper returns. -/
def Continues (m : Machine) (s : Startup) (arguments : Arguments) (isOpen : Bool) (w : Wrappers) :
    Prop :=
  ∀ c passed, Contract (Going m s (some arguments) isOpen) (w.entered c passed)
    (fun _ => Going m s (some arguments) isOpen) (Closed m s isOpen)

section ProgramCode

variable {w : Wrappers} {arguments : Arguments} (hw : Continues m s arguments isOpen w)

include hw

theorem callWrapper_going (c : WrapperCall) :
    Contract (Going m s (some arguments) isOpen) (callWrapper (w.entered c))
      (fun _ => Going m s (some arguments) isOpen) (Closed m s isOpen) := by
  refine .read fun p => ?_
  split
  · exact hw c _
  · exact .pure fun _ h => h

theorem takeSteps_going (steps : List Step) :
    Contract (Going m s (some arguments) isOpen) (takeSteps m w steps)
      (fun _ => Going m s (some arguments) isOpen) (Closed m s isOpen) :=
  Going.steady.takeSteps Going.serves steps fun _ _ c _ => callWrapper_going hw c

theorem programMain_going (handed : s.Hands m) (program : Program) (passed : Arguments) :
    Contract (Going m s (some arguments) isOpen) (programMain m program w passed)
      (fun _ => Going m s (some arguments) isOpen) (Closed m s isOpen) :=
  .bind (Going.emit handed rfl nofun) fun _ => .bind (takeSteps_going hw _) fun _ =>
    .pure fun _ h => h

theorem runInitCode_going (program : Program) (code : InitCode) (passed : Arguments) :
    Contract (Going m s (some arguments) isOpen) (runInitCode m program w code passed)
      (fun _ => Going m s (some arguments) isOpen) (Closed m s isOpen) := by
  cases code with
  | program => exact .bind (Going.emit trivial rfl nofun) fun _ => takeSteps_going hw _
  | constructors c =>
      exact .forM fun call _ => .bind (Going.idle (log_idle _ _)) fun _ =>
        .bind (Going.emit trivial rfl nofun) fun _ => takeSteps_going hw _

end ProgramCode

/-! ## The wrappers -/

section Wrappers

variable {arguments : Arguments}

theorem modifyContext_going {change : Context → Context}
    (same : ∀ c, (change c).allocator = c.allocator) :
    Contract (Going m s received isOpen) (modifyContext change)
      (fun _ => Going m s received isOpen) ended := by
  refine .modify fun p h => { h with reserves := ?_, provisioned := ?_ }
  · intro present
    exact h.reserves (same p.context ▸ present)
  · intro started
    exact (congrArg Option.isSome (same p.context)).trans (h.provisioned started)

theorem wrapInit_going (handed : s.Hands m) {runInit : InitCode → Arguments → Run Unit}
    (passed : Arguments)
    (init : ∀ code, Contract (Going m s (some arguments) isOpen) (runInit code passed)
      (fun _ => Going m s (some arguments) isOpen) (Closed m s isOpen)) :
    Contract (Going m s (some arguments) isOpen) (wrapInit m runInit passed)
      (fun _ => Going m s (some arguments) isOpen) (Closed m s isOpen) := by
  refine .read fun p => .bind (modifyContext_going fun _ => rfl) fun _ => ?_
  split
  · exact Going.idle (log_idle _ _)
  · exact .bind (locate_going _) fun code => .bind (enterRestrictedMode_going handed _) fun _ =>
      .bind (modifyContext_going fun _ => rfl) fun _ => init code

theorem exit_going {post : α → Sandbox → Prop} (status : Int) :
    Contract (Going m s received isOpen) (exit status) post (Closed m s isOpen) := by
  intro p h
  refine .exit rfl h.passes ⟨fun opened => ?_, h.announced.push nofun⟩
  refine (h.arrives opened).trans ?_
  exact (String.append_empty.symm.trans (printedText_push (.exit status) p).symm)

theorem wrapMain_going {programMain : Arguments → Run Int} {post : Unit → Sandbox → Prop}
    (passed : Arguments)
    (main : Contract (Going m s (some arguments) isOpen) (programMain passed)
      (fun _ => Going m s (some arguments) isOpen) (Closed m s isOpen)) :
    Contract (Going m s (some arguments) isOpen) (wrapMain m programMain passed) post
      (Closed m s isOpen) := by
  refine .read fun p => .bind (modifyContext_going fun _ => rfl) fun _ => ?_
  split
  · exact .bind main fun status => .bind Going.steady.logHeapUsage fun _ => exit_going status
  · exact .bind (Going.idle (log_idle _ _)) fun _ => exit_going _

theorem wrappers_going (handed : s.Hands m) (program : Program) (depth : Nat) :
    Continues m s arguments isOpen (wrappers m program depth) := by
  induction depth with
  | zero =>
      rintro (_ | _) passed <;> simp only [wrappers, Wrappers.entered]
      · exact wrapInit_going handed _ fun _ => .pure fun _ h => h
      · exact wrapMain_going _ (.pure fun _ h => h)
  | succ depth ih =>
      rintro (_ | _) passed <;> simp only [wrappers, Wrappers.entered]
      · exact wrapInit_going handed _ fun code => runInitCode_going ih _ code _
      · exact wrapMain_going _ (programMain_going ih handed _ _)

end Wrappers

/-! ## The whole run -/

/-- The start of a program is not begun, or was not handed to the start routine yet. -/
abbrev Early (m : Machine) (s : Startup) (isOpen : Bool) : Sandbox → Prop :=
  Going m s none isOpen

theorem earlySteps_going :
    Contract (Early m s isOpen) (takeSteps m (outerWrappers m s.program) s.early)
      (fun _ => Early m s isOpen) (Closed m s isOpen) := by
  refine Going.steady.takeSteps Going.serves _ fun _ _ c _ => .get_bind fun p h => ?_
  simp only [h.receipt]
  exact .pure fun q eq => eq ▸ h

theorem resolveStart_going :
    Contract (fun p => Early m s isOpen p ∧ p.context.allocator.isSome = true) (resolveStart m)
      (fun _ p => m.host.lookup = .found ∧
        Early m s isOpen p ∧ p.context.allocator.isSome = true) (Closed m s isOpen) := by
  rintro p ⟨h, present⟩
  have alive : p.strict = false :=
    Bool.eq_false_iff.mpr fun strict => nomatch (h.strict strict).1
  have request : Contract (· = p) (Sandbox.emit .resolveStart)
      (fun _ => Still { p with trace := .resolveStart :: p.trace }) (Closed m s isOpen) :=
    .emit fun q eq => eq ▸ .refl _
  refine Contract.bind request (fun _ => ?_) p rfl
  split
  · next missing => exact h.fails .libraryNotFound alive (.lookup (by rw [missing]; nofun))
  · next missing => exact h.fails .symbolNotFound alive (.lookup (by rw [missing]; nofun))
  · next found =>
      have resolved {q : Sandbox} (hq : Still { p with trace := .resolveStart :: p.trace } q) :
          m.host.lookup = .found ∧ Early m s isOpen q ∧ q.context.allocator.isSome = true :=
        ⟨found, (h.push (e := .resolveStart) found rfl nofun).still hq,
          hq.provisioned.trans present⟩
      split
      · exact ((log_idle _ _).returns fun _ _ => Still.trans).imp fun _ _ => resolved
      · exact .pure fun _ => resolved

theorem Going.receive {p : Sandbox} (h : Early m s isOpen p)
    (present : p.context.allocator.isSome = true) (arguments : Arguments) :
    Going m s (some arguments) isOpen { p with received := some arguments } :=
  { h with
    receipt := rfl
    provisioned := fun _ => present
    strict := fun strict => nomatch (h.strict strict).1 }

theorem routine_going (arguments : Arguments) (handed : s.calls ≠ [] → s.Hands m) :
    Contract (Going m s (some arguments) isOpen)
      (s.routine.calls.forM ((outerWrappers m s.program).entered · arguments))
      (fun _ => Going m s (some arguments) isOpen) (Closed m s isOpen) := by
  refine .forM fun c hc => wrappers_going (handed ?_) _ _ c _
  exact List.ne_nil_of_mem (List.mem_append_left _ hc)

theorem lateSteps_going (arguments : Arguments) (handed : s.calls ≠ [] → s.Hands m) :
    Contract (Going m s (some arguments) isOpen)
      (takeSteps m (outerWrappers m s.program) s.late)
      (fun _ => Going m s (some arguments) isOpen) (Closed m s isOpen) := by
  refine Going.steady.takeSteps Going.serves _ fun step hs c hstep =>
    callWrapper_going (wrappers_going (handed ?_) _ _) c
  exact List.ne_nil_of_mem (List.mem_append_right _ (List.mem_filterMap.mpr ⟨step, hs, hstep⟩))

theorem runStartRoutine_going (found : m.host.lookup = .found) :
    Contract (fun p => Early m s isOpen p ∧ p.context.allocator.isSome = true)
      (runStartRoutine m s.program s.routine s.request)
      (fun _ p => (s.calls ≠ [] → s.Hands m) ∧ Going m s (some s.request.arguments) isOpen p)
      (Closed m s isOpen) := by
  rintro p ⟨h, present⟩
  have handed (calls : s.calls ≠ []) : s.Hands m := ⟨h.reserves present, found, calls⟩
  let starting : Sandbox := { p with trace := .startMain s.request.call :: p.trace }
  have entered : Contract (· = p) (Sandbox.emit (.startMain s.request.call))
      (fun _ => (· = starting)) (Closed m s isOpen) :=
    .emit fun q eq => eq ▸ rfl
  have received : Contract (· = starting)
      (modify fun p => { p with received := some s.request.arguments })
      (fun _ => Going m s (some s.request.arguments) isOpen) (Closed m s isOpen) :=
    .modify fun q eq => eq ▸ (h.push (e := .startMain s.request.call) trivial rfl nofun).receive
      present _
  exact Contract.bind entered (fun _ => .bind received fun _ => .bind (routine_going _ handed)
    fun _ => .pure fun _ hq => ⟨handed, hq⟩) p rfl

theorem startMain_going :
    Contract (Early m s isOpen) (startMain m s.program s.routine s.request)
      (fun _ p => (s.calls ≠ [] → s.Hands m) ∧ Going m s (some s.request.arguments) isOpen p)
      (Closed m s isOpen) := by
  have provisioned : Contract (Early m s isOpen) (discard (provision m))
      (fun _ p => Early m s isOpen p ∧ p.context.allocator.isSome = true) (Closed m s isOpen) :=
    .discard (Going.steady.provision.imp fun _ _ h => ⟨h.1, by rw [h.2]; rfl⟩)
  refine .bind (Going.idle (initLogger_idle _)) fun _ =>
    .bind (modifyContext_going fun _ => rfl) fun _ => .bind provisioned fun _ =>
    .bind resolveStart_going fun _ => .given fun found => .bind ?_ fun _ =>
    runStartRoutine_going found
  exact (log_idle _ _).returns fun _ _ h still =>
    ⟨h.1.still still, still.provisioned.trans h.2⟩

theorem finish_going {post : Unit → Sandbox → Prop} :
    Contract (Going m s received isOpen) finish post (Closed m s isOpen) := by
  have flushed : Contract (Going m s received isOpen) flush
      (fun _ p => Going m s received isOpen p ∧ Delivered m isOpen p) (Closed m s isOpen) :=
    .modify fun p h => ⟨⟨h.flush, h.announced⟩, h.delivered⟩
  have alive : Contract (fun p => Going m s received isOpen p ∧ Delivered m isOpen p) systemCall
      (fun _ p => Going m s received isOpen p ∧ Delivered m isOpen p) (Closed m s isOpen) := by
    apply systemCall_keeps
    · exact fun _ _ h still => ⟨h.1.still still, h.2.still still⟩
    · exact fun _ h => .killed h.1.passes
  exact .bind (Going.emit trivial rfl nofun) fun _ => .bind flushed fun _ => .bind alive fun _ =>
    .throw fun p h => .left h.1.passes h.2

/-- A run in which a program is started ends, and leaves a process that has ended. -/
theorem runStartup_going :
    Contract (Early m s isOpen) (runStartup m s) (fun _ _ => False) (Closed m s isOpen) :=
  .bind earlySteps_going fun _ => .bind startMain_going fun _ => .given fun handed =>
    .bind (Going.emit trivial rfl nofun) fun _ => .bind (lateSteps_going _ handed) fun _ =>
    finish_going

theorem fresh_early (m : Machine) (s : Startup) (input : InputSource) (isOpen errorsOpen : Bool) :
    Early m s isOpen (fresh input isOpen errorsOpen) where
  passes := nofun
  receipt := rfl
  descriptor := rfl
  output := rfl
  reserves := nofun
  provisioned := nofun
  strict := nofun
  announced := fun _ => nofun

/-- Every run in which a program is started ends. -/
theorem conclude_closed (m : Machine) (s : Startup) (input : InputSource)
    (isOpen errorsOpen : Bool) :
    ∃ e p, conclude (runStartup m s) (fresh input isOpen errorsOpen) = (some e, p) ∧
      Closed m s isOpen e p := by
  obtain ⟨e, p, ends, closed⟩ := runStartup_going.ends (fresh_early m s input isOpen errorsOpen)
  exact ⟨e, p, conclude_error ends, closed⟩

end Confine.Sandbox
