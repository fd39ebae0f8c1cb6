import Confine.Proofs.Sandbox.Steady
import Confine.Proofs.Sandbox.Triple

/-! # What the steps of a program do to the start of programs

Printing, logging, reading and allocating are silent, with one exception: the first need of the heap
reserves it.  So a step that calls no wrapper keeps every condition on the view that the reservation
keeps.
-/

namespace Confine.Sandbox

/-! ## Primitives -/

section Primitives

variable {α : Type}

theorem writeErrors_silent (lines : List String) : Silent (writeErrors lines) :=
  (writeErrors_idle lines).silent

theorem log_silent (level : Log.Level) (text : String) : Silent (log level text) :=
  (log_idle level text).silent

theorem initLogger_silent (verbosity : Log.Verbosity) : Silent (initLogger verbosity) :=
  (initLogger_idle verbosity).silent

theorem systemCall_silent : Silent systemCall :=
  (systemCall_idle trivial).silent

theorem print_silent (text : String) : Silent (print text) := by
  refine .get_bind fun p => ?_
  extract_lets put
  have silent : Silent (put ()) := .bind (.modify fun _ => rfl) fun _ => .emit rfl
  split
  · exact systemCall_silent.bind fun _ => silent
  · exact silent

theorem flush_silent : Silent flush :=
  .modify fun _ => rfl

theorem restrictedExit_aborts (status : Int) : Aborts (restrictedExit status : Run α) :=
  .after flush_silent fun _ => .throw

theorem normalExit_aborts (status : Int) : Aborts (normalExit status : Run α) :=
  .after flush_silent fun _ => .after systemCall_silent fun _ => .throw

theorem exit_aborts (status : Int) : Aborts (exit status : Run α) :=
  .after (.emit rfl) fun _ => restrictedExit_aborts _

theorem fatal_aborts (failure : SetupFailure) : Aborts (fatal failure : Run α) :=
  .after (.emit rfl) fun _ => .after (log_silent _ _) fun _ => .after systemCall_silent fun _ =>
    .throw

variable (m : Machine)

theorem panic_aborts (cause : Panic) : Aborts (panic m cause : Run α) := by
  unfold panic
  split
  · exact .after (.emit rfl) fun _ => .throw
  · exact .after (writeErrors_silent _) fun _ => restrictedExit_aborts _

theorem logHeapUsage_silent : Silent (logHeapUsage m) := by
  refine .get_bind fun p => ?_
  split
  · exact .pure
  · split
    · exact .pure
    · split
      · exact (panic_aborts m _).silent
      · exact Aborts.throw.silent
      · exact log_silent _ _

end Primitives

/-! ## Steps -/

/-- The reservation of the heap keeps `pre`, and a process that ends before it or because of it ends
in `ended`. -/
structure Stable (m : Machine) (pre ended : View → Prop) : Prop where
  closing : ∀ v, pre v → ended v
  reserved : ∀ v, pre v → v.provisioned = false →
    pre { v.push (.reserveHeap m.environment.requestedHeapSize) with provisioned := true }
  refused : ∀ v, pre v → v.provisioned = false →
    ended (v.push (.reserveHeap m.environment.requestedHeapSize))

namespace Stable

variable {m : Machine} {w : Wrappers} {pre post ended : View → Prop}

/-- Of all that a step can do, the view has the reservation of the heap alone. -/
theorem steady (h : Stable m pre ended) :
    Steady m (fun p => pre p.view) fun _ p => ended p.view where
  still p q hp still := still.view ▸ hp
  closed e p q he still := still.view ▸ he
  killed p hp := h.closing _ hp
  never p hp := h.closing _ hp
  left p status hp := h.closing _ hp
  panicked p cause hp := by
    simpa [view, events, Event.isNotable, Event.isStage, Event.isMain] using h.closing _ hp
  stepped p result hp := by
    simpa [view, events, Event.isNotable, Event.isStage, Event.isMain] using hp
  printed p text hp := by
    simpa [view, events, Event.isNotable, Event.isStage, Event.isMain] using hp
  reserved p heap hp missing granted := by
    have added := h.reserved _ hp (by simp [view, missing])
    simpa [view, events, View.push, Event.isNotable, Event.isStage] using added
  refused p cause hp missing refused := by
    have added := h.refused _ hp (by simp [view, missing])
    simpa [view, events, View.push, Event.isNotable, Event.isStage, Event.isMain] using added

theorem serves (request : Request Nat) :
    Serves (fun p => pre p.view) request (fun p => pre p.view) := by
  intro p a hp present
  have same : (p.served a request).view = p.view := by simp [view, served, present, events]
  rwa [same]

theorem provision (h : Stable m pre ended) :
    Triple pre (provision m) (fun _ v => pre v ∧ v.provisioned = true) ended :=
  h.steady.provision.imp fun _ p hp => ⟨hp.1, by simp [view, hp.2]⟩

theorem perform (h : Stable m pre ended) (w : Wrappers) {step : Step}
    (hstep : step.wrapperCall? = none) :
    Triple pre (perform m w step) (fun _ => pre) ended :=
  fun p hp => h.steady.perform h.steady w hstep hp (fun _ hq => hq) (fun r _ => serves r) p rfl

end Stable

section Steps

variable {m : Machine} {w : Wrappers} {step : Step} {pre post ended : View → Prop}

theorem perform_call {c : WrapperCall} (hstep : step.wrapperCall? = some c)
    (h : Triple pre (callWrapper (w.entered c)) (fun _ => post) ended) :
    Triple pre (perform m w step) (fun _ => post) ended :=
  Steady.perform_call hstep h

theorem countStep_keeps (n : Nat) :
    Triple pre (modify fun p => { p with nextStep := n }) (fun _ => pre) ended :=
  .modify fun _ hp => hp

theorem takeStep_of_perform (h : Triple pre (perform m w step) (fun _ => post) ended) :
    Triple pre (takeStep m w step) (fun _ => post) ended := by
  refine Steady.takeStep_of_perform (fun p q hp still => still.view ▸ hp) (fun p result hp => ?_)
    fun p hp => Contract.started_in h hp
  simpa [view, events, Event.isNotable, Event.isStage, Event.isMain] using hp

theorem Stable.takeStep (h : Stable m pre ended) (step : Step)
    (calls : ∀ c, Triple pre (callWrapper (w.entered c)) (fun _ => pre) ended) :
    Triple pre (takeStep m w step) (fun _ => pre) ended := by
  apply takeStep_of_perform
  cases hstep : step.wrapperCall? with
  | none => exact h.perform w hstep
  | some c => exact perform_call hstep (calls c)

theorem Stable.takeSteps (h : Stable m pre ended) (steps : List Step)
    (calls : ∀ c, Triple pre (callWrapper (w.entered c)) (fun _ => pre) ended) :
    Triple pre (takeSteps m w steps) (fun _ => pre) ended :=
  .forM fun step _ => h.takeStep step calls

end Steps

end Confine.Sandbox
