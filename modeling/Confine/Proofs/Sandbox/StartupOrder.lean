import Confine.Proofs.Sandbox.Course
import Confine.Proofs.Sandbox.Wrappers

/-! # The order in which a program is started

A run of a process is followed from its first step to its end: the steps before the start, the
opening, the calls that the start routine makes, and the steps afterwards.
-/

namespace Confine.Sandbox

variable {m : Machine} {s : Startup}

theorem ordered_of_opening {v : View} (h : v.events <+: s.opening m) : Ordered m s v := by
  have stage : ∀ e ∈ v.events, e.isStage = true :=
    fun e he => isStage_of_mem_stages (opening_known.subset (h.subset he))
  exact {
    stages := by
      rw [List.filter_eq_self.mpr stage]
      exact h.trans opening_known
    mains := by
      rw [List.filter_eq_nil_iff.mpr fun e he => by simp [isMain_of_isStage (stage e he)]]
      exact List.nil_prefix
    confined := fun _ ⟨a, ha⟩ => by cases stage _ ha }

/-! ## The opening -/

/-- No program is started yet, but the heap may be reserved. -/
structure Unstarted (m : Machine) (v : View) : Prop where
  received : v.received = none
  restricted : v.restricted = false
  events : v.events =
    if v.provisioned then [.reserveHeap m.environment.requestedHeapSize] else []

/-- The program's functions are saved. -/
structure Saved (m : Machine) (s : Startup) (v : View) : Prop extends Unstarted m v where
  initSaved : v.initSaved = s.request.hasInit
  mainSaved : v.mainSaved = true

/-- The program's functions are saved, and the process went through this many stages. -/
structure Starting (m : Machine) (s : Startup) (count : Nat) (v : View) : Prop where
  provisioned : v.provisioned = true
  restricted : v.restricted = false
  initSaved : v.initSaved = s.request.hasInit
  mainSaved : v.mainSaved = true
  events : v.events = (s.opening m).take count

theorem Unstarted.stable : Stable m (Unstarted m) (Ordered m s) where
  closing v h := by
    refine ordered_of_opening ?_
    rw [h.events]
    split
    · exact ⟨_, rfl⟩
    · exact List.nil_prefix
  reserved v h missing :=
    ⟨h.received, h.restricted, by simp [View.push, h.events, missing]⟩
  refused v h missing :=
    ordered_of_opening (by simp [View.push, h.events, missing, Startup.opening])

theorem Saved.stable : Stable m (Saved m s) (Ordered m s) where
  closing v h := Unstarted.stable.closing v h.toUnstarted
  reserved v h missing :=
    { Unstarted.stable (s := s).reserved v h.toUnstarted missing with
      initSaved := h.initSaved
      mainSaved := h.mainSaved }
  refused v h := Unstarted.stable.refused v h.toUnstarted

theorem Saved.starting {v : View} (h : Saved m s v) (provisioned : v.provisioned = true) :
    Starting m s 1 v where
  provisioned := provisioned
  restricted := h.restricted
  initSaved := h.initSaved
  mainSaved := h.mainSaved
  events := by rw [h.events, if_pos provisioned]; rfl

namespace Starting

variable {count : Nat} {v : View}

theorem ordered (v : View) (h : Starting m s count v) : Ordered m s v :=
  ordered_of_opening (h.events ▸ List.take_prefix count _)

theorem push {e : Event} (h : Starting m s count v)
    (next : (s.opening m).take count ++ [e] = (s.opening m).take (count + 1)) :
    Starting m s (count + 1) (v.push e) :=
  { h with events := (congrArg (· ++ [e]) h.events).trans next }

theorem waiting (h : Starting m s 3 v) :
    Waiting m s 1 { v with received := some s.request.arguments } where
  received := rfl
  provisioned := h.provisioned
  stages := by simp [h.events, Startup.opening, Event.isStage]
  known := opening_known
  mains := by simp [h.events, h.mainSaved, Startup.opening, Event.isMain]
  unentered _ _ := h.mainSaved
  entered _ restricted := by simp [h.restricted] at restricted
  mode := h.restricted
  left := by simp [h.mainSaved]
  initSaved := h.initSaved

end Starting

theorem resolveStart_triple :
    Triple (Starting m s 1) (resolveStart m) (fun _ => Starting m s 2) (Ordered m s) := by
  refine .bind (.emit rfl fun v h => h.push rfl) fun _ => ?_
  split
  · exact (fatal_aborts _).triple Starting.ordered
  · exact (fatal_aborts _).triple Starting.ordered
  · split
    · exact (log_silent _ _).keeps Starting.ordered
    · exact .pure fun v h => h

/-! ## The calls of the wrappers -/

/-- The wrappers are still to be called from outside the program, in this order. -/
inductive Ready (m : Machine) (s : Startup) (rest : List WrapperCall) (v : View) : Prop
  | first (h : Waiting m s 1 v) (guarded : s.InitFirst) (next : rest.head? = some .init)
  | underway (h : Underway m s 2 v)

namespace Ready

variable {rest : List WrapperCall} {v : View}

theorem tracks : ∀ v, Ready m s rest v → ∃ done, Tracks m s done v
  | _, first h _ _ => ⟨_, h.toTracks⟩
  | v, underway h => h.tracks v

theorem ordered (v : View) (h : Ready m s rest v) : Ordered m s v :=
  (h.tracks v).elim fun _ t => t.ordered

theorem received (v : View) (h : Ready m s rest v) : v.received = some s.request.arguments :=
  (h.tracks v).elim fun _ t => t.received

end Ready

theorem head?_of_initFirst (h : s.InitFirst) : s.calls.head? = some .init := by
  unfold Startup.InitFirst at h
  cases hcalls : s.calls with
  | nil => simp [hcalls] at h
  | cons c rest =>
      cases c with
      | init => rfl
      | main => simp [hcalls] at h

theorem Starting.ready {v : View} (h : Starting m s 3 v) :
    Ready m s s.calls { v with received := some s.request.arguments } := by
  by_cases guarded : s.InitFirst
  · exact .first h.waiting guarded (head?_of_initFirst guarded)
  · exact .underway (.waiting h.waiting guarded)

section Calls

variable {rest : List WrapperCall}

theorem outerWrappers_triple (c : WrapperCall) :
    Triple (Ready m s (c :: rest)) ((outerWrappers m s.program).entered c s.request.arguments)
      (fun _ => Ready m s rest) (Ordered m s) := by
  have underway (c : WrapperCall) : Triple (Underway m s 2)
      ((outerWrappers m s.program).entered c s.request.arguments) (fun _ => Ready m s rest)
      (Ordered m s) :=
    (wrappers_underway 2 c).imp fun _ _ h => .underway h
  rintro p (⟨h, guarded, next⟩ | h)
  · cases next
    exact (initWrapper_waiting.imp fun _ _ h => .underway h) p h
  · exact underway c p h

theorem routine_triple (calls : List WrapperCall) :
    Triple (Ready m s (calls ++ rest))
      (calls.forM ((outerWrappers m s.program).entered · s.request.arguments))
      (fun _ => Ready m s rest) (Ordered m s) := by
  induction calls with
  | nil => exact .pure fun _ h => h
  | cons c calls ih => exact .bind (outerWrappers_triple c) fun _ => ih

theorem lateStep_triple (step : Step) (steps : List Step) :
    Triple (Ready m s ((step :: steps).filterMap Step.wrapperCall?))
      (takeStep m (outerWrappers m s.program) step)
      (fun _ => Ready m s (steps.filterMap Step.wrapperCall?)) (Ordered m s) := by
  refine takeStep_of_perform ?_
  cases hstep : step.wrapperCall? with
  | none =>
      rw [List.filterMap_cons_none hstep]
      exact (Tracks.stable Ready.tracks).perform _ hstep
  | some c =>
      rw [List.filterMap_cons_some hstep]
      exact perform_call hstep (callWrapper_triple Ready.received (outerWrappers_triple c))

theorem lateSteps_triple (steps : List Step) :
    Triple (Ready m s (steps.filterMap Step.wrapperCall?))
      (takeSteps m (outerWrappers m s.program) steps) (fun _ => Ordered m s) (Ordered m s) := by
  induction steps with
  | nil => exact .pure Ready.ordered
  | cons step steps ih => exact .bind (lateStep_triple step steps) fun _ => ih

end Calls

/-! ## The whole run -/

theorem earlyStep_triple (w : Wrappers) (step : Step) :
    Triple (Unstarted m) (takeStep m w step) (fun _ => Unstarted m) (Ordered m s) := by
  -- Before the start there are no wrappers, so the calls of them do nothing.
  refine Unstarted.stable.takeStep step fun c => .get_bind fun p hp => ?_
  have received : p.received = none := hp.received
  simp only [received]
  exact .pure fun v hv => hv ▸ hp

theorem earlySteps_triple (w : Wrappers) (steps : List Step) :
    Triple (Unstarted m) (takeSteps m w steps) (fun _ => Unstarted m) (Ordered m s) :=
  .forM fun step _ => earlyStep_triple w step

theorem enterRoutine_triple :
    Triple (Unstarted m) (enterRoutine m s.request) (fun _ => Ready m s s.calls)
      (Ordered m s) := by
  have save : Triple (Unstarted m)
      (modifyContext ({ · with initSaved := s.request.hasInit, mainSaved := true }))
      (fun _ => Saved m s) (Ordered m s) :=
    .modify fun p h => ⟨⟨h.received, h.restricted, h.events⟩, rfl, rfl⟩
  have reserve : Triple (Saved m s) (discard (provision m)) (fun _ => Starting m s 1)
      (Ordered m s) :=
    .discard (Saved.stable.provision.imp fun _ _ h => h.1.starting h.2)
  have started : Triple (Starting m s 2) (emit (.startMain s.request.call))
      (fun _ => Starting m s 3) (Ordered m s) :=
    .emit rfl fun v h => h.push rfl
  exact .bind ((initLogger_silent _).keeps Unstarted.stable.closing) fun _ => .bind save fun _ =>
    .bind reserve fun _ => .bind resolveStart_triple fun _ =>
    .bind ((log_silent _ _).keeps Starting.ordered) fun _ => .bind started fun _ =>
    .modify fun p h => h.ready

theorem startMain_triple :
    Triple (Unstarted m) (startMain m s.program s.routine s.request)
      (fun _ => Ready m s (s.late.filterMap Step.wrapperCall?)) (Ordered m s) := by
  rw [startMain_eq]
  exact .bind enterRoutine_triple fun _ => .bind (routine_triple _) fun _ => .pure fun _ h => h

theorem runStartup_triple :
    Triple (Unstarted m) (runStartup m s) (fun _ => Ordered m s) (Ordered m s) := by
  have finish : Triple (Ordered m s) finish (fun _ => Ordered m s) (Ordered m s) :=
    (Aborts.after (.emit rfl) fun _ => normalExit_aborts _).triple fun _ h => h
  exact .bind (earlySteps_triple _ s.early) fun _ => .bind startMain_triple fun _ =>
    .bind ((Silent.emit rfl).keeps Ready.ordered) fun _ => .bind (lateSteps_triple s.late) fun _ =>
    finish

theorem filter_notable {q : Event → Bool} (es : List Event)
    (h : ∀ e, q e = true → e.isNotable = true) :
    (es.filter Event.isNotable).filter q = es.filter q := by
  rw [List.filter_filter]
  refine List.filter_congr fun e _ => ?_
  cases he : q e with
  | true => simp [h e he]
  | false => rfl

/-- Notable events decide whether a start goes in order. -/
theorem inOrder_of_notable {es : List Event} (h : s.InOrder m (es.filter Event.isNotable)) :
    s.InOrder m es where
  stages := filter_notable es (fun _ => isNotable_of_isStage) ▸ h.stages
  mains := filter_notable es (fun _ => isNotable_of_isMain) ▸ h.mains
  confined := by
    rintro first ⟨a, ha⟩
    obtain ⟨granted, entered⟩ := h.confined first ⟨a, List.mem_filter.mpr ⟨ha, rfl⟩⟩
    -- An event that is not notable is no entry of the main function.
    have other (e : Event) : (!e.isNotable || !e.isMain) = !e.isMain := by
      cases main : e.isMain <;> simp [Event.isNotable, main]
    rw [List.takeWhile_filter] at entered
    simp only [other] at entered
    exact ⟨granted, (List.mem_filter.mp entered).1⟩

theorem inOrder_of_conclude {input : InputSource} {outputOpen errorsOpen : Bool} {p : Sandbox}
    {ending : Option Ending}
    (run : conclude (runStartup m s) (fresh input outputOpen errorsOpen) = (ending, p)) :
    s.InOrder m p.events := by
  have unstarted : Unstarted m (fresh input outputOpen errorsOpen).view := ⟨rfl, rfl, rfl⟩
  have outcome := runStartup_triple (s := s) _ unstarted
  unfold conclude at run
  split at outcome <;> next eq =>
    rw [eq] at run
    cases run
    exact inOrder_of_notable outcome

/-- The start of a program goes in order, whatever the host grants, whatever calls the start routine
and the program make, and however the process ends. -/
theorem startup_in_order (m : Machine) (s : Startup) (input : InputSource)
    (outputOpen errorsOpen : Bool) :
    s.Orderly m (conclude (runStartup m s) (.fresh input outputOpen errorsOpen)).2.events :=
  orderly_of_inOrder (inOrder_of_conclude rfl)

/-- A program that calls the wrappers from all of its code goes through all stages once. -/
example :
    let m : Machine := {
      environment := ⟨none, none⟩, heapBase := 2 ^ 32, startAddress := 0, panics := .recorded
      host := {
        lookup := .found, announcesLookup := false, loadBias := 0, dynamicSection := []
        constructorWords := [], preparesStreams := true, restriction := .strict } }
    let calls : List Step := [.callInit, .callMain]
    let s : Startup := {
      early := calls, program := { initSteps := calls, mainSteps := calls, mainStatus := 0 }
      routine := runtimeStart, request := ⟨⟨1, 0, 0⟩, true, false, false, 0⟩, late := calls }
    (conclude (runStartup m s) (.fresh .closed true true)).2.events.filter Event.isNotable =
      s.stages m ++ [.programMain ⟨1, 0, 0⟩] :=
  rfl

end Confine.Sandbox
