import Confine.Proofs.Sandbox.Stages

/-! # What the wrappers do to the start of a program

A wrapper may be called at any time, also from within the program code that a wrapper runs.  So the
wrappers are followed by induction on the number of times that program code can still be entered,
first in a process that entered the restricted mode, then in one that may not have.
-/

namespace Confine.Sandbox

variable {m : Machine} {s : Startup} {restricted : Bool} {done : List Event} {depth : Nat}

/-- The process went through the stages in `done`, and `depth` bounds the number of times that the
main function is entered from now on. -/
structure Reached (m : Machine) (s : Startup) (restricted : Bool) (done : List Event) (depth : Nat)
    (v : View) : Prop extends Tracks m s done v where
  mode : v.restricted = restricted
  left : v.mainSaved.toNat ≤ depth

/-- The init wrapper was not called yet. -/
structure Waiting (m : Machine) (s : Startup) (depth : Nat) (v : View) : Prop
    extends Reached m s false (s.opening m) depth v where
  initSaved : v.initSaved = s.request.hasInit

/-- Program code can be entered `depth` times more.  Once the init wrapper has returned, the process
went through all stages. -/
inductive Underway (m : Machine) (s : Startup) : Nat → View → Prop
  | waiting {depth : Nat} {v : View} (h : Waiting m s depth v) (unguarded : ¬ s.InitFirst) :
      Underway m s (depth + 1) v
  | entered {depth : Nat} {v : View} (h : Reached m s true (s.stages m) depth v) :
      Underway m s depth v

namespace Reached

theorem tracks (v : View) (h : Reached m s restricted done depth v) : ∃ done, Tracks m s done v :=
  ⟨done, h.toTracks⟩

theorem deeper {v : View} (h : Reached m s restricted done depth v) :
    Reached m s restricted done (depth + 1) v :=
  { h with left := Nat.le_succ_of_le h.left }

theorem push_triple {e : Event} (known : done ++ [e] <+: s.stages m) :
    Triple (Reached m s restricted done depth) (emit e)
      (fun _ => Reached m s restricted (done ++ [e]) depth) (Ordered m s) := by
  have stage : e.isStage = true := isStage_of_mem_stages (known.subset (by simp))
  exact .emit (isNotable_of_isStage stage) fun v h => ⟨h.push known, h.mode, h.left⟩

theorem enterMain {v : View} (h : Reached m s restricted done (depth + 1) v)
    (saved : v.mainSaved = true) (confined : s.InitFirst → restricted = true) :
    Reached m s restricted done depth
      ({ v with mainSaved := false }.push (.programMain s.request.arguments)) where
  toTracks := h.toTracks.enterMain saved fun first => h.mode.trans (confined first)
  mode := h.mode
  left := Nat.zero_le _

end Reached

/-! ## Entering the restricted mode -/

theorem locate_triple :
    Triple (Reached m s false (s.opening m) depth) (InitCode.locate m s.request.hasInit)
      (fun code v => s.initCode? m = some code ∧
        Reached m s false (s.opening m ++ s.locating) depth v) (Ordered m s) := by
  unfold InitCode.locate
  split
  · next legacy =>
      refine .pure fun v h => ⟨by simp [Startup.initCode?, legacy], ?_⟩
      simpa [Startup.locating, legacy] using h
  · next modern =>
      have locating : s.locating = [.locateConstructors] := by simp [Startup.locating, modern]
      have known : s.opening m ++ [.locateConstructors] <+: s.stages m :=
        .trans ⟨[.emitSentinels, .primeInput, .enterRestrictedMode], by
          rw [Startup.entering, locating]⟩ entering_known
      refine .map (.bind (Reached.push_triple known) fun _ => ?_)
      split
      · next c eq =>
          refine .pure fun v h => ⟨by simp [Startup.initCode?, modern, eq, Except.toOption], ?_⟩
          rwa [locating]
      · exact (panic_aborts m _).triple fun v h => h.ordered

theorem emitSentinels_silent : Silent emitSentinels :=
  (print_silent _).bind fun _ => flush_silent.bind fun _ => writeErrors_silent _

theorem primeInput_silent : Silent primeInput := by
  refine .get_bind fun p => .bind (.modify fun _ => rfl) fun _ => ?_
  split
  · exact log_silent _ _
  · exact .pure

theorem prepare_triple {request : Event} {preparation : Run Unit}
    (known : done ++ [request] <+: s.stages m) (silent : Silent preparation) :
    Triple (Reached m s false done depth) (prepare m request preparation)
      (fun _ => Reached m s false (done ++ [request]) depth) (Ordered m s) := by
  refine .bind (Reached.push_triple known) fun _ => ?_
  split
  · exact silent.keeps fun v h => h.ordered
  · exact .pure fun v h => h

theorem requestRestriction_triple (known : done ++ [.enterRestrictedMode] <+: s.stages m) :
    Triple (Reached m s false done depth) (requestRestriction m)
      (fun _ v => m.host.restriction.granted = true ∧
        Reached m s false (done ++ [.enterRestrictedMode]) depth v) (Ordered m s) := by
  refine .bind (Reached.push_triple known) fun _ => ?_
  split
  · next nominal => exact .pure fun v h => ⟨by simp [nominal, Restriction.granted], h⟩
  · next strict => exact .modify fun p h => ⟨by simp [strict, Restriction.granted], h⟩
  · exact (fatal_aborts _).triple fun v h => h.ordered

theorem enterRestrictedMode_triple :
    Triple (Reached m s false (s.opening m ++ s.locating) depth) (enterRestrictedMode m)
      (fun _ v => m.host.restriction.granted = true ∧ Reached m s false (s.entering m) depth v)
      (Ordered m s) := by
  have all : s.entering m =
      s.opening m ++ s.locating ++ [.emitSentinels] ++ [.primeInput] ++ [.enterRestrictedMode] := by
    simp [Startup.entering]
  have request : s.opening m ++ s.locating ++ [.emitSentinels] ++ [.primeInput] ++
      [.enterRestrictedMode] <+: s.stages m := all ▸ entering_known
  have input := (List.prefix_append _ _).trans request
  have sentinels := (List.prefix_append _ _).trans input
  rw [all]
  exact .bind (prepare_triple sentinels emitSentinels_silent) fun _ =>
    .bind (prepare_triple input primeInput_silent) fun _ =>
    .bind (requestRestriction_triple request) fun _ => (log_silent _ _).keeps fun v h => h.2.ordered

/-! ## Program code -/

theorem callWrapper_triple {pre ended : View → Prop} {post : Unit → View → Prop}
    {wrapper : Arguments → Run Unit} (received : ∀ v, pre v → v.received = some s.request.arguments)
    (h : Triple pre (wrapper s.request.arguments) post ended) :
    Triple pre (callWrapper wrapper) post ended := by
  refine .get_bind fun p hp => ?_
  have entry : p.received = some s.request.arguments := received _ hp
  simp only [entry]
  exact h.at_view hp

/-- The wrappers keep what is said of a process. -/
def Keeps (m : Machine) (s : Startup) (pre : View → Prop) (w : Wrappers) : Prop :=
  ∀ c, Triple pre (w.entered c s.request.arguments) (fun _ => pre) (Ordered m s)

section ProgramCode

variable {w : Wrappers} {pre : View → Prop}

theorem Keeps.takeStep (h : Keeps m s pre w) (tracks : ∀ v, pre v → ∃ done, Tracks m s done v)
    (step : Step) : Triple pre (takeStep m w step) (fun _ => pre) (Ordered m s) :=
  (Tracks.stable tracks).takeStep step fun c =>
    callWrapper_triple (fun v hv => (tracks v hv).elim fun _ t => t.received) (h c)

theorem Keeps.takeSteps (h : Keeps m s pre w) (tracks : ∀ v, pre v → ∃ done, Tracks m s done v)
    (steps : List Step) : Triple pre (takeSteps m w steps) (fun _ => pre) (Ordered m s) :=
  .forM fun step _ => h.takeStep tracks step

theorem programMain_triple {v : View} (hw : Keeps m s pre w)
    (tracks : ∀ v, pre v → ∃ done, Tracks m s done v)
    (enter : pre (v.push (.programMain s.request.arguments))) :
    Triple (· = v) (programMain m s.program w s.request.arguments) (fun _ => Ordered m s)
      (Ordered m s) :=
  .bind (.emit rfl fun _ hv => hv ▸ enter) fun _ => .bind (hw.takeSteps tracks _) fun _ =>
    .pure fun v hv => (tracks v hv).elim fun _ t => t.ordered

theorem callConstructor_triple (hw : ∀ done, Keeps m s (Reached m s true done depth) w)
    {call : ConstructorCall} (known : done ++ [.constructorCall call] <+: s.stages m)
    (number : Nat) :
    Triple (Reached m s true done depth) (callConstructor m s.program w call number)
      (fun _ => Reached m s true (done ++ [.constructorCall call]) depth) (Ordered m s) :=
  .bind ((log_silent _ _).keeps fun _ h => h.ordered) fun _ =>
    .bind (Reached.push_triple known) fun _ => (hw _).takeSteps Reached.tracks _

theorem runConstructors_triple (hw : ∀ done, Keeps m s (Reached m s true done depth) w)
    (calls : List ConstructorCall) :
    ∀ (first : Nat) (done : List Event), done ++ calls.map .constructorCall = s.stages m →
      Triple (Reached m s true done depth)
        ((calls.zipIdx first).forM fun (call, number) => callConstructor m s.program w call number)
        (fun _ => Reached m s true (s.stages m) depth) (Ordered m s) := by
  -- The calls that are left are the stages that are left.
  induction calls with
  | nil =>
      intro first done all
      rw [List.map_nil, List.append_nil] at all
      exact .pure fun v h => all ▸ h
  | cons call calls ih =>
      intro first done all
      have rest : done ++ [.constructorCall call] ++ calls.map .constructorCall = s.stages m := by
        simpa using all
      exact .bind (callConstructor_triple hw ⟨_, rest⟩ first) fun _ => ih (first + 1) _ rest

theorem runInitCode_triple (hw : ∀ done, Keeps m s (Reached m s true done depth) w)
    {code : InitCode} (hcode : s.initCode? m = some code)
    (granted : m.host.restriction.granted = true) :
    Triple (Reached m s true (s.entering m) depth)
      (runInitCode m s.program w code s.request.arguments)
      (fun _ => Reached m s true (s.stages m) depth) (Ordered m s) := by
  have all : s.entering m ++ s.initEntries m code = s.stages m := stages_of_initCode hcode granted
  cases code with
  | program =>
      rw [← all]
      exact .bind (Reached.push_triple ⟨[], by simpa [Startup.initEntries] using all⟩) fun _ =>
        (hw _).takeSteps Reached.tracks _
  | constructors c => exact runConstructors_triple hw _ 0 _ all

end ProgramCode

/-! ## The wrappers -/

theorem takeInit_triple :
    Triple (Reached m s restricted done depth) (modifyContext ({ · with initSaved := false }))
      (fun _ => Reached m s restricted done depth) (Ordered m s) := by
  refine .modify fun p h => ?_
  rw [view_initSaved]
  exact { h with }

theorem takeMain_triple {ended : View → Prop} (v : View) :
    Triple (· = v) (modifyContext ({ · with mainSaved := false }))
      (fun _ => (· = { v with mainSaved := false })) ended := by
  refine .modify fun p hp => ?_
  rw [view_mainSaved, hp]

theorem restrict_triple (granted : m.host.restriction.granted = true) :
    Triple (Reached m s false (s.entering m) depth) (modifyContext ({ · with restricted := true }))
      (fun _ => Reached m s true (s.entering m) depth) (Ordered m s) := by
  refine .modify fun p h => ?_
  rw [view_restricted]
  exact { h.restrict h.mode granted with mode := rfl, left := h.left }

/-- The first call of the init wrapper takes the process through all stages that are left. -/
theorem wrapInit_waiting {runInit : InitCode → Arguments → Run Unit}
    (h : ∀ code, s.initCode? m = some code → m.host.restriction.granted = true →
      Triple (Reached m s true (s.entering m) depth) (runInit code s.request.arguments)
        (fun _ => Reached m s true (s.stages m) depth) (Ordered m s)) :
    Triple (Waiting m s depth) (wrapInit m runInit s.request.arguments)
      (fun _ => Reached m s true (s.stages m) depth) (Ordered m s) := by
  refine .get_bind fun p hp => ?_
  have saved : p.context.initSaved = s.request.hasInit := hp.initSaved
  have unrestricted : p.context.restricted = false := hp.mode
  simp only [unrestricted, saved]
  exact .bind (takeInit_triple.at_view hp.toReached) fun _ => .bind locate_triple fun code =>
    .given fun hcode => .bind enterRestrictedMode_triple fun _ => .given fun granted =>
    .bind (restrict_triple granted) fun _ => h code hcode granted

theorem wrapInit_ignored {pre ended : View → Prop} {arguments : Arguments}
    (runInit : InitCode → Arguments → Run Unit) (mode : ∀ v, pre v → v.restricted = true)
    (taken : ∀ v, pre v → pre { v with initSaved := false }) (closing : ∀ v, pre v → ended v) :
    Triple pre (wrapInit m runInit arguments) (fun _ => pre) ended := by
  have take : Triple pre (modifyContext ({ · with initSaved := false })) (fun _ => pre) ended :=
    .modify fun p hp => taken _ hp
  refine .get_bind fun p hp => ?_
  have restricted : p.context.restricted = true := mode _ hp
  simp only [restricted]
  exact .bind (take.at_view hp) fun _ => (log_silent _ _).keeps closing

theorem wrapInit_restricted (runInit : InitCode → Arguments → Run Unit) :
    Triple (Reached m s true done depth) (wrapInit m runInit s.request.arguments)
      (fun _ => Reached m s true done depth) (Ordered m s) :=
  wrapInit_ignored runInit (fun _ h => h.mode) (fun _ h => { h with }) fun _ h => h.ordered

/-- The main wrapper enters the program's main function if it can, and does not return. -/
theorem wrapMain_triple {programMain : Arguments → Run Int} {arguments : Arguments}
    {pre ended : View → Prop} {post : Unit → View → Prop}
    (closing : ∀ v, pre v → ended { v with mainSaved := false })
    (h : ∀ v, pre v → v.mainSaved = true → Triple (· = { v with mainSaved := false })
      (programMain arguments) (fun _ => ended) ended) :
    Triple pre (wrapMain m programMain arguments) post ended := by
  refine .get_bind fun p hp => ?_
  have ends : ∀ v, v = { p.view with mainSaved := false } → ended v := by
    rintro _ rfl
    exact closing _ hp
  cases saved : p.context.mainSaved with
  | true =>
      exact .bind (takeMain_triple _) fun _ => .bind (h _ hp saved) fun _ =>
        .bind ((logHeapUsage_silent m).keeps fun v h => h) fun _ =>
        (exit_aborts _).triple fun v h => h
  | false =>
      exact .bind (takeMain_triple _) fun _ => .bind ((log_silent _ _).keeps ends) fun _ =>
        (exit_aborts _).triple ends

/-- In the restricted mode no call of a wrapper adds a stage. -/
theorem wrappers_restricted (depth : Nat) :
    ∀ done, Keeps m s (Reached m s true done depth) (wrappers m s.program depth) := by
  induction depth with
  | zero =>
      rintro done (_ | _) <;> simp only [wrappers, Wrappers.entered]
      · exact wrapInit_restricted _
      · refine wrapMain_triple (fun v h => h.ordered) fun v h saved => ?_
        have left := h.left
        simp [saved] at left
  | succ depth ih =>
      rintro done (_ | _) <;> simp only [wrappers, Wrappers.entered]
      · exact wrapInit_restricted _
      · exact wrapMain_triple (fun v h => h.ordered) fun v h saved =>
          programMain_triple (ih done) Reached.tracks (h.enterMain saved fun _ => rfl)

namespace Underway

theorem tracks : ∀ v, Underway m s depth v → ∃ done, Tracks m s done v
  | _, waiting h _ => ⟨_, h.toTracks⟩
  | _, entered h => ⟨_, h.toTracks⟩

theorem ordered {v : View} (h : Underway m s depth v) : Ordered m s v :=
  (tracks v h).elim fun _ t => t.ordered

theorem enterMain {v : View} (h : Underway m s (depth + 1) v) (saved : v.mainSaved = true) :
    Underway m s depth
      ({ v with mainSaved := false }.push (.programMain s.request.arguments)) := by
  cases h with
  | waiting h unguarded =>
      -- The main function is still to be entered, so `depth` counts it.
      cases depth with
      | zero =>
          have left := h.left
          simp [saved] at left
      | succ depth =>
          have entered := h.enterMain saved fun first => absurd first unguarded
          exact .waiting ⟨entered, h.initSaved⟩ unguarded
  | entered h => exact .entered (h.enterMain saved fun _ => rfl)

end Underway

theorem initWrapper_waiting :
    Triple (Waiting m s depth) ((wrappers m s.program (depth + 1)).init s.request.arguments)
      (fun _ => Underway m s (depth + 1)) (Ordered m s) := by
  simp only [wrappers]
  exact (wrapInit_waiting fun code hcode granted =>
    runInitCode_triple (wrappers_restricted depth) hcode granted).imp fun _ _ h => .entered h.deeper

/-- No call of a wrapper takes the stages out of order, wherever it is made. -/
theorem wrappers_underway (depth : Nat) :
    Keeps m s (Underway m s depth) (wrappers m s.program depth) := by
  have entered (depth : Nat) (c : WrapperCall) :
      Triple (Reached m s true (s.stages m) depth)
        ((wrappers m s.program depth).entered c s.request.arguments)
        (fun _ => Underway m s depth) (Ordered m s) :=
    (wrappers_restricted depth _ c).imp fun _ _ h => .entered h
  induction depth with
  | zero =>
      rintro c p (⟨h⟩ | h)
      exact entered 0 c p h
  | succ depth ih =>
      rintro (_ | _)
      · rintro p (h | h)
        · exact initWrapper_waiting p h
        · exact entered (depth + 1) .init p h
      · simp only [wrappers, Wrappers.entered]
        exact wrapMain_triple (fun v h => h.ordered) fun v h saved =>
          programMain_triple ih Underway.tracks (h.enterMain saved)

end Confine.Sandbox
