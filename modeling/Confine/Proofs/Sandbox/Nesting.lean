import Confine.Proofs.Sandbox.StartupOrder

/-! # How deep calls of wrappers nest

The wrappers are given for a number of entries of program code.  Two entries are all that a started
process can make, so a run with wrappers for more of them is the same run.
-/

namespace Confine.Sandbox

/-- The computations do the same in every process whose view satisfies `pre`. -/
def Agree {α : Type} (pre : View → Prop) (x y : Run α) : Prop :=
  ∀ p, pre p.view → x p = y p

namespace Agree

variable {α β : Type} {pre : View → Prop} {post : α → View → Prop} {ended : View → Prop}
  {x y : Run α} {f g : α → Run β}

theorem refl (x : Run α) : Agree pre x x :=
  fun _ _ => rfl

theorem given {c : Prop} (h : c → Agree pre x y) : Agree (fun v => c ∧ pre v) x y :=
  fun p hp => h hp.1 p hp.2

theorem bind_left (h : Agree pre x y) (f : α → Run β) : Agree pre (x >>= f) (y >>= f) := by
  intro p hp
  simp only [Bind.bind, ExceptT.bind, ExceptT.mk, StateT.bind, h p hp]

theorem bind_right (h : Triple pre x post ended) (rest : ∀ a, Agree (post a) (f a) (g a)) :
    Agree pre (x >>= f) (x >>= g) := by
  intro p hp
  have outcome := h p hp
  simp only [Bind.bind, ExceptT.bind, ExceptT.mk, StateT.bind]
  split at outcome
  · next a q eq =>
      simp only [eq, ExceptT.bindCont]
      exact rest a q outcome
  · next eq => simp only [eq, ExceptT.bindCont]

theorem bind (hx : Agree pre x y) (h : Triple pre x post ended)
    (rest : ∀ a, Agree (post a) (f a) (g a)) : Agree pre (x >>= f) (y >>= g) :=
  fun p hp => (bind_right h rest p hp).trans (hx.bind_left g p hp)

theorem get_bind {f g : Sandbox → Run β}
    (h : ∀ p, pre p.view → Agree (· = p.view) (f p) (g p)) : Agree pre (get >>= f) (get >>= g) :=
  fun p hp => h p hp p rfl

theorem forM {ι : Type} {l : List ι} {f g : ι → Run PUnit}
    (keeps : ∀ i, Triple pre (f i) (fun _ => pre) ended) (h : ∀ i, Agree pre (f i) (g i)) :
    Agree pre (l.forM f) (l.forM g) := by
  induction l with
  | nil => exact refl (pure PUnit.unit)
  | cons i l ih => exact (h i).bind (keeps i) fun _ => ih

end Agree

variable {m : Machine} {s : Startup} {done : List Event} {depth : Nat}

/-! ## Program code -/

section ProgramCode

variable {w w' : Wrappers} {pre : View → Prop}

theorem callWrapper_agree {wrapper wrapper' : Arguments → Run Unit}
    (received : ∀ v, pre v → v.received = some s.request.arguments)
    (h : Agree pre (wrapper s.request.arguments) (wrapper' s.request.arguments)) :
    Agree pre (callWrapper wrapper) (callWrapper wrapper') := by
  refine .get_bind fun p hp q hq => ?_
  have entry : p.received = some s.request.arguments := received _ hp
  simp only [entry]
  exact h q (hq ▸ hp)

theorem takeStep_agree {step : Step}
    (calls : ∀ c, step.wrapperCall? = some c →
      Agree pre (callWrapper (w.entered c)) (callWrapper (w'.entered c))) :
    Agree pre (takeStep m w step) (takeStep m w' step) := by
  have performed : Agree pre (perform m w step) (perform m w' step) := by
    cases step with
    | callInit => exact (calls .init rfl).bind_left _
    | callMain => exact (calls .main rfl).bind_left _
    | _ => exact .refl _
  refine .get_bind fun p hp => ?_
  have counted : Triple (· = p.view) (modify fun q => { q with nextStep := p.nextStep + 1 })
      (fun _ => pre) pre :=
    (countStep_keeps _).at_view hp
  exact .bind_right counted fun _ => performed.bind_left _

/-- The wrappers do the same, and keep what is said of a process. -/
structure Matching (m : Machine) (s : Startup) (pre : View → Prop) (w w' : Wrappers) : Prop where
  keeps : Keeps m s pre w
  agree : ∀ c, Agree pre (w.entered c s.request.arguments) (w'.entered c s.request.arguments)
  tracks : ∀ v, pre v → ∃ done, Tracks m s done v

theorem Matching.takeSteps (h : Matching m s pre w w') (steps : List Step) :
    Agree pre (takeSteps m w steps) (takeSteps m w' steps) :=
  .forM (h.keeps.takeStep h.tracks) fun _ => takeStep_agree fun c _ =>
    callWrapper_agree (fun v hv => (h.tracks v hv).elim fun _ t => t.received) (h.agree c)

theorem Matching.programMain {v : View} (h : Matching m s pre w w')
    (enter : pre (v.push (.programMain s.request.arguments))) :
    Agree (· = v) (programMain m s.program w s.request.arguments)
      (programMain m s.program w' s.request.arguments) := by
  have entry : Triple (· = v) (emit (.programMain s.request.arguments)) (fun _ => pre)
      (Ordered m s) :=
    .emit rfl fun _ hv => hv ▸ enter
  exact .bind_right entry fun _ => (h.takeSteps _).bind_left _

theorem callConstructor_agree (h : ∀ done, Matching m s (Reached m s true done depth) w w')
    {call : ConstructorCall} (known : done ++ [.constructorCall call] <+: s.stages m)
    (number : Nat) :
    Agree (Reached m s true done depth) (callConstructor m s.program w call number)
      (callConstructor m s.program w' call number) := by
  have logged : Triple (Reached m s true done depth) (log .trace call.message)
      (fun _ => Reached m s true done depth) (Ordered m s) :=
    (log_silent _ _).keeps fun _ h => h.ordered
  exact .bind_right logged fun _ => .bind_right (Reached.push_triple known) fun _ =>
    (h _).takeSteps _

theorem runConstructors_agree (h : ∀ done, Matching m s (Reached m s true done depth) w w')
    (calls : List ConstructorCall) :
    ∀ (first : Nat) (done : List Event), done ++ calls.map .constructorCall = s.stages m →
      Agree (Reached m s true done depth)
        ((calls.zipIdx first).forM fun (call, number) => callConstructor m s.program w call number)
        ((calls.zipIdx first).forM fun (call, number) =>
          callConstructor m s.program w' call number) := by
  induction calls with
  | nil => exact fun _ _ _ => .refl (pure PUnit.unit)
  | cons call calls ih =>
      intro first done all
      have rest : done ++ [.constructorCall call] ++ calls.map .constructorCall = s.stages m := by
        simpa using all
      exact .bind (callConstructor_agree h ⟨_, rest⟩ first)
        (callConstructor_triple (fun done => (h done).keeps) ⟨_, rest⟩ first) fun _ =>
        ih (first + 1) _ rest

theorem runInitCode_agree (h : ∀ done, Matching m s (Reached m s true done depth) w w')
    {code : InitCode} (hcode : s.initCode? m = some code)
    (granted : m.host.restriction.granted = true) :
    Agree (Reached m s true (s.entering m) depth)
      (runInitCode m s.program w code s.request.arguments)
      (runInitCode m s.program w' code s.request.arguments) := by
  have all : s.entering m ++ s.initEntries m code = s.stages m := stages_of_initCode hcode granted
  cases code with
  | program =>
      have known : s.entering m ++ [.programInit s.request.arguments] <+: s.stages m :=
        ⟨[], by simpa [Startup.initEntries] using all⟩
      exact .bind_right (Reached.push_triple known) fun _ => (h _).takeSteps _
  | constructors c => exact runConstructors_agree h _ 0 _ all

end ProgramCode

/-! ## The wrappers -/

theorem wrapInit_agree {runInit runInit' : InitCode → Arguments → Run Unit}
    (h : ∀ code, s.initCode? m = some code → m.host.restriction.granted = true →
      Agree (Reached m s true (s.entering m) depth) (runInit code s.request.arguments)
        (runInit' code s.request.arguments)) :
    Agree (Waiting m s depth) (wrapInit m runInit s.request.arguments)
      (wrapInit m runInit' s.request.arguments) := by
  refine .get_bind fun p hp => ?_
  have saved : p.context.initSaved = s.request.hasInit := hp.initSaved
  have unrestricted : p.context.restricted = false := hp.mode
  simp only [unrestricted, saved]
  exact .bind_right (takeInit_triple.at_view hp.toReached) fun _ => .bind_right locate_triple
    fun code => .given fun hcode => .bind_right enterRestrictedMode_triple fun _ =>
    .given fun granted => .bind_right (restrict_triple granted) fun _ => h code hcode granted

theorem wrapInit_agree_restricted (runInit runInit' : InitCode → Arguments → Run Unit) :
    Agree (Reached m s true done depth) (wrapInit m runInit s.request.arguments)
      (wrapInit m runInit' s.request.arguments) := by
  refine .get_bind fun p hp => ?_
  have restricted : p.context.restricted = true := hp.mode
  simp only [restricted]
  exact .refl _

theorem wrapMain_agree {pre : View → Prop} {programMain programMain' : Arguments → Run Int}
    (h : ∀ v, pre v → v.mainSaved = true → Agree (· = { v with mainSaved := false })
      (programMain s.request.arguments) (programMain' s.request.arguments)) :
    Agree pre (wrapMain m programMain s.request.arguments)
      (wrapMain m programMain' s.request.arguments) := by
  refine .get_bind fun p hp => ?_
  cases saved : p.context.mainSaved with
  | true =>
      have taken : Triple (· = p.view) _ _ (Ordered m s) := takeMain_triple p.view
      exact .bind_right taken fun _ => (h _ hp saved).bind_left _
  | false => exact .refl _

theorem wrappers_matching_restricted (depth : Nat) :
    ∀ done, Matching m s (Reached m s true done depth) (wrappers m s.program depth)
      (wrappers m s.program (depth + 1)) := by
  induction depth with
  | zero =>
      refine fun done => ⟨wrappers_restricted 0 done, ?_, Reached.tracks⟩
      rintro (_ | _) <;> simp only [wrappers, Wrappers.entered]
      · exact wrapInit_agree_restricted _ _
      · refine wrapMain_agree fun v h saved => ?_
        have left := h.left
        simp [saved] at left
  | succ depth ih =>
      refine fun done => ⟨wrappers_restricted (depth + 1) done, ?_, Reached.tracks⟩
      rintro (_ | _) <;> rw [wrappers, wrappers]
      · exact wrapInit_agree_restricted _ _
      · exact wrapMain_agree fun v h saved => (ih done).programMain (h.enterMain saved fun _ => rfl)

theorem initWrapper_agree (depth : Nat) :
    Agree (Waiting m s depth) ((wrappers m s.program (depth + 1)).init s.request.arguments)
      ((wrappers m s.program (depth + 2)).init s.request.arguments) :=
  wrapInit_agree fun _ hcode granted =>
    runInitCode_agree (wrappers_matching_restricted depth) hcode granted

theorem wrappers_matching (depth : Nat) :
    Matching m s (Underway m s depth) (wrappers m s.program depth)
      (wrappers m s.program (depth + 1)) := by
  have entered (depth : Nat) (c : WrapperCall) := (wrappers_matching_restricted (m := m) (s := s)
    depth (s.stages m)).agree c
  induction depth with
  | zero =>
      refine ⟨wrappers_underway 0, ?_, Underway.tracks⟩
      rintro c p (⟨h⟩ | h)
      exact entered 0 c p h
  | succ depth ih =>
      refine ⟨wrappers_underway (depth + 1), ?_, Underway.tracks⟩
      rintro (_ | _)
      · rintro p (h | h)
        · exact initWrapper_agree depth p h
        · exact entered (depth + 1) .init p h
      · exact wrapMain_agree fun v h saved => ih.programMain (h.enterMain saved)

theorem Waiting.deeper {v : View} (h : Waiting m s depth v) : Waiting m s (depth + 1) v :=
  ⟨h.toReached.deeper, h.initSaved⟩

theorem Underway.deeper {v : View} (h : Underway m s depth v) : Underway m s (depth + 1) v := by
  cases h with
  | waiting h unguarded => exact .waiting h.deeper unguarded
  | entered h => exact .entered h.deeper

theorem Agree.settled {α : Type} {pre : Nat → View → Prop} {x : Nat → Run α}
    (deeper : ∀ depth v, pre depth v → pre (depth + 1) v)
    (next : ∀ depth, Agree (pre depth) (x depth) (x (depth + 1))) (depth extra : Nat) :
    Agree (pre depth) (x depth) (x (depth + extra)) := by
  induction extra generalizing depth with
  | zero => exact .refl _
  | succ extra ih =>
      intro p hp
      have rest := ih (depth + 1) p (deeper depth _ hp)
      rw [Nat.add_right_comm] at rest
      exact (next depth p hp).trans rest

/-- A process that can enter program code at most `depth` times does the same with wrappers for any
greater number of entries. -/
theorem wrappers_settled (depth extra : Nat) (c : WrapperCall) :
    Agree (Underway m s depth) ((wrappers m s.program depth).entered c s.request.arguments)
      ((wrappers m s.program (depth + extra)).entered c s.request.arguments) :=
  .settled (fun _ _ => Underway.deeper) (fun depth => (wrappers_matching depth).agree c) depth extra

/-! ## The whole run -/

section Run

variable (extra : Nat)

theorem outerWrappers_agree (c : WrapperCall) (rest : List WrapperCall) :
    Agree (Ready m s (c :: rest)) ((outerWrappers m s.program).entered c s.request.arguments)
      ((wrappers m s.program (2 + extra)).entered c s.request.arguments) := by
  rintro p (⟨h, guarded, next⟩ | h)
  · cases next
    have settled : Agree (Waiting m s 1) ((wrappers m s.program 2).init s.request.arguments)
        ((wrappers m s.program (1 + extra + 1)).init s.request.arguments) :=
      .settled (fun _ _ => Waiting.deeper) (fun depth => initWrapper_agree depth) 1 extra
    rw [Nat.add_right_comm] at settled
    exact settled p h
  · exact wrappers_settled 2 extra c p h

theorem routine_agree (calls rest : List WrapperCall) :
    Agree (Ready m s (calls ++ rest))
      (calls.forM ((outerWrappers m s.program).entered · s.request.arguments))
      (calls.forM ((wrappers m s.program (2 + extra)).entered · s.request.arguments)) := by
  induction calls with
  | nil => exact .refl _
  | cons c calls ih =>
      exact (outerWrappers_agree extra c _).bind (outerWrappers_triple c) fun _ => ih

theorem earlySteps_agree (s : Startup) (w w' : Wrappers) (steps : List Step) :
    Agree (Unstarted m) (takeSteps m w steps) (takeSteps m w' steps) := by
  refine .forM (earlyStep_triple (s := s) w) fun step => takeStep_agree fun c _ => ?_
  refine .get_bind fun p hp => ?_
  have received : p.received = none := hp.received
  simp only [received]
  exact .refl _

theorem lateSteps_agree (steps : List Step) :
    Agree (Ready m s (steps.filterMap Step.wrapperCall?))
      (takeSteps m (outerWrappers m s.program) steps)
      (takeSteps m (wrappers m s.program (2 + extra)) steps) := by
  induction steps with
  | nil => exact .refl _
  | cons step steps ih =>
      refine .bind (takeStep_agree fun c hstep => ?_) (lateStep_triple step steps) fun _ => ih
      rw [List.filterMap_cons_some hstep]
      exact callWrapper_agree Ready.received (outerWrappers_agree extra c _)

/-- A run of a process in which a program is started, with these wrappers. -/
def runWith (m : Machine) (s : Startup) (w : Wrappers) : Run Unit := do
  takeSteps m w s.early
  enterRoutine m s.request
  s.routine.calls.forM (w.entered · s.request.arguments)
  emit (.returned s.routine.result)
  takeSteps m w s.late
  finish

theorem runWith_outerWrappers : runWith m s (outerWrappers m s.program) = runStartup m s := by
  simp only [runWith, runStartup, startMain_eq, bind_assoc, pure_bind]

/-- The wrappers of a run suffice: with wrappers for more entries of program code it is the same. -/
theorem runStartup_settled (m : Machine) (s : Startup) (input : InputSource)
    (outputOpen errorsOpen : Bool) :
    runWith m s (wrappers m s.program (2 + extra)) (fresh input outputOpen errorsOpen) =
      runStartup m s (fresh input outputOpen errorsOpen) := by
  have agree : Agree (Unstarted m) (runWith m s (outerWrappers m s.program))
      (runWith m s (wrappers m s.program (2 + extra))) := by
    refine (earlySteps_agree s _ _ s.early).bind (earlySteps_triple (s := s) _ s.early) fun _ => ?_
    refine .bind_right enterRoutine_triple fun _ => ?_
    refine (routine_agree extra _ _).bind (routine_triple _) fun _ => ?_
    refine .bind_right ((Silent.emit rfl).keeps Ready.ordered) fun _ => ?_
    exact (lateSteps_agree extra s.late).bind_left _
  rw [← runWith_outerWrappers]
  exact (agree _ ⟨rfl, rfl, rfl⟩).symm

end Run

end Confine.Sandbox
