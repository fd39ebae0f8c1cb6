import Confine.Proofs.Sandbox.Steps
import Mathlib.Data.List.TakeWhile

/-! # The stages of the start of a program

The start of a program goes through fixed stages.  A run takes the first of them, one after another,
and stops somewhere, whatever the start routine and the program do with the wrappers.  What comes
after the request to enter the restricted mode needs the grant.
-/

namespace Confine

/-- The restricted mode is entered when asked for. -/
def Restriction.granted : Restriction → Bool
  | nominal | strict => true
  | refused _ => false

namespace Startup

variable (m : Machine) (s : Startup)

/-- The stages before the start routine is in charge. -/
def opening : List Event :=
  [.reserveHeap m.environment.requestedHeapSize, .resolveStart, .startMain s.request.call]

/-- The constructors are located unless the program has an init function. -/
def locating : List Event :=
  if s.request.hasInit then [] else [.locateConstructors]

/-- The stages up to the restricted mode. -/
def entering : List Event :=
  s.opening m ++ s.locating ++ [.emitSentinels, .primeInput, .enterRestrictedMode]

/-- What the program runs before its main function, if it can be located. -/
def initCode? : Option Sandbox.InitCode :=
  if s.request.hasInit then some .program
  else (Constructors.ofDynamic m.host.loadBias m.host.dynamicSection).toOption.map .constructors

/-- The stages of this code: its entries. -/
def initEntries : Sandbox.InitCode → List Event
  | .program => [.programInit s.request.arguments]
  | .constructors c =>
    (c.calls m.host.constructorWords s.request.arguments).map .constructorCall

/-- All stages of the start. -/
def stages : List Event :=
  s.entering m ++
    if m.host.restriction.granted then (s.initCode? m).elim [] (s.initEntries m) else []

/-- The calls of wrappers that are made from outside the program, as far as the process gets. -/
def calls : List WrapperCall :=
  s.routine.calls ++ s.late.filterMap Step.wrapperCall?

/-- The init wrapper is called before the main wrapper. -/
def InitFirst : Prop :=
  .init ∈ s.calls.takeWhile (· ≠ .main)

/-- The events of a process are those of a start in order. -/
structure InOrder (es : List Event) : Prop where
  /-- The stages are taken one after another, each once. -/
  stages : es.filter Event.isStage <+: s.stages m
  /-- The main function is entered at most once. -/
  mains : es.filter Event.isMain <+: [.programMain s.request.arguments]
  /-- It is entered in the restricted mode if the init wrapper was called first. -/
  confined : s.InitFirst → (∃ a, .programMain a ∈ es) →
    m.host.restriction.granted ∧ .enterRestrictedMode ∈ es.takeWhile (!·.isMain)

/-- The events are in order, and so each stage comes after those that it needs. -/
structure Orderly (es : List Event) : Prop extends s.InOrder m es where
  /-- Before a stage is taken, the stages listed before it are taken, and no others. -/
  before : ∀ e earlier, e ∈ es → earlier ++ [e] <+: s.stages m → e ∉ earlier →
    ∃ past rest, es = past ++ e :: rest ∧ past.filter Event.isStage = earlier
  /-- A start that gets to the sentinels has located the constructors if and only if the program
  has no init function. -/
  located : .emitSentinels ∈ es → (.locateConstructors ∈ es ↔ s.request.hasInit = false)
  /-- What the program runs before its main function runs in the restricted mode. -/
  restricted : ∀ code, ∀ e ∈ s.initEntries m code, e ∈ es →
    m.host.restriction.granted ∧
      ∃ past rest, es = past ++ e :: rest ∧ .enterRestrictedMode ∈ past

end Startup

namespace Sandbox

variable {m : Machine} {s : Startup}

/-! ## Events -/

theorem isMain_of_isStage {e : Event} (h : e.isStage = true) : e.isMain = false := by
  cases e <;> first | rfl | cases h

theorem isNotable_of_isStage {e : Event} (h : e.isStage = true) : e.isNotable = true := by
  simp [Event.isNotable, h]

theorem isNotable_of_isMain {e : Event} (h : e.isMain = true) : e.isNotable = true := by
  simp [Event.isNotable, h]

theorem mem_takeWhile_append {e : Event} {es : List Event} (fs : List Event)
    (h : e ∈ es.takeWhile (!·.isMain)) : e ∈ (es ++ fs).takeWhile (!·.isMain) := by
  rw [List.takeWhile_append]
  split
  · exact List.mem_append_left _ ((List.takeWhile_prefix _).subset h)
  · exact h

theorem isStage_of_mem_entries {e : Event} {code : InitCode} (h : e ∈ s.initEntries m code) :
    e.isStage = true := by
  cases code with
  | program => rw [List.mem_singleton.mp h]; rfl
  | constructors c =>
      obtain ⟨call, -, rfl⟩ := List.mem_map.mp h
      rfl

theorem isStage_of_mem_stages {e : Event} (h : e ∈ s.stages m) : e.isStage = true := by
  have entering : ∀ e ∈ s.entering m, e.isStage = true := by
    cases legacy : s.request.hasInit <;>
      simp [Startup.entering, Startup.opening, Startup.locating, legacy, Event.isStage]
  rcases List.mem_append.mp h with h | h
  · exact entering e h
  · split at h
    · cases hcode : s.initCode? m with
      | none => simp [hcode] at h
      | some code => exact isStage_of_mem_entries (by simpa [hcode] using h)
    · cases h

theorem entering_known : s.entering m <+: s.stages m :=
  List.prefix_append _ _

theorem opening_known : s.opening m <+: s.stages m :=
  .trans ⟨s.locating ++ _, (List.append_assoc _ _ _).symm⟩ entering_known

theorem stages_of_initCode {code : InitCode} (h : s.initCode? m = some code)
    (granted : m.host.restriction.granted = true) :
    s.entering m ++ s.initEntries m code = s.stages m := by
  simp [Startup.stages, granted, h]

theorem late_of_mem_entries {e : Event} {code : InitCode} (h : e ∈ s.initEntries m code) :
    e ∉ s.entering m := by
  cases code with
  | program =>
      rw [List.mem_singleton.mp h]
      cases legacy : s.request.hasInit <;>
        simp [Startup.entering, Startup.opening, Startup.locating, legacy]
  | constructors c =>
      obtain ⟨call, -, rfl⟩ := List.mem_map.mp h
      cases legacy : s.request.hasInit <;>
        simp [Startup.entering, Startup.opening, Startup.locating, legacy]

theorem granted_of_late {e : Event} (h : e ∈ s.stages m) (late : e ∉ s.entering m) :
    m.host.restriction.granted := by
  rcases List.mem_append.mp h with early | run
  · exact absurd early late
  · split at run
    · assumption
    · cases run

theorem hasInit_of_located (h : .locateConstructors ∈ s.stages m) : s.request.hasInit = false := by
  rcases List.mem_append.mp h with early | run
  · cases legacy : s.request.hasInit
    · rfl
    · simp [Startup.entering, Startup.opening, Startup.locating, legacy] at early
  · split at run
    · cases located : s.initCode? m with
      | none => simp [located] at run
      | some code => cases code <;> simp [located, Startup.initEntries] at run
    · cases run

/-! ## What the order says -/

section InOrder

variable {es : List Event}

theorem stages_before (h : s.InOrder m es) {e : Event} {earlier : List Event} (he : e ∈ es)
    (listed : earlier ++ [e] <+: s.stages m) (new : e ∉ earlier) :
    ∃ past rest, es = past ++ e :: rest ∧ past.filter Event.isStage = earlier := by
  have stage : e.isStage = true := isStage_of_mem_stages (listed.subset (by simp))
  have taken : e ∈ es.filter Event.isStage := List.mem_filter.mpr ⟨he, stage⟩
  have reached : earlier ++ [e] <+: es.filter Event.isStage := by
    rcases List.prefix_or_prefix_of_prefix h.stages listed with short | reached
    · rcases List.prefix_concat_iff.mp short with eq | within
      · exact eq ▸ List.prefix_refl _
      · exact absurd (within.subset taken) new
    · exact reached
  -- The events are cut where the filter gives `e` for the first time.
  obtain ⟨more, eq⟩ := reached
  rw [List.append_assoc, eq_comm, List.filter_eq_append_iff] at eq
  obtain ⟨first, second, rfl, past, rest⟩ := eq
  obtain ⟨between, after, rfl, unstaged, -, -⟩ := List.filter_eq_cons_iff.mp rest
  refine ⟨first ++ between, after, by simp, ?_⟩
  rw [List.filter_append, past, List.filter_eq_nil_iff.mpr unstaged, List.append_nil]

theorem located_iff (h : s.InOrder m es) (passed : .emitSentinels ∈ es) :
    .locateConstructors ∈ es ↔ s.request.hasInit = false := by
  constructor
  · intro located
    exact hasInit_of_located (h.stages.subset (List.mem_filter.mpr ⟨located, rfl⟩))
  · intro legacy
    have listed : s.opening m ++ [.locateConstructors] ++ [.emitSentinels] <+: s.stages m :=
      .trans (by simp [Startup.entering, Startup.locating, legacy]) entering_known
    obtain ⟨past, rest, rfl, stages⟩ := stages_before h passed listed (by simp [Startup.opening])
    have located : .locateConstructors ∈ past.filter Event.isStage := by simp [stages]
    exact List.mem_append_left _ (List.mem_filter.mp located).1

theorem restricted_before (h : s.InOrder m es) {code : InitCode} {e : Event}
    (entry : e ∈ s.initEntries m code) (he : e ∈ es) :
    m.host.restriction.granted ∧
      ∃ past rest, es = past ++ e :: rest ∧ .enterRestrictedMode ∈ past := by
  have listed : e ∈ s.stages m :=
    h.stages.subset (List.mem_filter.mpr ⟨he, isStage_of_mem_entries entry⟩)
  have late := late_of_mem_entries entry
  obtain ⟨earlier, later, eq, new⟩ := List.eq_append_cons_of_mem listed
  have upTo : earlier ++ [e] <+: s.stages m := ⟨later, by simp [eq]⟩
  have entered : s.entering m <+: earlier := by
    rcases List.prefix_or_prefix_of_prefix upTo entering_known with short | entered
    · exact absurd (short.subset (by simp)) late
    · rcases List.prefix_concat_iff.mp entered with eq | entered
      · exact absurd (by simp [eq]) late
      · exact entered
  obtain ⟨past, rest, cut, stages⟩ := stages_before h he upTo new
  have requested : .enterRestrictedMode ∈ past.filter Event.isStage :=
    stages ▸ entered.subset (by simp [Startup.entering])
  exact ⟨granted_of_late listed late, past, rest, cut, (List.mem_filter.mp requested).1⟩

theorem orderly_of_inOrder (h : s.InOrder m es) : s.Orderly m es :=
  { h with
    before := fun _ _ he listed new => stages_before h he listed new
    located := located_iff h
    restricted := fun _ _ entry he => restricted_before h entry he }

end InOrder

/-! ## Following a run -/

/-- The condition on a process that has ended. -/
def Ordered (m : Machine) (s : Startup) (v : View) : Prop :=
  s.InOrder m v.events

/-- The process is past the opening, and its stages are those in `done`. -/
structure Tracks (m : Machine) (s : Startup) (done : List Event) (v : View) : Prop where
  received : v.received = some s.request.arguments
  provisioned : v.provisioned = true
  stages : v.events.filter Event.isStage = done
  known : done <+: s.stages m
  mains : v.events.filter Event.isMain =
    if v.mainSaved then [] else [.programMain s.request.arguments]
  unentered : s.InitFirst → v.restricted = false → v.mainSaved = true
  entered : s.InitFirst → v.restricted = true →
    m.host.restriction.granted ∧ .enterRestrictedMode ∈ v.events.takeWhile (!·.isMain)

namespace Tracks

variable {done : List Event} {v : View}

theorem ordered (h : Tracks m s done v) : Ordered m s v where
  stages := h.stages ▸ h.known
  mains := by
    rw [h.mains]
    split
    · exact List.nil_prefix
    · exact List.prefix_refl _
  confined := by
    rintro first ⟨a, ha⟩
    have mains := h.mains
    cases saved : v.mainSaved with
    | true =>
        rw [saved, if_pos rfl, List.filter_eq_nil_iff] at mains
        exact absurd rfl (mains _ ha)
    | false =>
        cases restricted : v.restricted with
        | true => exact h.entered first restricted
        | false => simp [h.unentered first restricted] at saved

theorem push (h : Tracks m s done v) {e : Event} (known : done ++ [e] <+: s.stages m) :
    Tracks m s (done ++ [e]) (v.push e) := by
  have stage : e.isStage = true := isStage_of_mem_stages (known.subset (by simp))
  exact {
    received := h.received
    provisioned := h.provisioned
    stages := by simp [View.push, h.stages, stage]
    known
    mains := by
      have noMain : [e].filter Event.isMain = [] := by simp [isMain_of_isStage stage]
      rw [View.push, List.filter_append, noMain, List.append_nil]
      exact h.mains
    unentered := h.unentered
    entered := fun first restricted =>
      ⟨(h.entered first restricted).1, mem_takeWhile_append _ (h.entered first restricted).2⟩ }

theorem enterMain (h : Tracks m s done v) (saved : v.mainSaved = true)
    (confined : s.InitFirst → v.restricted = true) :
    Tracks m s done ({ v with mainSaved := false }.push (.programMain s.request.arguments)) := by
  have none : v.events.filter Event.isMain = [] := by rw [h.mains, if_pos saved]
  exact {
    received := h.received
    provisioned := h.provisioned
    stages := by simpa [View.push, Event.isStage] using h.stages
    known := h.known
    mains := by simp [View.push, none, Event.isMain]
    unentered := fun first unrestricted => by simp [View.push, confined first] at unrestricted
    entered := fun first restricted =>
      ⟨(h.entered first restricted).1, mem_takeWhile_append _ (h.entered first restricted).2⟩ }

/-- The restricted mode is entered once its request was granted. -/
theorem restrict (h : Tracks m s (s.entering m) v) (unrestricted : v.restricted = false)
    (granted : m.host.restriction.granted = true) :
    Tracks m s (s.entering m) { v with restricted := true } where
  received := h.received
  provisioned := h.provisioned
  stages := h.stages
  known := h.known
  mains := h.mains
  unentered _ restricted := by cases restricted
  entered first _ := by
    -- The main function was not entered yet, so all events come before it.
    have none : v.events.filter Event.isMain = [] := by
      rw [h.mains, if_pos (h.unentered first unrestricted)]
    have before : v.events.takeWhile (!·.isMain) = v.events :=
      List.takeWhile_eq_self_iff.mpr fun e he => by simpa using List.filter_eq_nil_iff.mp none e he
    have requested : .enterRestrictedMode ∈ v.events.filter Event.isStage := by
      simp [h.stages, Startup.entering]
    refine ⟨granted, ?_⟩
    rw [before]
    exact (List.mem_filter.mp requested).1

theorem stable {I : View → Prop} (h : ∀ v, I v → ∃ done, Tracks m s done v) :
    Stable m I (Ordered m s) where
  closing v hv := (h v hv).elim fun _ t => t.ordered
  reserved v hv missing := by
    obtain ⟨_, t⟩ := h v hv
    simp [t.provisioned] at missing
  refused v hv missing := by
    obtain ⟨_, t⟩ := h v hv
    simp [t.provisioned] at missing

end Tracks

end Sandbox

end Confine
