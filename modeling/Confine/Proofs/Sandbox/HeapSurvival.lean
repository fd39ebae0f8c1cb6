import Confine.Proofs.Client.Lending
import Confine.Proofs.Sandbox.MainExit
import Confine.Proofs.Sandbox.Timeline

/-! # One heap for the whole run

The heap is asked for at most once, whichever step or wrapper needs it first, and the allocator that
a process gets then stays with it: in any later process of the run it has answered what was asked in
between and nothing else.  So a block that is on loan before the program is started is on loan in
the program's own code, unless it was released.
-/

namespace Confine

open Sandbox

def Event.isHeapRequest : Event → Bool
  | .reserveHeap _ => true
  | _ => false

namespace Startup

variable (m : Machine) (s : Startup) (start : Sandbox)

/-- A step that the run begins when so many events have happened asks the allocator for this. -/
def Asks (time : Nat) (a : Allocator) (request : Request Nat) : Prop :=
  ∃ depth step rest p, s.Comes m start (.steps depth (step :: rest)) p ∧ p.trace.length = time ∧
    m.Provides p.context.allocator a ∧ step.Asks m p request

/-- The allocator becomes another one by its answer to a step of this stretch of the run. -/
def Serves (first last : Nat) (a b : Allocator) : Prop :=
  ∃ time request, first ≤ time ∧ time < last ∧ s.Asks m start time a request ∧
    b = (a.perform request).2

/-- No step of this stretch of the run releases the block at the address. -/
def Retains (first last : Nat) (x : Nat) : Prop :=
  ∀ time a request, first ≤ time → time < last → s.Asks m start time a request →
    ¬request.Releases a x

/-- No step of this stretch of the run writes to the address. -/
def Spares (first last : Nat) (address : Nat) : Prop :=
  ∀ time a request, first ≤ time → time < last → s.Asks m start time a request →
    ¬request.Writes address

/-- What an honest program has on loan. -/
structure KeepsLoans : Prop where
  /-- An address that a step is given, other than that of the break, is on loan. -/
  handed : ∀ depth step rest p q result past op x,
    s.Comes m start (.steps depth (step :: rest)) p →
    takeStep m (wrappers m s.program depth) step p = (.ok (), q) →
    q.trace = .step result :: past → result.address? = some x →
    step.request? m p = some (.operation op) → (∀ increment, op ≠ .sbrk increment) →
    ∃ a size, q.context.allocator = some a ∧ a.Lends x size
  /-- Unless it is released, a block stays on loan, at its address and with its size, and its bytes
  stay what they are where the program does not write. -/
  outlives : ∀ t u p q a x size, s.Comes m start t p → s.Comes m start u q →
    p.trace.length < q.trace.length → p.context.allocator = some a → a.Lends x size →
    s.Retains m start p.trace.length q.trace.length x →
    ∃ b, q.context.allocator = some b ∧ b.Lends x size ∧ b.Accepts x ∧
      Allocator.usableSize x b = (.ok size, b) ∧
      ∀ address, x ≤ address → address < x + size →
        s.Spares m start p.trace.length q.trace.length address →
        b.byteAt address = a.byteAt address
  /-- Blocks that are on loan at the same time do not overlap, whenever they were handed out. -/
  apart : ∀ t p a x y size other, s.Comes m start t p → p.context.allocator = some a →
    a.Lends x size → a.Lends y other → x ≠ y → x + size ≤ y ∨ y + other ≤ x

/-- There is one heap in all of the run. -/
structure HeapSurvives : Prop where
  /-- It is asked for at most once, and it is as large as the environment wants. -/
  once : ∀ e p, conclude (runStartup m s) start = (e, p) →
    p.events.filter Event.isHeapRequest <+: [heapRequest m]
  /-- It is asked for before the restricted mode. -/
  unrestricted : ∀ e p past rest, conclude (runStartup m s) start = (e, p) →
    p.events = past ++ .enterRestrictedMode :: rest → heapRequest m ∈ past
  /-- It is asked for before the allocator answers. -/
  answered : ∀ depth step rest p q result past request,
    s.Comes m start (.steps depth (step :: rest)) p → step.Asks m p request →
    takeStep m (wrappers m s.program depth) step p = (.ok (), q) →
    q.trace = .step result :: past → heapRequest m ∈ past
  /-- It is there when the start routine makes its calls. -/
  started : ∀ calls arguments p, s.Comes m start (.routine calls arguments) p →
    p.context.allocator.isSome ∧ heapRequest m ∈ p.trace
  /-- The allocator of a later process is the earlier one, after what was asked in between. -/
  same : ∀ t u p q a, s.Comes m start t p → s.Comes m start u q →
    p.trace.length < q.trace.length → p.context.allocator = some a →
    ∃ b, q.context.allocator = some b ∧
      Relation.ReflTransGen (s.Serves m start p.trace.length q.trace.length) a b
  loans : m.Sited → s.Honest m start → s.KeepsLoans m start

end Startup

variable {m : Machine} {s : Startup} {start p q : Sandbox} {t u : Task} {a b : Allocator}
  {first last x size : Nat} {es past rest : List Event} {e : Option Ending}

/-! ## The request for the heap -/

namespace Startup

theorem stages_eq (m : Machine) (s : Startup) : ∃ later, s.stages m = heapRequest m :: later ∧
    later.filter Event.isHeapRequest = [] := by
  have entries (code : InitCode) : (s.initEntries m code).filter Event.isHeapRequest = [] := by
    cases code <;> simp [initEntries, Event.isHeapRequest]
  have listed : (s.stages m).tail = [.resolveStart, .startMain s.request.call] ++ s.locating ++
      [.emitSentinels, .primeInput, .enterRestrictedMode] ++
      if m.host.restriction.granted then (s.initCode? m).elim [] (s.initEntries m) else [] := by
    simp [stages, entering, opening]
  refine ⟨(s.stages m).tail, rfl, ?_⟩
  rw [listed, List.filter_append, List.filter_append, List.filter_append]
  have located : s.locating.filter Event.isHeapRequest = [] := by
    unfold locating
    split <;> rfl
  have run : (if m.host.restriction.granted then (s.initCode? m).elim [] (s.initEntries m)
      else []).filter Event.isHeapRequest = [] := by
    split
    · cases s.initCode? m with
      | none => rfl
      | some code => exact entries code
    · rfl
  rw [located, run]
  rfl

theorem InOrder.once (h : s.InOrder m es) :
    es.filter Event.isHeapRequest <+: [heapRequest m] := by
  obtain ⟨later, stages, none⟩ := stages_eq m s
  have staged : es.filter Event.isHeapRequest =
      (es.filter Event.isStage).filter Event.isHeapRequest := by
    rw [List.filter_filter]
    refine List.filter_congr fun event _ => ?_
    cases event <;> rfl
  have known := h.stages.filter Event.isHeapRequest
  rw [stages, List.filter_cons_of_pos rfl, none] at known
  exact staged ▸ known

theorem InOrder.unrestricted (h : s.InOrder m es)
    (cut : es = past ++ .enterRestrictedMode :: rest) : heapRequest m ∈ past := by
  obtain ⟨later, stages, -⟩ := stages_eq m s
  obtain ⟨more, eq⟩ := h.stages
  rw [stages, cut, List.filter_append, List.append_assoc] at eq
  cases begun : past.filter Event.isStage with
  | nil =>
      rw [begun] at eq
      cases eq
  | cons event earlier =>
      rw [begun] at eq
      cases eq
      exact (List.mem_filter.mp (begun ▸ List.mem_cons_self)).1

/-! ## The allocator -/

theorem Serves.extend {later : Nat} (le : last ≤ later)
    (h : Relation.ReflTransGen (s.Serves m start first last) a b) :
    Relation.ReflTransGen (s.Serves m start first later) a b := by
  refine h.lift id fun _ _ served => ?_
  obtain ⟨time, request, after, before, asked⟩ := served
  exact ⟨time, request, after, Nat.lt_of_lt_of_le before le, asked⟩

theorem keeps_requested : s.Keeps m start fun a? past => a?.isSome → heapRequest m ∈ past where
  happens e h present := List.mem_cons_of_mem e (h present)
  reserves _ asked _ _ := asked
  steps here hstep taken h present := by
    obtain ⟨result, past, took⟩ := takeStep_took hstep taken
    rw [took.trace]
    refine List.mem_cons_of_mem _ ?_
    rcases took.requested present with before | asked
    · exact took.grown.subset (h before)
    · exact asked

/-- What comes of an allocator that a run has. -/
theorem keeps_served (first : Nat) (a : Allocator) : s.Keeps m start fun a? past =>
    first ≤ past.length ∧ ∃ b, a? = some b ∧
      Relation.ReflTransGen (s.Serves m start first past.length) a b where
  happens e h := by
    obtain ⟨le, b, present, served⟩ := h
    exact ⟨Nat.le_succ_of_le le, b, present, Serves.extend (Nat.le_succ _) served⟩
  reserves _ _ h := by
    obtain ⟨-, b, missing, -⟩ := h
    cases missing
  steps {depth step rest p q} here hstep taken h := by
    obtain ⟨result, past, took⟩ := takeStep_took hstep taken
    obtain ⟨le, b, present, served⟩ := h
    have grown : p.trace.length < q.trace.length := by
      rw [took.trace]
      exact Nat.lt_succ_of_le took.grown.length_le
    have served := Serves.extend (Nat.le_of_lt grown) served
    refine ⟨Nat.le_trans le (Nat.le_of_lt grown), ?_⟩
    rcases took.leaves.of_some present with same | ⟨request, asked, same⟩
    · exact ⟨b, same, served⟩
    · have asks : s.Asks m start p.trace.length b request :=
        ⟨depth, step, rest, p, here, rfl, .inl present, asked⟩
      exact ⟨_, same, served.tail ⟨_, request, le, grown, asks, rfl⟩⟩

theorem Comes.same (h : s.Comes m start t p) (h' : s.Comes m start u q)
    (earlier : p.trace.length < q.trace.length) (present : p.context.allocator = some a) :
    ∃ b, q.context.allocator = some b ∧
      Relation.ReflTransGen (s.Serves m start p.trace.length q.trace.length) a b :=
  (h.before h' earlier _ (keeps_served p.trace.length a) ⟨Nat.le_refl _, a, present, .refl⟩).2

theorem Comes.requested (h : s.Comes m start t p) (missing : start.context.allocator = none)
    (present : p.context.allocator.isSome) : heapRequest m ∈ p.trace := by
  refine keeps_requested.comes h (fun early => ?_) present
  rw [missing] at early
  cases early

theorem enterRoutine_provides (request : StartRequest) :
    Contract (fun _ => True) (enterRoutine m request)
      (fun _ p => p.context.allocator.isSome = true) fun _ _ => True := by
  let Provided (g : Gist) : Prop := g.allocator.isSome = true
  have reserving : Gist.Reserving m fun _ => True := fun _ _ _ _ _ => trivial
  have provisioned : Contract (fun _ => True) (discard (provision m)) (fun _ p => Provided p.gist)
      fun _ _ => True :=
    .discard (reserving.steady.provision.imp fun _ _ h => Option.isSome_iff_exists.mpr ⟨_, h.2⟩)
  have receive : Contract (fun p => Provided p.gist)
      (modify fun p => { p with received := some request.arguments })
      (fun _ p => p.context.allocator.isSome = true) fun _ _ => True :=
    .modify fun _ present => present
  exact .bind ((initLogger_idle _).returns fun _ _ _ _ => trivial) fun _ =>
    .bind (.modify fun _ _ => trivial) fun _ => .bind provisioned fun _ =>
    .bind resolveStart_keeps fun _ => .bind (idle_keeps (log_idle _ _)) fun _ =>
    .bind (emit_keeps rfl) fun _ => receive

theorem keeps_present : s.Keeps m start fun a? _ => a?.isSome = true where
  happens _ h := h
  reserves _ _ _ := rfl
  steps _ hstep taken h := by
    obtain ⟨result, past, took⟩ := takeStep_took hstep taken
    obtain ⟨a, present⟩ := Option.isSome_iff_exists.mp h
    rcases took.leaves.of_some present with same | ⟨_, -, same⟩ <;>
      exact Option.isSome_iff_exists.mpr ⟨_, same⟩

theorem Comes.started {calls : List WrapperCall} {arguments : Arguments}
    (h : s.Comes m start (.routine calls arguments) p) : p.context.allocator.isSome = true := by
  generalize task : Task.routine calls arguments = t at h
  induction h generalizing calls with
  | early | late => cases task
  | routine early entered => exact (enterRoutine_provides _).returned trivial entered
  | next comes leads ih =>
      cases task
      cases leads with
      | routineOver returned => exact keeps_present.leads comes (.routineOver returned) (ih rfl)

/-! ## Honest runs -/

/-- The heap is accounted for wherever an honest run comes. -/
theorem Comes.accounts (honest : s.Honest m start) (unstarted : start.gist.Trusted m false 2)
    (h : s.Comes m start t p) : m.Accounts p.context.allocator := by
  have trusted := h.trusted honest unstarted
  cases t with
  | steps => exact trusted.elim fun _ trusted => trusted.accounts
  | call | constructors | routine => exact Gist.Trusted.accounts trusted

section Honest

variable (sited : m.Sited) (honest : s.Honest m start)
  (unstarted : start.gist.Trusted m false 2)

include sited honest unstarted

theorem Comes.sound (h : s.Comes m start t p) (present : p.context.allocator = some a) :
    ∃ client l, Client.Sound client l ∧ client.allocator = a := by
  obtain ⟨heap, client, granted, reached, eq⟩ := h.accounts honest unstarted a present
  obtain ⟨l, sound⟩ := granted.sound sited reached
  exact ⟨client, l, sound, eq⟩

theorem Asks.sound {time : Nat} {request : Request Nat} (h : s.Asks m start time a request) :
    ∃ client l, Client.Sound client l ∧ client.allocator = a ∧ client.Honest request := by
  obtain ⟨depth, step, rest, p, here, -, provides, asked⟩ := h
  have admits := honest depth step rest p here request asked.1
  obtain ⟨heap, granted, eq⟩ : ∃ heap, m.Grants heap ∧
      p.context.allocator.getD (.new heap) = a := by
    rcases provides with present | ⟨missing, heap, granted, rfl⟩
    · obtain ⟨heap, -, granted, -⟩ := here.accounts honest unstarted a present
      exact ⟨heap, granted, by rw [present]; rfl⟩
    · exact ⟨heap, granted, by rw [missing]; rfl⟩
  obtain ⟨client, reached, same, honest⟩ := admits heap granted
  obtain ⟨l, sound⟩ := granted.sound sited reached
  exact ⟨client, l, sound, same.trans eq, honest⟩

/-- The answer to an honest request leaves a block alone that it does not release. -/
theorem Asks.retains {time : Nat} {request : Request Nat} (h : s.Asks m start time a request)
    (lends : a.Lends x size) (kept : ¬request.Releases a x) :
    (a.perform request).2.Lends x size ∧ ∀ address, x ≤ address → address < x + size →
      ¬request.Writes address → (a.perform request).2.byteAt address = a.byteAt address := by
  obtain ⟨client, l, sound, rfl, asked⟩ := h.sound sited honest unstarted
  have outcome := sound.lends_serve asked lends kept
  rwa [Client.allocator_serve] at outcome

/-- A block that no step of a stretch of the run releases is there at its end. -/
theorem Retains.lends (h : s.Retains m start first last x)
    (served : Relation.ReflTransGen (s.Serves m start first last) a b) (lends : a.Lends x size) :
    b.Lends x size ∧ ∀ address, x ≤ address → address < x + size →
      s.Spares m start first last address → b.byteAt address = a.byteAt address := by
  induction served with
  | refl => exact ⟨lends, fun _ _ _ _ => rfl⟩
  | tail _ serves ih =>
      obtain ⟨time, request, after, before, asks, rfl⟩ := serves
      obtain ⟨lent, bytes⟩ := ih
      obtain ⟨lent', bytes'⟩ := asks.retains sited honest unstarted lent
        (h time _ request after before asks)
      refine ⟨lent', fun address low high spares => ?_⟩
      exact (bytes' address low high (spares time _ request after before asks)).trans
        (bytes address low high spares)

theorem keepsLoans_of_honest : s.KeepsLoans m start where
  handed depth step rest p q result past op x here taken trace told asked allocating := by
    have plain : step.wrapperCall? = none := by cases step <;> first | rfl | cases asked
    obtain ⟨result', past', took⟩ := takeStep_took plain taken
    cases trace.symm.trans took.trace
    obtain ⟨a, request, asks, provides, left, answer⟩ := took.leaves.told told
    cases asked.symm.trans asks.1
    have asking : s.Asks m start p.trace.length a (.operation op) :=
      ⟨depth, step, rest, p, here, rfl, provides, asks⟩
    obtain ⟨client, l, sound, rfl, honest⟩ := asking.sound sited honest unstarted
    obtain ⟨size, lends⟩ := sound.lends_of_reply honest allocating answer
    rw [Client.allocator_serve] at lends
    exact ⟨_, size, left, lends⟩
  outlives t u p q a x size here there earlier present lends retains := by
    obtain ⟨b, present', served⟩ := here.same there earlier present
    obtain ⟨lent, bytes⟩ := Retains.lends sited honest unstarted retains served lends
    obtain ⟨client, l, sound, rfl⟩ := there.sound sited honest unstarted present'
    exact ⟨_, present', lent, sound.accepts (sound.live_of_lends lent), sound.usable_of_lends lent,
      bytes⟩
  apart t p a x y size other here present lends lends' ne := by
    obtain ⟨client, l, sound, rfl⟩ := here.sound sited honest unstarted present
    exact sound.apart_of_lends lends lends' ne

end Honest

/-- Whatever a run does, in any order, it has one heap. -/
theorem heapSurvives_of_run (m : Machine) (s : Startup) (input : InputSource)
    (outputOpen errorsOpen : Bool) : s.HeapSurvives m (fresh input outputOpen errorsOpen) where
  once _ _ run := (inOrder_of_conclude run).once
  unrestricted _ _ _ _ run cut := (inOrder_of_conclude run).unrestricted cut
  answered depth step rest p q result past request here asks taken trace := by
    have plain : step.wrapperCall? = none := by cases step <;> first | rfl | cases asks.1
    obtain ⟨result', past', took⟩ := takeStep_took plain taken
    cases trace.symm.trans took.trace
    rcases took.requested (took.leaves.isSome_of_asks asks) with before | asked
    · exact took.grown.subset (here.requested rfl before)
    · exact asked
  started _ _ _ here := ⟨here.started, here.requested rfl here.started⟩
  same _ _ _ _ _ := Comes.same
  loans sited honest :=
    keepsLoans_of_honest sited honest (fresh_trusted m input outputOpen errorsOpen)

end Startup

/-! ## A block that is handed out before the start -/

/-- A program for which a block is allocated before it is started. -/
def heir : Startup where
  early := [.request (.operation (.allocate 256))]
  program := { initSteps := [], mainSteps := [], mainStatus := 0 }
  routine := ⟨[.main], 0⟩
  request := forger.request
  late := []

namespace Heir

def endowed : Sandbox :=
  (takeStep talkative (outerWrappers talkative heir.program)
    (.request (.operation (.allocate 256))) Forger.outset).2

def begun : Sandbox :=
  (enterRoutine talkative heir.request endowed).2

def Passes : Task → Sandbox → Prop
  | .steps _ steps, p => steps = [] ∨ steps = heir.early ∧ p = Forger.outset
  | _, _ => True

theorem passes_of_comes (h : heir.Comes talkative Forger.outset t p) : Passes t p := by
  induction h with
  | early => exact .inr ⟨rfl, rfl⟩
  | routine => trivial
  | late => exact .inl rfl
  | next _ leads ih =>
      cases leads with
      | stepOver =>
          rcases ih with ih | ⟨ih, -⟩ <;> cases ih
          exact .inl rfl
      | init | main | constructorInto => exact .inl rfl
      | _ => trivial

theorem honest : heir.Honest talkative Forger.outset := by
  intro depth step rest p here request asked heap granted
  rcases passes_of_comes here with ended | ⟨steps, rfl⟩
  · cases ended
  · cases steps
    cases asked
    exact ⟨.start heap, .refl, rfl, Client.honest_of_no_pointer rfl⟩

theorem taken : takeStep talkative (outerWrappers talkative heir.program)
    (.request (.operation (.allocate 256))) Forger.outset = (.ok (), endowed) :=
  eq_of_returned (by decide +kernel)

theorem comes_endowed : heir.Comes talkative Forger.outset (.steps 2 []) endowed :=
  .next .early (.stepOver taken)

theorem comes_begun : heir.Comes talkative Forger.outset
    (.call 2 .main heir.request.arguments) begun := by
  have opened : (enterRoutine talkative heir.request endowed).1 = .ok () := by decide +kernel
  have early : takeSteps talkative (outerWrappers talkative heir.program) heir.early
      Forger.outset = (.ok (), endowed) := bind_ok taken
  exact .next (.routine early (eq_of_returned opened)) .routineInto

theorem comes_entered : heir.Comes talkative Forger.outset (.steps 1 heir.program.mainSteps)
    (begun.enterMain heir.request.arguments) :=
  comes_begun.next (.main (by decide +kernel))

end Heir

open Heir in
/-- The main function of the program has the block. -/
theorem heapSurvives_of_heir : talkative.Sited ∧ heir.Honest talkative Forger.outset ∧
    ∃ b size, (begun.enterMain heir.request.arguments).context.allocator = some b ∧
      b.Lends (2 ^ 32 + 32) size := by
  refine ⟨Forger.sited, honest, ?_⟩
  have loans := (Startup.heapSurvives_of_run talkative heir .closed true true).loans Forger.sited
    honest
  have told : (endowed.trace.head?.bind fun
      | .step result => result.address?
      | _ => none) = some (2 ^ 32 + 32) := by decide +kernel
  obtain ⟨result, past, took⟩ := takeStep_took rfl taken
  rw [took.trace] at told
  obtain ⟨a, size, present, lends⟩ := loans.handed 2 (.request (.operation (.allocate 256))) []
    Forger.outset endowed result past (.allocate 256) (2 ^ 32 + 32) .early taken took.trace told
    rfl nofun
  have retains : heir.Retains talkative Forger.outset endowed.trace.length
      (begun.enterMain heir.request.arguments).trace.length (2 ^ 32 + 32) := by
    rintro time a request after - ⟨depth, step, rest, p, here, rfl, -⟩
    rcases passes_of_comes here with ended | ⟨-, rfl⟩
    · cases ended
    · exact absurd after (by decide +kernel)
  obtain ⟨b, present', lends', -⟩ := loans.outlives _ _ _ _ a _ size comes_endowed comes_entered
    (by decide +kernel) present lends retains
  exact ⟨b, size, present', lends'⟩

end Confine
