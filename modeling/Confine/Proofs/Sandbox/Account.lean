import Confine.Proofs.Client.Progress
import Confine.Proofs.Sandbox.Steady

/-! # The heap of an honest process

What a process has of its heap is accounted for by the requests of an honest program that lead to
its allocator.  A step is honest if its request is, on some such account, and honest steps keep the
heap accounted for.  A heap that is accounted for can be walked to its end, and the usage of it can
be logged unless there are more live blocks than can be counted.
-/

namespace Confine

/-- The heap region lies so that the addresses of the largest region are words, as the system has
it. -/
structure Machine.Sited (m : Machine) : Prop where
  aligned : 32 ∣ m.heapBase
  low : m.heapBase ≤ 2 ^ 47

namespace Machine

variable (m : Machine)

/-- The heap that the process gets when it is reserved. -/
abbrev Grants (heap : Heap) : Prop :=
  Sandbox.reservation m m.environment.requestedHeapSize = .ok heap

/-- The allocator, if there is one, is that of an honest program that used the heap. -/
def Accounts (a? : Option Allocator) : Prop :=
  ∀ a, a? = some a → ∃ heap client, m.Grants heap ∧
    Client.Reaches Client.Honest (Client.start heap) client ∧ client.allocator = a

/-- On some account of what was done with the heap up to now, the request is an honest one. -/
def Admits (a? : Option Allocator) (request : Request Nat) : Prop :=
  ∀ heap, m.Grants heap → ∃ client, Client.Reaches Client.Honest (Client.start heap) client ∧
    client.allocator = a?.getD (.new heap) ∧ client.Honest request

end Machine

/-- What the step asks of the allocator is honest. -/
def Step.Honest (m : Machine) (p : Sandbox) (step : Step) : Prop :=
  ∀ request, step.request? m p = some request → m.Admits p.context.allocator request

namespace Machine

variable {m : Machine} {a : Allocator} {a? : Option Allocator} {request : Request Nat}
  {heap : Heap}

theorem Grants.sited (granted : m.Grants heap) (sited : m.Sited) : heap.Sited := by
  unfold Grants Sandbox.reservation at granted
  split at granted
  · cases granted
  · obtain ⟨-, rfl⟩ := Heap.reserve_eq_ok granted
    exact ⟨granted, sited.aligned, sited.low⟩

theorem Grants.capacity (granted : m.Grants heap) :
    heap.capacity = m.environment.requestedHeapSize := by
  unfold Grants Sandbox.reservation at granted
  split at granted
  · cases granted
  · obtain ⟨-, rfl⟩ := Heap.reserve_eq_ok granted
    rfl

theorem Accounts.reserve (granted : m.Grants heap) : m.Accounts (some (.new heap)) := by
  intro a eq
  cases eq
  exact ⟨heap, Client.start heap, granted, .refl, rfl⟩

theorem Admits.reserve (h : m.Admits none request) (granted : m.Grants heap) :
    m.Admits (some (.new heap)) request := by
  intro heap' granted'
  have same : heap = heap' := Except.ok.inj (granted.symm.trans granted')
  exact same ▸ h heap granted

theorem Admits.serve (h : m.Admits (some a) request) (accounts : m.Accounts (some a)) :
    m.Accounts (some (a.perform request).2) := by
  obtain ⟨heap, -, granted, -, -⟩ := accounts a rfl
  obtain ⟨client, reached, eq, honest⟩ := h heap granted
  intro a' eq'
  cases eq'
  have same : client.allocator = a := eq
  exact ⟨heap, client.serve request, granted, .step reached honest,
    (client.allocator_serve request).trans (by rw [same])⟩

/-- A program that used the heap honestly knows its layout. -/
theorem Grants.sound {client : Client} (granted : m.Grants heap) (sited : m.Sited)
    (reached : Client.Reaches Client.Honest (Client.start heap) client) : ∃ l, client.Sound l :=
  reached.sound ⟨_, Client.Sound.start_of_sited (granted.sited sited)⟩
    fun _ _ _ => Client.Sound.careful_of_honest

/-- The walk over a heap that is accounted for comes to its end, if the count does not overflow. -/
theorem Accounts.liveUsage (h : m.Accounts (some a)) (sited : m.Sited) :
    (a.Countable → ∃ usage, a.liveUsage = .ok usage) ∧
      (¬a.Countable → a.liveUsage = .error (.panic .addOverflow)) := by
  obtain ⟨heap, client, granted, reached, rfl⟩ := h a rfl
  obtain ⟨l, sound⟩ := granted.sound sited reached
  rw [sound.realizes.liveUsage_eq, sound.realizes.countable_iff]
  exact ⟨fun few => ⟨_, if_pos few⟩, fun many => if_neg many⟩

theorem Accounts.countable (h : m.Accounts (some a)) (sited : m.Sited)
    (small : m.environment.requestedHeapSize < 2 ^ 36) : a.Countable := by
  obtain ⟨heap, client, granted, reached, rfl⟩ := h a rfl
  have start := Client.Sound.start_of_sited (granted.sited sited)
  obtain ⟨l, sound⟩ := granted.sound sited reached
  have capacity : client.allocator.heap.capacity = heap.capacity :=
    reached.capacity ⟨_, start⟩ fun _ _ _ => Client.Sound.careful_of_honest
  refine sound.realizes.countable_of_small ?_
  rwa [capacity, granted.capacity]

end Machine

namespace Sandbox

/-- The live blocks of the heap are few enough to be counted, if there is a heap. -/
def Countable (p : Sandbox) : Prop :=
  ∀ a, p.context.allocator = some a → a.Countable

/-- The process does not end by logging its heap usage: either nobody listens, or the live blocks
can be counted. -/
def CanLog (p : Sandbox) : Prop :=
  p.logger.enabled .debug = true → p.Countable

variable {m : Machine} {p : Sandbox}

theorem countable_of_small (sited : m.Sited) (accounts : m.Accounts p.context.allocator)
    (small : m.environment.requestedHeapSize < 2 ^ 36) : p.Countable :=
  fun _ present => Machine.Accounts.countable (present ▸ accounts) sited small

theorem logHeapUsage_returns (sited : m.Sited) (accounts : m.Accounts p.context.allocator)
    (canLog : p.CanLog) :
    Contract (· = p) (logHeapUsage m) (fun _ => Still p) fun _ _ => False := by
  refine .get_bind fun q eq => ?_
  rw [eq]
  split
  · exact .pure fun r eq => eq ▸ .refl p
  · next listening =>
      split
      · exact .pure fun r eq => eq ▸ .refl p
      · next a present =>
          have few : a.Countable := canLog (by simpa using listening) a present
          obtain ⟨usage, walked⟩ := (Machine.Accounts.liveUsage (present ▸ accounts) sited).1 few
          rw [walked]
          exact ((log_idle _ _).returns fun _ _ => Still.trans).started_in (.refl p)

theorem panic_exits {α : Type} (cause : Panic) (p : Sandbox) :
    ∃ q, (panic m cause : Run α) p = (.error (.exited ExitReason.unreachable.status), q) := by
  unfold panic
  cases m.panics <;> exact ⟨_, rfl⟩

/-- With more live blocks than can be counted, the process ends when its heap usage is logged. -/
theorem logHeapUsage_panics (sited : m.Sited) (accounts : m.Accounts p.context.allocator)
    (cannot : ¬p.CanLog) : logHeapUsage m p = panic m .addOverflow p := by
  simp only [CanLog, Countable, Classical.not_imp, not_forall] at cannot
  obtain ⟨listening, a, present, many⟩ := cannot
  have overflows := (Machine.Accounts.liveUsage (present ▸ accounts) sited).2 many
  rw [logHeapUsage, bind_get]
  simp [listening, present, overflows]

end Sandbox

end Confine
