import Confine.Proofs.Sandbox.Contract

/-! # What a computation of a process does

The order in which a program is started shows in a few events and in a few variables of the process.
`View` has these alone, and a triple says how a computation changes them, whether it returns or ends
the process.  Most of what a process does is silent: it changes nothing that the view has.
-/

namespace Confine

namespace Event

/-- The event is one of the start of a program, up to the program's init code. -/
def isStage : Event → Bool
  | reserveHeap _ | resolveStart | startMain _ | locateConstructors | emitSentinels | primeInput
  | enterRestrictedMode | programInit _ | constructorCall _ => true
  | _ => false

def isMain : Event → Bool
  | programMain _ => true
  | _ => false

/-- The event belongs to the start of a program. -/
def isNotable (e : Event) : Bool :=
  e.isStage || e.isMain

end Event

namespace Sandbox

/-- What a process shows of the start of its program. -/
structure View where
  received : Option Arguments
  provisioned : Bool
  initSaved : Bool
  mainSaved : Bool
  restricted : Bool
  /-- The events of the start, in order. -/
  events : List Event

def View.push (v : View) (e : Event) : View :=
  { v with events := v.events ++ [e] }

def view (p : Sandbox) : View where
  received := p.received
  provisioned := p.context.allocator.isSome
  initSaved := p.context.initSaved
  mainSaved := p.context.mainSaved
  restricted := p.context.restricted
  events := p.events.filter Event.isNotable

theorem view_initSaved (p : Sandbox) (saved : Bool) :
    view { p with context := { p.context with initSaved := saved } } =
      { p.view with initSaved := saved } :=
  rfl

theorem view_mainSaved (p : Sandbox) (saved : Bool) :
    view { p with context := { p.context with mainSaved := saved } } =
      { p.view with mainSaved := saved } :=
  rfl

theorem view_restricted (p : Sandbox) (restricted : Bool) :
    view { p with context := { p.context with restricted } } = { p.view with restricted } :=
  rfl

/-- A computation started in a view that satisfies `pre` returns in one that satisfies `post`, or
ends the process in one that satisfies `ended`. -/
def Triple {α : Type} (pre : View → Prop) (run : Run α) (post : α → View → Prop)
    (ended : View → Prop) : Prop :=
  ∀ p, pre p.view → match run p with
    | (.ok a, q) => post a q.view
    | (.error _, q) => ended q.view

namespace Triple

variable {α β : Type} {pre pre' : View → Prop} {run : Run α} {f : α → Run β}
  {post post' : α → View → Prop} {result : β → View → Prop} {ended ended' : View → Prop}

theorem consequence (h : Triple pre run post ended) (before : ∀ v, pre' v → pre v)
    (after : ∀ a v, post a v → post' a v) (closing : ∀ v, ended v → ended' v) :
    Triple pre' run post' ended' :=
  Contract.consequence h (fun _ => before _) (fun _ _ => after _ _) fun _ _ => closing _

theorem imp (h : Triple pre run post ended) (after : ∀ a v, post a v → post' a v) :
    Triple pre run post' ended :=
  h.consequence (fun _ hv => hv) after fun _ hv => hv

theorem at_view (h : Triple pre run post ended) {v : View} (hv : pre v) :
    Triple (· = v) run post ended :=
  h.consequence (fun _ hw => hw ▸ hv) (fun _ _ hw => hw) fun _ hw => hw

theorem pure {a : α} (h : ∀ v, pre v → post a v) : Triple pre (Pure.pure a) post ended :=
  fun _ => h _

theorem throw {ending : Ending} (h : ∀ v, pre v → ended v) :
    Triple pre (MonadExcept.throw ending : Run α) post ended :=
  fun _ => h _

theorem bind {x : Run α} (h : Triple pre x post ended)
    (h' : ∀ a, Triple (post a) (f a) result ended) : Triple pre (x >>= f) result ended :=
  Contract.bind h h'

theorem given {c : Prop} (h : c → Triple pre run post ended) :
    Triple (fun v => c ∧ pre v) run post ended :=
  fun p hp => h hp.1 p hp.2

theorem discard {post : PUnit → View → Prop} (h : Triple pre run (fun _ => post ⟨⟩) ended) :
    Triple pre (discard run) post ended :=
  Contract.discard h

theorem map {g : α → β} (h : Triple pre run (fun a => result (g a)) ended) :
    Triple pre (g <$> run) result ended :=
  Contract.map h

theorem get_bind {f : Sandbox → Run β}
    (h : ∀ p, pre p.view → Triple (· = p.view) (f p) result ended) :
    Triple pre (get >>= f) result ended :=
  fun p hp => h p hp p rfl

theorem read {f : Sandbox → Run β} (h : ∀ p, Triple pre (f p) result ended) :
    Triple pre (get >>= f) result ended :=
  fun p hp => h p p hp

theorem modify {g : Sandbox → Sandbox} {post : PUnit → View → Prop}
    (h : ∀ p, pre p.view → post ⟨⟩ (g p).view) : Triple pre (modify g) post ended :=
  fun p hp => h p hp

theorem forM {ι : Type} {l : List ι} {f : ι → Run PUnit}
    (h : ∀ i ∈ l, Triple pre (f i) (fun _ => pre) ended) :
    Triple pre (l.forM f) (fun _ => pre) ended :=
  Contract.forM h

end Triple

theorem Triple.emit {e : Event} {pre post ended : View → Prop} (notable : e.isNotable = true)
    (h : ∀ v, pre v → post (v.push e)) : Triple pre (emit e) (fun _ => post) ended :=
  .modify fun p hp => by simpa [view, events, View.push, notable] using h _ hp

/-- The computation changes nothing that the view has. -/
def Silent {α : Type} (run : Run α) : Prop :=
  ∀ v, Triple (· = v) run (fun _ => (· = v)) (· = v)

namespace Silent

variable {α β : Type} {x : Run α} {f : α → Run β}

theorem keeps {pre ended : View → Prop} (h : Silent x) (closing : ∀ v, pre v → ended v) :
    Triple pre x (fun _ => pre) ended := by
  intro p hp
  have outcome := h p.view p rfl
  split at outcome
  · rw [outcome]
    exact hp
  · rw [outcome]
    exact closing _ hp

theorem pure {a : α} : Silent (Pure.pure a) :=
  fun _ => .pure fun _ hw => hw

theorem bind (hx : Silent x) (hf : ∀ a, Silent (f a)) : Silent (x >>= f) :=
  fun v => .bind (hx v) fun a => hf a v

theorem get_bind {f : Sandbox → Run β} (h : ∀ p, Silent (f p)) : Silent (get >>= f) :=
  fun v => .read fun p => h p v

theorem modify {g : Sandbox → Sandbox} (h : ∀ p, (g p).view = p.view) : Silent (modify g) :=
  fun _ => .modify fun p hp => (h p).trans hp

theorem emit {e : Event} (h : e.isNotable = false) : Silent (emit e) :=
  .modify fun p => by simp [view, events, h]

end Silent

theorem Still.view {p q : Sandbox} (h : Still p q) : q.view = p.view := by
  simp only [Sandbox.view, h.received, h.context, h.events]

/-- An idle computation changes nothing that the view has. -/
theorem Idle.silent {α : Type} {x : Run α} (h : Idle (fun _ => True) x) : Silent x := by
  intro v
  have kept : Contract (·.view = v) x (fun _ => (·.view = v)) fun _ => (·.view = v) :=
    h.keeps (fun _ _ hp still => still.view.trans hp) fun _ _ hp _ => hp
  exact kept

/-- The computation ends the process in the view in which it was started. -/
def Aborts {α : Type} (run : Run α) : Prop :=
  ∀ v, Triple (· = v) run (fun _ _ => False) (· = v)

namespace Aborts

variable {α β : Type} {x : Run α}

theorem throw {ending : Ending} : Aborts (MonadExcept.throw ending : Run α) :=
  fun _ => .throw fun _ hw => hw

theorem after {f : α → Run β} (hx : Silent x) (hf : ∀ a, Aborts (f a)) : Aborts (x >>= f) :=
  fun v => .bind (hx v) fun a => hf a v

theorem triple {pre : View → Prop} {post : α → View → Prop} {ended : View → Prop} (h : Aborts x)
    (closing : ∀ v, pre v → ended v) : Triple pre x post ended := by
  intro p hp
  have outcome := h p.view p rfl
  split at outcome
  · exact outcome.elim
  · rw [outcome]
    exact closing _ hp

theorem silent (h : Aborts x) : Silent x :=
  fun _ => h.triple fun _ hw => hw

end Aborts

end Sandbox

end Confine
