import Confine.Proofs.Action
import Confine.Sandbox.Startup

/-! # Contracts of the computations of a process

A contract says what a computation does with a process: in which processes it may be started, what
holds when it returns, and what holds when it ends the process.  Most of what a process does is
idle: it changes nothing that decides what follows.
-/

namespace Confine

namespace Sandbox

/-- A computation started in a process that satisfies `pre` returns in one that satisfies `post`, or
ends it in a way that satisfies `ended`. -/
def Contract {α : Type} (pre : Sandbox → Prop) (run : Run α) (post : α → Sandbox → Prop)
    (ended : Ending → Sandbox → Prop) : Prop :=
  ∀ p, pre p → match run p with
    | (.ok a, q) => post a q
    | (.error e, q) => ended e q

namespace Contract

variable {α β : Type} {pre pre' : Sandbox → Prop} {run x : Run α} {f : α → Run β}
  {post post' : α → Sandbox → Prop} {result : β → Sandbox → Prop}
  {ended ended' : Ending → Sandbox → Prop} {p : Sandbox}

theorem consequence (h : Contract pre run post ended) (before : ∀ p, pre' p → pre p)
    (after : ∀ a p, post a p → post' a p) (closing : ∀ e p, ended e p → ended' e p) :
    Contract pre' run post' ended' := by
  intro p hp
  have outcome := h p (before p hp)
  split at outcome
  · exact after _ _ outcome
  · exact closing _ _ outcome

theorem imp (h : Contract pre run post ended) (after : ∀ a p, post a p → post' a p) :
    Contract pre run post' ended :=
  h.consequence (fun _ hp => hp) after fun _ _ he => he

theorem strengthen (h : Contract pre run post ended) (before : ∀ p, pre' p → pre p) :
    Contract pre' run post ended :=
  h.consequence before (fun _ _ ha => ha) fun _ _ he => he

theorem started_in (h : Contract pre run post ended) (hp : pre p) :
    Contract (· = p) run post ended :=
  h.strengthen fun _ eq => eq ▸ hp

theorem returned {a : α} {q : Sandbox} (h : Contract pre run post ended) (hp : pre p)
    (eq : run p = (.ok a, q)) : post a q := by
  have outcome := h p hp
  rwa [eq] at outcome

theorem ends (h : Contract pre run (fun _ _ => False) ended) (hp : pre p) :
    ∃ e q, run p = (.error e, q) ∧ ended e q := by
  have outcome := h p hp
  split at outcome
  · exact outcome.elim
  · next e q eq => exact ⟨e, q, eq, outcome⟩

theorem given {c : Prop} (h : c → Contract pre run post ended) :
    Contract (fun p => c ∧ pre p) run post ended :=
  fun p hp => h hp.1 p hp.2

theorem pure {a : α} (h : ∀ p, pre p → post a p) : Contract pre (Pure.pure a) post ended :=
  h

theorem throw {e : Ending} (h : ∀ p, pre p → ended e p) :
    Contract pre (MonadExcept.throw e : Run α) post ended :=
  h

/-- What follows on a computation may use how it returned. -/
theorem bind_eq (h : Contract (· = p) x post ended)
    (h' : ∀ a q, x p = (.ok a, q) → post a q → Contract (· = q) (f a) result ended) :
    Contract (· = p) (x >>= f) result ended := by
  rintro _ rfl
  have outcome := h _ rfl
  split at outcome
  · next a q eq =>
      rw [bind_ok eq]
      exact h' a q eq outcome q rfl
  · next e q eq =>
      rw [bind_error eq]
      exact outcome

theorem bind (h : Contract pre x post ended) (h' : ∀ a, Contract (post a) (f a) result ended) :
    Contract pre (x >>= f) result ended :=
  fun p hp => (h.started_in hp).bind_eq (fun a _ _ hq => (h' a).started_in hq) p rfl

theorem map {g : α → β} (h : Contract pre run (fun a => result (g a)) ended) :
    Contract pre (g <$> run) result ended := by
  rw [map_eq_pure_bind]
  exact .bind h fun _ => .pure fun _ hp => hp

theorem discard {post : PUnit → Sandbox → Prop} (h : Contract pre run (fun _ => post ⟨⟩) ended) :
    Contract pre (discard run) post ended := by
  rw [Functor.discard, LawfulFunctor.map_const]
  exact h.map

theorem get_bind {f : Sandbox → Run β}
    (h : ∀ p, pre p → Contract (· = p) (f p) result ended) :
    Contract pre (get >>= f) result ended :=
  fun p hp => h p hp p rfl

/-- The process is looked at for what its condition does not depend on. -/
theorem read {f : Sandbox → Run β} (h : ∀ p, Contract pre (f p) result ended) :
    Contract pre (get >>= f) result ended :=
  fun p hp => h p p hp

theorem modify {g : Sandbox → Sandbox} {post : PUnit → Sandbox → Prop}
    (h : ∀ p, pre p → post ⟨⟩ (g p)) : Contract pre (modify g) post ended :=
  h

theorem emit {e : Event} {post : PUnit → Sandbox → Prop}
    (h : ∀ p, pre p → post ⟨⟩ { p with trace := e :: p.trace }) :
    Contract pre (emit e) post ended :=
  h

theorem forM {ι : Type} {l : List ι} {f : ι → Run PUnit}
    (h : ∀ i ∈ l, Contract pre (f i) (fun _ => pre) ended) :
    Contract pre (l.forM f) (fun _ => pre) ended := by
  induction l with
  | nil => exact .pure fun _ hp => hp
  | cons i l ih =>
      exact .bind (h i List.mem_cons_self) fun _ => ih fun j hj => h j (List.mem_cons_of_mem _ hj)

end Contract

theorem conclude_error {run : Run Unit} {e : Ending} {p q : Sandbox}
    (ends : run p = (.error e, q)) : conclude run p = (some e, q) := by
  rw [conclude, ends]

/-! ## Idle computations -/

/-- The processes differ at most in what decides nothing of what follows: the log, the input, and
what steps have returned. -/
structure Still (p q : Sandbox) : Prop where
  trace : q.trace = p.trace
  output : q.output = p.output
  received : q.received = p.received
  strict : q.strict = p.strict
  context : q.context = p.context

namespace Still

variable {p q r : Sandbox}

theorem refl (p : Sandbox) : Still p p :=
  ⟨rfl, rfl, rfl, rfl, rfl⟩

theorem trans (h : Still p q) (h' : Still q r) : Still p r where
  trace := h'.trace.trans h.trace
  output := h'.output.trans h.output
  received := h'.received.trans h.received
  strict := h'.strict.trans h.strict
  context := h'.context.trans h.context

theorem events (h : Still p q) : q.events = p.events :=
  congrArg List.reverse h.trace

theorem provisioned (h : Still p q) :
    q.context.allocator.isSome = p.context.allocator.isSome := by
  rw [h.context]

theorem push (h : Still p q) (e : Event) :
    Still { p with trace := e :: p.trace } { q with trace := e :: q.trace } :=
  { h with trace := congrArg (e :: ·) h.trace }

end Still

/-- The computation changes nothing that decides what follows, and ends the process in some of the
given ways only. -/
def Idle {α : Type} (ends : Ending → Prop) (run : Run α) : Prop :=
  ∀ p, Contract (Still p) run (fun _ => Still p) fun e q => ends e ∧ Still p q

namespace Idle

variable {α β : Type} {ends : Ending → Prop} {x : Run α} {f : α → Run β}

theorem pure {a : α} : Idle ends (Pure.pure a) :=
  fun _ => .pure fun _ hq => hq

theorem throw {e : Ending} (h : ends e) : Idle ends (MonadExcept.throw e : Run α) :=
  fun _ => .throw fun _ hq => ⟨h, hq⟩

theorem bind (hx : Idle ends x) (hf : ∀ a, Idle ends (f a)) : Idle ends (x >>= f) :=
  fun p => .bind (hx p) fun a => hf a p

theorem get_bind {f : Sandbox → Run β} (h : ∀ p, Idle ends (f p)) : Idle ends (get >>= f) :=
  fun p => .read fun q => h q p

theorem modify {g : Sandbox → Sandbox} (h : ∀ p, Still p (g p)) : Idle ends (modify g) :=
  fun _ => .modify fun q hq => hq.trans (h q)

theorem forM {ι : Type} {l : List ι} {f : ι → Run PUnit} (h : ∀ i, Idle ends (f i)) :
    Idle ends (l.forM f) :=
  fun _ => .forM fun i _ => h i _

/-- An idle computation keeps every condition on what decides. -/
theorem keeps {pre : Sandbox → Prop} {ended : Ending → Sandbox → Prop} (h : Idle ends x)
    (still : ∀ p q, pre p → Still p q → pre q) (closing : ∀ e p, pre p → ends e → ended e p) :
    Contract pre x (fun _ => pre) ended := by
  intro p hp
  have outcome := h p p (.refl p)
  split at outcome
  · exact still p _ hp outcome
  · exact closing _ _ (still p _ hp outcome.2) outcome.1

theorem returns {pre : Sandbox → Prop} {ended : Ending → Sandbox → Prop}
    (h : Idle (fun _ => False) x) (still : ∀ p q, pre p → Still p q → pre q) :
    Contract pre x (fun _ => pre) ended :=
  h.keeps still fun _ _ _ never => never.elim

end Idle

section Primitives

variable {ends : Ending → Prop}

theorem writeErrors_idle (lines : List String) : Idle ends (writeErrors lines) :=
  .modify fun p => by split <;> exact ⟨rfl, rfl, rfl, rfl, rfl⟩

theorem log_idle (level : Log.Level) (text : String) : Idle ends (log level text) :=
  .get_bind fun _ => writeErrors_idle _

theorem initLogger_idle (verbosity : Log.Verbosity) : Idle ends (initLogger verbosity) :=
  .get_bind fun _ => (writeErrors_idle _).bind fun _ =>
    .modify fun _ => ⟨rfl, rfl, rfl, rfl, rfl⟩

theorem primeInput_idle : Idle ends primeInput := by
  refine .get_bind fun p => .bind (.modify fun _ => ⟨rfl, rfl, rfl, rfl, rfl⟩)
    fun _ => ?_
  split
  · exact log_idle _ _
  · exact .pure

theorem systemCall_idle (killed : ends (.killed killSignal)) : Idle ends systemCall := by
  refine .get_bind fun p => ?_
  split
  · exact .throw killed
  · exact .pure

theorem systemCall_keeps {pre : Sandbox → Prop} {ended : Ending → Sandbox → Prop}
    (still : ∀ p q, pre p → Still p q → pre q)
    (killed : ∀ p, pre p → ended (.killed killSignal) p) :
    Contract pre systemCall (fun _ => pre) ended := by
  have idle : Idle (· = .killed killSignal) systemCall := systemCall_idle rfl
  refine idle.keeps still ?_
  rintro e p hp rfl
  exact killed p hp

theorem readInput_idle (killed : ends (.killed killSignal)) (never : ends .never) :
    Idle ends readInput := by
  refine .get_bind fun p => ?_
  extract_lets input readAll
  have idle : Idle ends (readAll ()) := by
    refine .bind (.modify fun _ => ⟨rfl, rfl, rfl, rfl, rfl⟩) fun _ => ?_
    split
    · exact .pure
    · exact .throw never
  split
  · exact (systemCall_idle killed).bind fun _ => idle
  · exact idle

/-! ## How a process ends -/

/-- How a process ends that makes a last system call in order to exit. -/
def exitEnding (strict : Bool) (status : Nat) : Ending :=
  if strict then .killed killSignal else .exited status

theorem systemCall_throw {α : Type} (status : Nat) (p : Sandbox) {post : α → Sandbox → Prop} :
    Contract (Still p) (do systemCall; throw (.exited status)) post fun e q =>
      e = exitEnding p.strict status ∧ Still p q := by
  have alive : Contract (Still p) systemCall (fun _ q => p.strict = false ∧ Still p q) fun e q =>
      e = exitEnding p.strict status ∧ Still p q := by
    refine .get_bind fun q hq => ?_
    split
    · next dead =>
        have killed : exitEnding p.strict status = .killed killSignal := if_pos (hq.strict ▸ dead)
        exact .throw fun r eq => eq ▸ ⟨killed.symm, hq⟩
    · next alive => exact .pure fun r eq => eq ▸ ⟨hq.strict ▸ Bool.eq_false_iff.mpr alive, hq⟩
  exact .bind alive fun _ => .given fun alive => .throw fun q hq =>
    ⟨by rw [exitEnding, alive]; rfl, hq⟩

/-- A failure of the set-up is the last event. -/
theorem fatal_contract {α : Type} (failure : SetupFailure) (p : Sandbox)
    {post : α → Sandbox → Prop} :
    Contract (Still p) (fatal failure) post fun e q =>
      e = exitEnding p.strict failure.reason.status ∧
        Still { p with trace := .fatal failure.reason.status :: p.trace } q :=
  .bind (.emit fun _ hq => hq.push _) fun _ => .bind ((log_idle _ _).returns fun _ _ => Still.trans)
    fun _ => systemCall_throw _ _

end Primitives

end Sandbox

end Confine
