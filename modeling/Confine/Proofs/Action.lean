import Confine.Allocator.Request

/-! # Running actions

An action applied to a state gives its outcome together with the state after it.  The lemmas below
run the parts of an action one after another, so that a proof about an operation follows its text.
-/

namespace Confine

section Bind

variable {ε σ α β : Type} {x : ExceptT ε (StateM σ) α} {f : α → ExceptT ε (StateM σ) β} {s s' : σ}

theorem bind_ok {v : α} (h : x s = (.ok v, s')) : (x >>= f) s = f v s' := by
  simp only [bind, ExceptT.bind, ExceptT.mk, StateT.bind, h, ExceptT.bindCont]

theorem bind_error {fault : ε} (h : x s = (.error fault, s')) :
    (x >>= f) s = (.error fault, s') := by
  simp only [bind, ExceptT.bind, ExceptT.mk, StateT.bind, h, ExceptT.bindCont]
  rfl

theorem bind_get (f : σ → ExceptT ε (StateM σ) β) : (get >>= f) s = f s s :=
  bind_ok rfl

theorem ok_of_bind {b : β} (h : (x >>= f) s = (.ok b, s')) :
    ∃ a r, x s = (.ok a, r) ∧ f a r = (.ok b, s') := by
  rcases run : x s with ⟨e | a, r⟩
  · cases (bind_error run).symm.trans h
  · exact ⟨a, r, rfl, (bind_ok run).symm.trans h⟩

end Bind

namespace Allocator

variable {α β : Type} {a a' : Allocator}

@[simp] theorem run_pure (v : α) : (pure v : Action α) a = (.ok v, a) := rfl

@[simp] theorem run_get : (get : Action Allocator) a = (.ok a, a) := rfl

@[simp] theorem run_modify (f : Allocator → Allocator) :
    (modify f : Action PUnit) a = (.ok ⟨⟩, f a) := rfl

@[simp] theorem run_fail (cause : AllocError) :
    (fail cause : Action α) a = (.error (.error cause), a) := rfl

@[simp] theorem run_orPanic_ok (v : α) : (orPanic (.ok v) : Action α) a = (.ok v, a) := rfl

@[simp] theorem run_orPanic_error (cause : Panic) :
    (orPanic (.error cause) : Action α) a = (.error (.panic cause), a) := rfl

@[simp] theorem run_orExhausted_some (v : α) :
    (orExhausted (some v) : Action α) a = (.ok v, a) := rfl

@[simp] theorem run_orExhausted_none :
    (orExhausted none : Action α) a = (.error (.error .outOfMemory), a) := rfl

@[simp] theorem get_bind (f : Allocator → Action β) : (get >>= f) a = f a a :=
  bind_get f

@[simp] theorem modify_bind (f : Allocator → Allocator) (g : PUnit → Action β) :
    (modify f >>= g) a = g ⟨⟩ (f a) :=
  bind_ok (run_modify f)

@[simp] theorem orPanic_ok_bind (v : α) (f : α → Action β) : (orPanic (.ok v) >>= f) a = f v a :=
  bind_ok (run_orPanic_ok v)

@[simp] theorem orExhausted_some_bind (v : α) (f : α → Action β) :
    (orExhausted (some v) >>= f) a = f v a :=
  bind_ok (run_orExhausted_some v)

@[simp] theorem orExhausted_none_bind (f : α → Action β) :
    (orExhausted none >>= f) a = (.error (.error .outOfMemory), a) :=
  bind_error run_orExhausted_none

theorem tryCatch_ok {x : Action α} {handler : Fault → Action α} {v : α} (h : x a = (.ok v, a')) :
    (tryCatch x handler) a = (.ok v, a') := by
  simp only [tryCatch, tryCatchThe, MonadExceptOf.tryCatch, ExceptT.tryCatch, ExceptT.mk, bind,
    StateT.bind, h]
  rfl

theorem tryCatch_error {x : Action α} {handler : Fault → Action α} {fault : Fault}
    (h : x a = (.error fault, a')) : (tryCatch x handler) a = handler fault a' := by
  simp only [tryCatch, tryCatchThe, MonadExceptOf.tryCatch, ExceptT.tryCatch, ExceptT.mk, bind,
    StateT.bind, h]

theorem map_snd {x : Action α} {f : α → β} (a : Allocator) :
    ((x >>= fun v => pure (f v)) a).2 = (x a).2 := by
  rcases run : x a with ⟨fault | v, a'⟩
  · rw [bind_error run]
  · rw [bind_ok run, run_pure]

theorem perform_operation_snd (op : Operation Nat) :
    (a.perform (.operation op)).2 = (op.action a).2 := by
  rcases run : op.action a with ⟨fault | reply, a'⟩ <;> simp only [perform, run]

end Allocator

end Confine
