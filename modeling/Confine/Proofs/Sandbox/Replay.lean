import Confine.Proofs.Constructors
import Confine.Proofs.Sandbox.Wrappers

/-! # Running the constructors

The constructors of an executable are called one after another, in the order that its dynamic section
implies.  What a constructor does leads to no further call of one: in the restricted mode the init
wrapper does nothing, and nothing else calls constructors.
-/

namespace Confine

open DynamicEntry

namespace Event

def constructorCall? : Event → Option ConstructorCall
  | constructorCall call => some call
  | _ => none

end Event

namespace Sandbox

variable {m : Machine} {program : Program} {w : Wrappers} {done : List ConstructorCall}
  {arguments : Arguments} {p q : Sandbox}

def constructorCalls (p : Sandbox) : List ConstructorCall :=
  p.events.filterMap Event.constructorCall?

def View.constructorCalls (v : View) : List ConstructorCall :=
  v.events.filterMap Event.constructorCall?

theorem View.constructorCalls_push (v : View) (e : Event) :
    (v.push e).constructorCalls = v.constructorCalls ++ e.constructorCall?.toList := by
  simp only [constructorCalls, push, List.filterMap_append]
  cases e <;> rfl

theorem view_constructorCalls (p : Sandbox) : p.view.constructorCalls = p.constructorCalls := by
  simp only [View.constructorCalls, constructorCalls, view, List.filterMap_filter]
  congr 1
  funext e
  cases e <;> rfl

/-! ## What constructors do -/

/-- The process entered the restricted mode, and has called these constructors. -/
structure Recorded (done : List ConstructorCall) (v : View) : Prop where
  restricted : v.restricted = true
  calls : v.constructorCalls = done

theorem stable_calls : Stable m (·.constructorCalls = done) (·.constructorCalls = done) where
  closing _ h := h
  reserved v h _ := by
    have pushed := v.constructorCalls_push (.reserveHeap m.environment.requestedHeapSize)
    rw [h] at pushed
    exact pushed.trans (List.append_nil done)
  refused v h _ := by
    rw [v.constructorCalls_push, h]
    exact List.append_nil done

theorem stable_recorded : Stable m (Recorded done) (·.constructorCalls = done) where
  closing _ h := h.calls
  reserved v h missing := ⟨h.restricted, stable_calls.reserved v h.calls missing⟩
  refused v h missing := stable_calls.refused v h.calls missing

theorem callWrapper_keeps {pre ended : View → Prop} {wrapper : Arguments → Run Unit}
    (h : ∀ arguments, Triple pre (wrapper arguments) (fun _ => pre) ended) :
    Triple pre (callWrapper wrapper) (fun _ => pre) ended := by
  refine .read fun p => ?_
  split
  · exact h _
  · exact .pure fun _ hv => hv

theorem wrapInit_recorded (runInit : InitCode → Arguments → Run Unit) :
    Triple (Recorded done) (wrapInit m runInit arguments) (fun _ => Recorded done)
      (·.constructorCalls = done) :=
  wrapInit_ignored runInit (fun _ h => h.restricted) (fun _ h => ⟨h.restricted, h.calls⟩)
    fun _ h => h.calls

theorem programMain_recorded (hw : ∀ c arguments, Triple (Recorded done) (w.entered c arguments)
      (fun _ => Recorded done) (·.constructorCalls = done)) :
    Triple (Recorded done) (programMain m program w arguments) (fun _ => Recorded done)
      (·.constructorCalls = done) := by
  have entered : Triple (Recorded done) (emit (.programMain arguments)) (fun _ => Recorded done)
      (·.constructorCalls = done) := by
    refine .emit rfl fun v h => ⟨h.restricted, ?_⟩
    rw [v.constructorCalls_push, h.calls]
    exact List.append_nil done
  exact .bind entered fun _ => .bind (stable_recorded.takeSteps _ fun c =>
    callWrapper_keeps (hw c)) fun _ => .pure fun _ h => h

/-- In the restricted mode no wrapper leads to the call of a constructor. -/
theorem wrappers_recorded (depth : Nat) : ∀ c arguments, Triple (Recorded done)
    ((wrappers m program depth).entered c arguments) (fun _ => Recorded done)
    (·.constructorCalls = done) := by
  induction depth with
  | zero =>
      rintro (_ | _) arguments <;> simp only [wrappers, Wrappers.entered]
      · exact wrapInit_recorded _
      · refine wrapMain_triple (fun v h => h.calls) fun v h saved => .pure ?_
        rintro _ rfl
        exact h.calls
  | succ depth ih =>
      rintro (_ | _) arguments <;> simp only [wrappers, Wrappers.entered]
      · exact wrapInit_recorded _
      · refine wrapMain_triple (fun v h => h.calls) fun v h saved => ?_
        refine (programMain_recorded ih).consequence ?_ (fun _ _ h => h.calls) fun _ h => h
        rintro _ rfl
        exact ⟨h.restricted, h.calls⟩

theorem takeSteps_calls {steps : List Step} (plain : ∀ step ∈ steps, step.wrapperCall? = none) :
    Triple (·.constructorCalls = done) (takeSteps m w steps) (fun _ => (·.constructorCalls = done))
      (·.constructorCalls = done) :=
  .forM fun step mem => takeStep_of_perform (stable_calls.perform w (plain step mem))

/-! ## The run -/

/-- A condition that tells which constructors were called, and that what a constructor does keeps. -/
structure Records (m : Machine) (program : Program) (w : Wrappers)
    (pre : List ConstructorCall → View → Prop) : Prop where
  calls : ∀ done v, pre done v → v.constructorCalls = done
  push : ∀ done v call, pre done v → pre (done ++ [call]) (v.push (.constructorCall call))
  steps : ∀ done number, Triple (pre done)
    (takeSteps m w (program.constructorSteps.getD number [])) (fun _ => pre done)
    (·.constructorCalls = done)

/-- The process ended in one of the constructors that were to be called.  Those before it were called
as well, and those behind it were not. -/
def EndedIn (m : Machine) (program : Program) (w : Wrappers) (first : Nat)
    (done calls : List ConstructorCall) (ending : Ending) (q : Sandbox) : Prop :=
  ∃ ran call rest entered, calls = ran ++ call :: rest ∧
    q.constructorCalls = done ++ (ran ++ [call]) ∧
    takeSteps m w (program.constructorSteps.getD (first + ran.length) []) entered =
      (.error ending, q)

section Run

variable {pre : List ConstructorCall → View → Prop}

theorem EndedIn.later {first : Nat} {call : ConstructorCall} {calls : List ConstructorCall}
    {ending : Ending} (h : EndedIn m program w (first + 1) (done ++ [call]) calls ending q) :
    EndedIn m program w first done (call :: calls) ending q := by
  obtain ⟨ran, last, rest, entered, rfl, made, within⟩ := h
  refine ⟨call :: ran, last, rest, entered, rfl, ?_, ?_⟩
  · rw [made, List.append_assoc]
    rfl
  · rw [← within, List.length_cons, Nat.add_right_comm, Nat.add_assoc]

theorem callConstructor_contract (h : Records m program w pre) (call : ConstructorCall)
    (calls : List ConstructorCall) (number : Nat) :
    Contract (pre done ·.view) (callConstructor m program w call number)
      (fun _ q => pre (done ++ [call]) q.view) (EndedIn m program w number done (call :: calls)) := by
  have entered : Contract (pre done ·.view) (emit (.constructorCall call))
      (fun _ p => pre (done ++ [call]) p.view) (EndedIn m program w number done (call :: calls)) := by
    refine .emit fun p hp => ?_
    have shown : view { p with trace := .constructorCall call :: p.trace } =
        p.view.push (.constructorCall call) := by
      simp [view, events, View.push, Event.isNotable, Event.isStage]
    rw [shown]
    exact h.push done _ call hp
  have taken : Contract (pre (done ++ [call]) ·.view)
      (takeSteps m w (program.constructorSteps.getD number []))
      (fun _ q => pre (done ++ [call]) q.view)
      (EndedIn m program w number done (call :: calls)) := by
    intro p hp
    have outcome := h.steps (done ++ [call]) number p hp
    rcases run : takeSteps m w (program.constructorSteps.getD number []) p with ⟨ending | _, q⟩ <;>
      rw [run] at outcome
    · have made : q.view.constructorCalls = done ++ [call] := outcome
      rw [view_constructorCalls] at made
      exact ⟨[], call, calls, p, rfl, made, run⟩
    · exact outcome
  exact .bind ((log_idle _ _).returns fun p q hp still => still.view ▸ hp) fun _ =>
    .bind entered fun _ => taken

theorem callConstructors_contract (h : Records m program w pre) (calls : List ConstructorCall) :
    ∀ first done, Contract (pre done ·.view)
      ((calls.zipIdx first).forM fun (call, number) => callConstructor m program w call number)
      (fun _ q => pre (done ++ calls) q.view) (EndedIn m program w first done calls) := by
  induction calls with
  | nil =>
      intro first done
      exact .pure fun p hp => (List.append_nil done).symm ▸ hp
  | cons call calls ih =>
      intro first done
      refine .bind (callConstructor_contract h call calls first) fun _ => ?_
      refine (ih (first + 1) (done ++ [call])).consequence (fun _ hp => hp) ?_ fun _ _ => .later
      intro _ q hq
      rwa [List.append_assoc] at hq

end Run

/-- Constructors that are called now lead to no further call of one: the process entered the
restricted mode, or they call no wrapper. -/
inductive Once (m : Machine) (program : Program) (p : Sandbox) : Wrappers → Prop
  | restricted (depth : Nat) (h : p.context.restricted = true) :
      Once m program p (wrappers m program depth)
  | plain (w : Wrappers) (h : ∀ steps ∈ program.constructorSteps, ∀ step ∈ steps,
      step.wrapperCall? = none) : Once m program p w

/-- How a run of constructors goes: either all of them are called and return, or the process ends in
one of them. -/
inductive Replay (m : Machine) (program : Program) (w : Wrappers) (p : Sandbox)
    (calls : List ConstructorCall) : Except Ending Unit × Sandbox → Prop
  | returned {q : Sandbox} (all : q.constructorCalls = p.constructorCalls ++ calls) :
      Replay m program w p calls (.ok (), q)
  | ended {ending : Ending} {q : Sandbox}
      (part : EndedIn m program w 0 p.constructorCalls calls ending q) :
      Replay m program w p calls (.error ending, q)

theorem records_restricted (depth : Nat) :
    Records m program (wrappers m program depth) Recorded where
  calls _ _ h := h.calls
  push done v call h := by
    refine ⟨h.restricted, ?_⟩
    rw [v.constructorCalls_push, h.calls]
    rfl
  steps _ _ := stable_recorded.takeSteps _ fun c => callWrapper_keeps (wrappers_recorded depth c)

theorem records_plain
    (h : ∀ steps ∈ program.constructorSteps, ∀ step ∈ steps, step.wrapperCall? = none) :
    Records m program w fun done v => v.constructorCalls = done where
  calls _ _ h := h
  push done v call h := by
    rw [v.constructorCalls_push, h]
    rfl
  steps done number := by
    apply takeSteps_calls
    intro step mem
    rw [List.getD_eq_getElem?_getD] at mem
    cases found : program.constructorSteps[number]? with
    | none =>
        rw [found] at mem
        cases mem
    | some steps =>
        rw [found] at mem
        exact h steps (List.mem_of_getElem? found) step mem

theorem replay (once : Once m program p w) (c : Constructors) :
    Replay m program w p (c.calls m.host.constructorWords arguments)
      (runConstructors m program w c arguments p) := by
  have replays : ∀ pre, Records m program w pre → pre p.constructorCalls p.view →
      Replay m program w p (c.calls m.host.constructorWords arguments)
        (runConstructors m program w c arguments p) := by
    intro pre records hp
    have contract : Contract (pre p.constructorCalls ·.view) (runConstructors m program w c arguments)
        _ _ := callConstructors_contract records _ 0 p.constructorCalls
    have outcome := contract p hp
    rcases run : runConstructors m program w c arguments p with ⟨ending | _, q⟩ <;>
      rw [run] at outcome
    · exact .ended outcome
    · have all := records.calls _ _ outcome
      rw [view_constructorCalls] at all
      exact .returned all
  cases once with
  | restricted depth h => exact replays _ (records_restricted depth) ⟨h, view_constructorCalls p⟩
  | plain w h => exact replays _ (records_plain h) (view_constructorCalls p)

end Sandbox

namespace Constructors

open Sandbox

variable {bias : Nat} {entries : List DynamicEntry}

theorem calls_eq (c : Constructors) (words : List Nat) (arguments : Arguments) :
    c.calls words arguments = c.init.toList.map (⟨.init, ·, arguments⟩) ++
      ((words.take c.len).filter fun word => word ≠ 0 ∧ word ≠ 2 ^ 64 - 1).map
        (⟨.array, ·, arguments⟩) := by
  have kept : ∀ word ∈ words.take c.len,
      (!isPlaceholder word) = decide (word ≠ 0 ∧ word ≠ 2 ^ 64 - 1) := by
    intro word _
    simp only [isPlaceholder, Bool.not_or, ← decide_not, ← Bool.decide_and]
    rfl
  rw [calls, List.filter_congr kept]

/-- What a dynamic section makes of constructors is decided by the last entry of each of three kinds
before its null entry.  The initial function that it names is called first, and then the functions in
the array, in order and without the placeholders, all with the same arguments. -/
structure Replays (bias : Nat) (entries : List DynamicEntry) : Prop where
  overflows : ofDynamic bias entries = .error .addOverflow ↔ ∃ e ∈ body entries, Overflows bias e
  listed : (¬∃ e ∈ body entries, Overflows bias e) →
    ofDynamic bias entries = .ok (listed bias entries)
  ended : ∀ value more, ofDynamic bias (entries ++ ⟨nullTag, value⟩ :: more) = ofDynamic bias entries
  /-- Entries may be added, dropped and exchanged as long as those of each kind stay in order. -/
  decided : ∀ others, (∀ tag ∈ [initTag, initArrayTag, initArraySizeTag],
    tagged tag others = tagged tag entries) → ofDynamic bias others = ofDynamic bias entries
  runs : ∀ c, ofDynamic bias entries = .ok c → ∀ m program w arguments p, Once m program p w →
    Replay m program w p
      (c.init.toList.map (⟨.init, ·, arguments⟩) ++
        ((m.host.constructorWords.take c.len).filter fun word => word ≠ 0 ∧ word ≠ 2 ^ 64 - 1).map
          (⟨.array, ·, arguments⟩))
      (runConstructors m program w c arguments p)

/-- Constructors are collected and called as the section says, whatever it lists. -/
theorem replays_of_section (bias : Nat) (entries : List DynamicEntry) : Replays bias entries where
  overflows := by
    constructor
    · intro stopped
      by_contra words
      rw [ofDynamic_of_words words] at stopped
      cases stopped
    · exact ofDynamic_of_overflows
  listed := ofDynamic_of_words
  ended value more := ofDynamic_append bias value entries more
  decided _ same := ofDynamic_congr same bias
  runs c _ m program w arguments p once := by
    rw [← calls_eq]
    exact replay once c

end Constructors

end Confine
