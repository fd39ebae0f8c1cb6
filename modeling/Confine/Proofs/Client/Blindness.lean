import Confine.Proofs.Client.BlockList
import Confine.Proofs.Layout.Rebase
import Mathlib.Data.List.Forall2

/-! # Payloads do not matter

Two programs that ask for the same operations get the same answers, whatever either of them stores
in its own bytes, and up to alignments that both bases have wherever their heaps are.  Each of them
follows the run of the operations on layouts alone, which knows neither bytes nor addresses.
-/

namespace Confine

open Block Layout Allocator

/-- Two answers that differ by where the heaps start only. -/
def Reply.Alike (base base' : Nat) : Reply → Reply → Prop
  | .address (some p), .address (some q) => p + base' = q + base
  | reply, reply' => reply = reply'

theorem Reply.alike_shift (base base' : Nat) (reply : Reply) :
    (reply.shift base).Alike base base' (reply.shift base') := by
  cases reply with
  | address result =>
      cases result with
      | none => rfl
      | some o =>
          simp only [shift, Alike]
          omega
  | _ => rfl

theorem Reply.address?_shift (base : Nat) (reply : Reply) :
    (reply.shift base).address? = reply.address?.map (base + ·) := by
  cases reply with
  | address result => cases result <;> rfl
  | _ => rfl

theorem Operation.map_map {P Q R : Type} (f : P → Q) (g : Q → R) (op : Operation P) :
    (op.map f).map g = op.map (g ∘ f) := by
  cases op <;> rfl

theorem Operation.pointer?_map {P Q : Type} (f : P → Q) (op : Operation P) :
    (op.map f).pointer? = op.pointer?.map f := by
  cases op <;> rfl

namespace Client

/-- The answer to each operation of a script, with the allocator after it. -/
abbrev Log := List (Reply × Allocator)

/-- The address that a script names: null, or what an earlier operation returned. -/
def resolve (log : Log) : Option Nat → Nat
  | none => 0
  | some step => (log[step]?.bind (·.1.address?)).getD 0

/-- The programs that a script of operations leads to, with the answers.  Between the operations a
program may access its own bytes in any way. -/
inductive Plays (heap : Heap) : List (Operation (Option Nat)) → Client → Log → Prop
  | start : Plays heap [] (Client.start heap) []
  | access {ops : List (Operation (Option Nat))} {s : Client} {log : Log} {access : Access Nat} :
      Plays heap ops s log → s.OwnWrites (.access access) →
        Plays heap ops (s.serve (.access access)) log
  | operation {ops : List (Operation (Option Nat))} {s : Client} {log : Log}
      {op : Operation (Option Nat)} :
      Plays heap ops s log →
      (∀ name, op.pointer? = some name → resolve log name = 0 ∨ resolve log name ∈ s.live) →
        Plays heap (ops ++ [op]) (s.serve (.operation (op.map (resolve log))))
          (log ++ [(s.reply (.operation (op.map (resolve log))),
            (s.serve (.operation (op.map (resolve log)))).allocator)])

/-- Both allocators have the same blocks and the same break. -/
structure SameBlocks (a a' : Allocator) : Prop where
  blocks : ∃ bs, a.blocks = .ok bs ∧ a'.blocks = .ok bs
  brk : a'.heap.brk = a.heap.brk

/-- Two entries of a log that differ by where the heaps start only. -/
def Mirrors (base base' : Nat) (entry entry' : Reply × Allocator) : Prop :=
  entry.1.Alike base base' entry'.1 ∧ SameBlocks entry.2 entry'.2

end Client

namespace Layout

/-- A script in progress on layouts: the layout, and the answers so far with the layouts after
them. -/
abbrev Trace := Layout × List (Reply × Layout)

def named (answers : List (Reply × Layout)) : Option Nat → Option Nat
  | none => none
  | some step => answers[step]?.bind (·.1.address?)

def advance (t : Trace) (op : Operation (Option Nat)) : Trace :=
  let result := t.1.answer (op.map (named t.2))
  (result.2, t.2 ++ [result])

def follow (t : Trace) (ops : List (Operation (Option Nat))) : Trace :=
  ops.foldl advance t

theorem follow_concat (t : Trace) (ops : List (Operation (Option Nat)))
    (op : Operation (Option Nat)) : follow t (ops ++ [op]) = advance (follow t ops) op :=
  List.foldl_concat ..

theorem named_rebased (base : Nat) (answers : List (Reply × Layout)) :
    named (answers.map (rebased base)) = named answers := by
  funext name
  cases name with
  | none => rfl
  | some step =>
      simp only [named, List.getElem?_map]
      cases answers[step]? <;> rfl

theorem follow_rebase {base : Nat} (ops : List (Operation (Option Nat))) (t : Trace)
    (same : ∀ alignment size, .allocateAligned alignment size ∈ ops →
      Word.isPowerOfTwo alignment = true → Word.SameGaps t.1.base base alignment) :
    follow (t.1.rebase base, t.2.map (rebased base)) ops =
      ((follow t ops).1.rebase base, (follow t ops).2.map (rebased base)) := by
  induction ops generalizing t with
  | nil => rfl
  | cons op rest ih =>
      have gaps : ∀ alignment size, op.map (named t.2) = .allocateAligned alignment size →
          Word.isPowerOfTwo alignment = true → Word.SameGaps t.1.base base alignment := by
        intro alignment size eq
        apply same alignment size
        cases op with
        | allocateAligned _ _ =>
            cases eq
            exact List.mem_cons_self
        | _ => cases eq
      have step : advance (t.1.rebase base, t.2.map (rebased base)) op =
          ((advance t op).1.rebase base, (advance t op).2.map (rebased base)) := by
        simp only [advance, named_rebased, answer_rebase _ gaps, List.map_append, List.map_cons,
          List.map_nil]
        rfl
      have tail := ih (advance t op) fun alignment size member => by
        have base : (advance t op).1.base = t.1.base := base_answer ..
        rw [base]
        exact same alignment size (List.mem_cons_of_mem op member)
      rw [follow, List.foldl_cons, step]
      exact tail

end Layout

namespace Client

variable {s t : Client} {l : Layout} {heap heap' : Heap} {log log' : Log} {base base' : Nat}
  {ops : List (Operation (Option Nat))} {answers : List (Reply × Layout)}

/-- An entry of a log shows what a layout answers. -/
structure Shows (base : Nat) (entry : Reply × Allocator) (result : Reply × Layout) : Prop where
  reply : entry.1 = result.1.shift base
  realizes : entry.2.Realizes result.2
  apart : Apart result.2.blocks

theorem address?_shown (shown : List.Forall₂ (Shows base) log answers) (step : Nat) :
    log[step]?.bind (·.1.address?) = (answers[step]?.bind (·.1.address?)).map (base + ·) := by
  induction shown generalizing step with
  | nil => rfl
  | cons shows _ ih =>
      cases step with
      | zero =>
          simp only [List.getElem?_cons_zero, Option.bind_some, shows.reply, Reply.address?_shift]
      | succ step => exact ih step

theorem pointer_named (shown : List.Forall₂ (Shows l.base) log answers) (name : Option Nat) :
    l.pointer (named answers name) = resolve log name := by
  cases name with
  | none => rfl
  | some step =>
      rw [resolve, address?_shown shown, named]
      cases answers[step]?.bind (·.1.address?) <;> rfl

theorem Sound.names {name : Option Nat} (h : Sound s l) (positive : 0 < l.base)
    (pointer : l.pointer name = 0 ∨ l.pointer name ∈ s.live) : l.Names name := by
  cases name with
  | none => trivial
  | some o =>
      rcases pointer with null | live
      · simp only [Layout.pointer] at null
        omega
      · obtain ⟨b, hb, allocated, eq⟩ := h.block_of_live live
        rw [h.realizes.base, Layout.pointer] at eq
        exact ⟨b, hb, allocated, (Nat.add_left_cancel eq).symm⟩

/-- A program follows the run of its script on layouts. -/
theorem Plays.follows (fresh : heap.Fresh) (play : Plays heap ops s log) :
    ∃ l answers, follow (.empty heap.base heap.capacity, []) ops = (l, answers) ∧ Sound s l ∧
      l.base = heap.base ∧ List.Forall₂ (Shows heap.base) log answers := by
  induction play with
  | start => exact ⟨_, [], rfl, Sound.start fresh, rfl, .nil⟩
  | access _ own ih =>
      obtain ⟨l, answers, followed, sound, base, shown⟩ := ih
      exact ⟨l, answers, followed, sound.access own, base, shown⟩
  | @operation ops s log op _ known ih =>
      obtain ⟨l, answers, followed, sound, base, shown⟩ := ih
      have pointers : l.pointer ∘ named answers = resolve log :=
        funext (pointer_named (base ▸ shown))
      have names : ∀ q, (op.map (named answers)).pointer? = some q → l.Names q := by
        intro q pointer
        rw [Operation.pointer?_map] at pointer
        obtain ⟨name, named, rfl⟩ := Option.map_eq_some_iff.mp pointer
        have positive : 0 < l.base := base ▸ Nat.lt_of_lt_of_le (by decide) fresh.le_base
        apply sound.names positive
        rw [pointer_named (base ▸ shown)]
        exact known name named
      have advance := sound.named (op.map (named answers)) names
      rw [Operation.map_map, pointers] at advance
      refine ⟨_, _, (follow_concat _ ops op).trans (congrArg (Layout.advance · op) followed),
        advance.sound, (base_answer _ _).trans base, ?_⟩
      apply List.rel_append shown
      refine .cons ⟨?_, advance.sound.realizes, advance.sound.books.apart⟩ .nil
      rw [advance.replied, base]

theorem sameBlocks_of_rebase {a a' : Allocator} (h : a.Realizes l)
    (h' : a'.Realizes (l.rebase base)) (apart : Apart l.blocks) : SameBlocks a a' :=
  ⟨⟨l.blocks, (h.wellFormed apart).walk, (h'.wellFormed apart).walk⟩, h'.brk.trans h.brk.symm⟩

theorem mirrors_of_shows (shown : List.Forall₂ (Shows base) log answers)
    (shown' : List.Forall₂ (Shows base') log' (answers.map (rebased base'))) :
    List.Forall₂ (Mirrors base base') log log' := by
  induction shown generalizing log' with
  | nil =>
      cases shown'
      exact .nil
  | @cons entry result _ _ shows _ ih =>
      cases shown' with
      | @cons entry' _ _ _ shows' rest' =>
          refine .cons ⟨?_, ?_⟩ (ih rest')
          · rw [shows.reply, shows'.reply]
            exact Reply.alike_shift base base' result.1
          · exact sameBlocks_of_rebase shows.realizes shows'.realizes shows.apart

/-- Programs that play the same script get the same answers and have the same blocks, step by step,
if the heaps are equally large and start at the same address or at multiples of every alignment. -/
theorem blind_to_payloads (fresh : heap.Fresh) (fresh' : heap'.Fresh)
    (capacity : heap'.capacity = heap.capacity)
    (bases : heap'.base = heap.base ∨
      ∀ alignment size, .allocateAligned alignment size ∈ ops → alignment ≤ 2 ^ 24)
    (play : Plays heap ops s log) (play' : Plays heap' ops t log') :
    List.Forall₂ (Mirrors heap.base heap'.base) log log' ∧
      SameBlocks s.allocator t.allocator := by
  obtain ⟨l, answers, followed, sound, -, shown⟩ := play.follows fresh
  obtain ⟨l', answers', followed', sound', -, shown'⟩ := play'.follows fresh'
  have gaps : ∀ alignment size, .allocateAligned alignment size ∈ ops →
      Word.isPowerOfTwo alignment = true → Word.SameGaps heap.base heap'.base alignment := by
    intro alignment size member power
    cases bases with
    | inl same =>
        rw [same]
        exact fun _ => rfl
    | inr small =>
        have grid := Word.dvd_of_isPowerOfTwo_of_le power (small alignment size member)
        have positive : 0 < alignment := Nat.pos_of_dvd_of_pos grid (by decide)
        exact Word.sameGaps_of_dvd positive (Nat.dvd_trans grid fresh.base_dvd)
          (Nat.dvd_trans grid fresh'.base_dvd)
  have moved := follow_rebase ops (.empty heap.base heap.capacity, []) gaps
  rw [followed] at moved
  rw [capacity] at followed'
  obtain ⟨rfl, rfl⟩ := Prod.mk.inj (followed'.symm.trans moved)
  exact ⟨mirrors_of_shows shown shown',
    sameBlocks_of_rebase sound.realizes sound'.realizes sound.books.apart⟩

def distant : Heap :=
  ⟨2 ^ 40, 2 ^ 20, 0, .zeros (2 ^ 20)⟩

theorem distant_fresh : distant.Fresh :=
  ⟨rfl, by decide, by decide, by decide, by decide⟩

def allocatedLog (heap : Heap) : Log :=
  [((start heap).reply (.operation (.allocate 256)),
    ((start heap).serve (.operation (.allocate 256))).allocator)]

theorem plays_allocate (heap : Heap) :
    Plays heap [.allocate 256] ((start heap).serve (.operation (.allocate 256)))
      (allocatedLog heap) :=
  .operation .start fun _ none => nomatch none

/-- Words that look like a header do not show in the blocks once their block was resized. -/
theorem blind_to_stored_words :
    SameBlocks ((writer [64, 64, 32, 1]).serve (.operation (.resize (2 ^ 32 + 32) 70000))).allocator
      (((start distant).serve (.operation (.allocate 256))).serve
        (.operation (.resize (2 ^ 40 + 32) 70000))).allocator := by
  let op : Operation (Option Nat) := .resize (some 0) 70000
  have stored : Plays mebibyte [.allocate 256] (writer [64, 64, 32, 1]) (allocatedLog mebibyte) :=
    .access (plays_allocate mebibyte) (tenant_owns (by decide))
  have live : 2 ^ 32 + 32 ∈ (writer [64, 64, 32, 1]).live := by decide +kernel
  have live' : 2 ^ 40 + 32 ∈ ((start distant).serve (.operation (.allocate 256))).live := by
    decide +kernel
  have address : resolve (allocatedLog mebibyte) (some 0) = 2 ^ 32 + 32 := by decide +kernel
  have address' : resolve (allocatedLog distant) (some 0) = 2 ^ 40 + 32 := by decide +kernel
  have play : Plays mebibyte ([.allocate 256] ++ [op])
      ((writer [64, 64, 32, 1]).serve (.operation (op.map (resolve (allocatedLog mebibyte))))) _ :=
    stored.operation fun name pointer => by
      cases pointer
      exact .inr (address ▸ live)
  have play' : Plays distant ([.allocate 256] ++ [op])
      (((start distant).serve (.operation (.allocate 256))).serve
        (.operation (op.map (resolve (allocatedLog distant))))) _ :=
    (plays_allocate distant).operation fun name pointer => by
      cases pointer
      exact .inr (address' ▸ live')
  have same := (blind_to_payloads mebibyte_fresh distant_fresh rfl (.inr ?_) play play').2
  · simpa only [op, Operation.map, address, address'] using same
  · intro alignment size member
    simp [op] at member

end Client

end Confine
