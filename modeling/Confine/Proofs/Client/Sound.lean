import Confine.Proofs.Client.Books
import Confine.Proofs.Layout.Answers
import Confine.Proofs.Pointers

/-! # Runs of a client

As long as every pointer that a program passes is null, live or refused, and it writes to its own
bytes only, the heap realizes a layout that its books agree with.  `Advance` is what one operation
preserves, and `Sound` what a whole run does.
-/

namespace Confine

open Block Layout Allocator

namespace Client

variable {s t : Client} {a' : Allocator} {l l' : Layout} {n b : Block} {op : Operation Nat}
  {reply : Reply} {fault : Fault} {p i : Nat}

/-- The heap realizes a layout, and the program knows it. -/
structure Sound (s : Client) (l : Layout) : Prop where
  realizes : s.allocator.Realizes l
  books : Books l s.live s.held

/-- A program that passes pointers that are null, live or refused, and writes to its own bytes
only. -/
def Careful (s : Client) (request : Request Nat) : Prop :=
  s.OwnWrites request ∧ ∀ op p, request = .operation op → op.pointer? = some p →
    p = 0 ∨ p ∈ s.live ∨ s.allocator.Refused p

/-- What an operation that is answered so does to a client and to the layout of its heap. -/
structure Advance (s : Client) (op : Operation Nat) (l : Layout) (result : Reply × Layout) :
    Prop where
  sound : Sound (s.serve (.operation op)) result.2
  evolves : Evolves l.Vacant l result.2 s.allocator (s.serve (.operation op)).allocator
  retains : l.Retains result.2
  replied : s.reply (.operation op) = result.1.shift l.base

theorem serve_ok (h : op.action s.allocator = (.ok reply, a')) :
    s.serve (.operation op) = ⟨a', liveAfter s.live op reply,
      heldAfter s.held s.allocator.heap.brk a'.heap.brk op reply⟩ := by
  simp only [serve, perform, h]

theorem reply_ok (h : op.action s.allocator = (.ok reply, a')) :
    s.reply (.operation op) = reply := by
  simp only [Client.reply, perform, h]

theorem serve_error (h : op.action s.allocator = (.error fault, a')) :
    s.serve (.operation op) = ⟨a', s.live, s.held⟩ := by
  simp only [serve, perform, h]
  cases op <;> rfl

theorem reply_error (h : op.action s.allocator = (.error fault, a')) :
    s.reply (.operation op) = .failed fault := by
  simp only [Client.reply, perform, h]

namespace Sound

theorem rejected {cause : AllocError} (h : Sound s l)
    (run : op.action s.allocator = (.error (.error cause), s.allocator)) :
    Advance s op l (.failed (.error cause), l) where
  sound := serve_error run ▸ h
  evolves := by
    rw [serve_error run]
    exact Evolves.refl _ h.realizes
  retains b hb _ := .inl hb
  replied := reply_error run

theorem returned (h : Sound s l)
    (run : op.action s.allocator =
      (.ok (.address (some (s.allocator.heap.base + (n.offset + 32)))), a'))
    (live : liveAfter s.live op (.address (some (s.allocator.heap.base + (n.offset + 32)))) =
      (s.allocator.heap.base + (n.offset + 32)) :: s.live)
    (held : ∀ before after reply, heldAfter s.held before after op reply = s.held)
    (evolves : Evolves l.Vacant l l' s.allocator a') (takes : l.Takes l' n) :
    Advance s op l (.address (some (n.offset + 32)), l') where
  sound := by
    rw [serve_ok run, live, held]
    refine ⟨evolves.realizes, ?_⟩
    have base : l'.base = l.base :=
      evolves.realizes.base.symm.trans (evolves.base.trans h.realizes.base)
    have books := h.books.takes h.realizes.ascending evolves.realizes.ascending base takes
    rw [h.realizes.base]
    exact books
  evolves := by
    rw [serve_ok run]
    exact evolves
  retains b hb allocated := by
    rcases (takes.mem b allocated).mp hb with old | rfl
    · exact .inl old
    · exact .inr takes.vacant
  replied := by
    rw [reply_ok run, h.realizes.base]
    rfl

/-- An operation that does what an attempt on the layout does. -/
theorem attempted {attempt : Option (Nat × Layout)} {serving : Action Nat} (h : Sound s l)
    (run : Follows serving s.allocator l attempt)
    (takes : ∀ o l', attempt = some (o, l') → ∃ n, n.offset = o ∧ l.Takes l' n)
    (action : op.action s.allocator =
      (serving >>= fun address => pure (.address (some address)) : Action Reply) s.allocator)
    (live : ∀ address, liveAfter s.live op (.address (some address)) = address :: s.live)
    (held : ∀ before after reply, heldAfter s.held before after op reply = s.held) :
    Advance s op l (l.granted attempt) := by
  cases served : attempt with
  | none =>
      rw [served] at run
      exact h.rejected (action.trans (bind_error run))
  | some result =>
      obtain ⟨o, l'⟩ := result
      rw [served] at run
      obtain ⟨a', run, evolves⟩ := run
      obtain ⟨n, rfl, takes⟩ := takes o l' served
      exact h.returned (action.trans (bind_ok run)) (live _) held evolves takes

theorem takes_of_allocate (h : Sound s l) {size o : Nat} (served : l.allocate size = some (o, l')) :
    ∃ n, n.offset = o ∧ l.Takes l' n := by
  obtain ⟨n, offset, -, takes, -⟩ := Layout.allocate_eq_some h.realizes.ascending served
  exact ⟨n, offset, takes⟩

theorem allocate (h : Sound s l) (size : Nat) :
    Advance s (.allocate size) l (l.answer (.allocate size)) :=
  h.attempted (allocate_run h.realizes h.books.apart size) (fun _ _ => h.takes_of_allocate) rfl
    (fun _ => rfl) fun _ _ _ => rfl

theorem zeroAllocate (h : Sound s l) (count size : Nat) :
    Advance s (.zeroAllocate count size) l (l.answer (.zeroAllocate count size)) :=
  h.attempted (zeroAllocate_run h.realizes h.books.apart count size)
    (fun _ _ => h.takes_of_allocate) rfl (fun _ => rfl) fun _ _ _ => rfl

theorem allocateAligned (h : Sound s l) (alignment size : Nat) :
    Advance s (.allocateAligned alignment size) l (l.answer (.allocateAligned alignment size)) := by
  simp only [answer]
  cases power : Word.isPowerOfTwo alignment with
  | false =>
      have run : Allocator.allocateAligned alignment size s.allocator =
          (.error (.error (.invalidAlignment alignment)), s.allocator) := by
        rw [Allocator.allocateAligned, power]
        exact bind_error (run_fail _)
      exact h.rejected (bind_error run)
  | true =>
      by_cases narrow : alignment ≤ 32
      · have same : Allocator.allocateAligned alignment size = Allocator.allocate size :=
          funext (allocateAligned_narrow power narrow size)
        have advance : Advance s (.allocateAligned alignment size) l
            (l.granted (l.allocate size)) := by
          apply h.attempted (allocate_run h.realizes h.books.apart size)
            (fun _ _ => h.takes_of_allocate) ?_ (fun _ => rfl) fun _ _ _ => rfl
          rw [Operation.action, same]
        simpa only [Bool.not_true, Bool.false_eq_true, if_false, if_pos narrow] using advance
      · have advance : Advance s (.allocateAligned alignment size) l
            (l.granted (l.allocateAligned alignment size)) := by
          apply h.attempted
            (allocateAligned_run h.realizes h.books.apart power (by omega) size) ?_ rfl
            (fun _ => rfl) fun _ _ _ => rfl
          intro o l' served
          obtain ⟨n, offset, -, -, takes⟩ := Layout.allocateAligned_eq_some h.realizes.ascending
            (dvd_of_isPowerOfTwo power (by omega)) (by omega) served
          exact ⟨n, offset, takes⟩
        simpa only [Bool.not_true, Bool.false_eq_true, if_false, if_neg narrow] using advance

theorem sbrk (h : Sound s l) (increment : Int) :
    Advance s (.sbrk increment) l (l.answer (.sbrk increment)) := by
  have run := sbrk_run l.Vacant h.realizes increment
  simp only [answer]
  cases moved : l.moveBreak increment with
  | none =>
      rw [moved] at run
      exact h.rejected (bind_error run)
  | some l' =>
      rw [moved] at run
      obtain ⟨run, evolves⟩ := run
      have blocks := moveBreak_eq_some moved
      have after := evolves.realizes.brk
      refine ⟨?_, ?_, ?_, ?_⟩
      · rw [serve_ok (bind_ok run)]
        refine ⟨evolves.realizes, ?_⟩
        have books := h.books.moveBreak h.realizes.ascending l'.brk
        rw [← blocks, ← after, ← h.realizes.brk] at books
        exact books
      · rw [serve_ok (bind_ok run)]
        exact evolves
      · intro b hb _
        left
        rw [blocks] at hb
        exact hb
      · rw [reply_ok (bind_ok run), h.realizes.base]
        rfl

theorem block_of_live (h : Sound s l) (live : p ∈ s.live) :
    ∃ b ∈ l.blocks, b.allocated = true ∧ p = s.allocator.heap.base + (b.offset + 32) := by
  obtain ⟨b, hb, allocated, eq⟩ := (h.books.mem_live p).mp live
  exact ⟨b, hb, allocated, by rw [eq, h.realizes.base, Layout.address]⟩

theorem live_of_block (h : Sound s l) (hb : b ∈ l.blocks) (allocated : b.allocated = true) :
    s.allocator.heap.base + (b.offset + 32) ∈ s.live :=
  (h.books.mem_live _).mpr ⟨b, hb, allocated, by rw [h.realizes.base, Layout.address]⟩

theorem nonnull (h : Sound s l) (live : p ∈ s.live) : p ≠ 0 := by
  obtain ⟨b, -, -, rfl⟩ := h.block_of_live live
  omega

theorem released (h : Sound s l) (reply : Reply) (hb : b ∈ l.blocks)
    (allocated : b.allocated = true)
    (run : ∀ a', Allocator.free (s.allocator.heap.base + (b.offset + 32)) s.allocator =
      (.ok (), a') → op.action s.allocator = (.ok reply, a'))
    (filtered : liveAfter s.live op reply =
      s.live.filter (· ≠ s.allocator.heap.base + (b.offset + 32)))
    (held : ∀ before after, heldAfter s.held before after op reply = s.held)
    (fixed : reply.shift l.base = reply) : Advance s op l (reply, l.free b.offset) := by
  obtain ⟨a', freed, evolves⟩ := free_run l.Vacant h.realizes h.books.apart hb allocated
  refine ⟨?_, ?_, ?_, ?_⟩
  · rw [serve_ok (run a' freed), filtered, held]
    refine ⟨evolves.realizes, ?_⟩
    have books := h.books.frees (show (l.free b.offset).base = l.base from rfl)
      (free_frees l b.offset)
    rw [h.realizes.base]
    exact books
  · rw [serve_ok (run a' freed)]
    exact evolves
  · intro c hc marked
    exact .inl ((free_frees l b.offset).mem c marked |>.mp hc).1
  · rw [reply_ok (run a' freed)]
    exact fixed.symm

theorem unchanged (h : Sound s l) (run : op.action s.allocator = (.ok reply, s.allocator))
    (live : liveAfter s.live op reply = s.live)
    (held : ∀ before after, heldAfter s.held before after op reply = s.held)
    (fixed : reply.shift l.base = reply) : Advance s op l (reply, l) where
  sound := by
    rw [serve_ok run, live, held]
    exact h
  evolves := by
    rw [serve_ok run]
    exact Evolves.refl _ h.realizes
  retains b hb _ := .inl hb
  replied := by
    rw [reply_ok run]
    exact fixed.symm

theorem filter_null (h : Sound s l) : s.live.filter (· ≠ 0) = s.live :=
  List.filter_eq_self.mpr fun _ live => decide_eq_true (h.nonnull live)

theorem refused_null (h : Sound s l) : s.allocator.Refused 0 :=
  refused_of_off_grid h.realizes.placed (by decide) fun o _ _ => by omega

theorem payloadSize_eq (h : Sound s l) (hb : b ∈ l.blocks) :
    l.payloadSize b.offset = b.size - 32 := by
  obtain ⟨c, found⟩ : ∃ c, l.blocks.find? (·.offset = b.offset) = some c :=
    Option.isSome_iff_exists.mp (List.find?_isSome.mpr ⟨b, hb, by simp⟩)
  have hc := List.mem_of_find?_eq_some found
  have same : c.offset = b.offset := by simpa using List.find?_some found
  rw [payloadSize, found, h.realizes.ascending.eq_of_offset hc hb same]
  rfl

theorem usableSize (h : Sound s l) {q : Option Nat} (named : l.Names q) :
    Advance s (.usableSize (l.pointer q)) l (l.answer (.usableSize q)) := by
  cases q with
  | none => exact h.rejected (bind_error (bind_error h.refused_null))
  | some o =>
      obtain ⟨b, hb, allocated, rfl⟩ := named
      have run := usableSize_run h.realizes hb allocated
      rw [h.realizes.base, ← h.payloadSize_eq hb] at run
      exact h.unchanged (bind_ok run) rfl (fun _ _ => rfl) rfl

theorem free_block (h : Sound s l) (hb : b ∈ l.blocks) (allocated : b.allocated = true) :
    Advance s (.free (s.allocator.heap.base + (b.offset + 32))) l (.done, l.free b.offset) :=
  h.released .done hb allocated (fun _ freed => bind_ok freed) rfl (fun _ _ => rfl) rfl

theorem free (h : Sound s l) {q : Option Nat} (named : l.Names q) :
    Advance s (.free (l.pointer q)) l (l.answer (.free q)) := by
  cases q with
  | none =>
      have run : (Operation.free 0).action s.allocator = (.ok .done, s.allocator) := rfl
      exact h.unchanged run h.filter_null (fun _ _ => rfl) rfl
  | some o =>
      obtain ⟨b, hb, allocated, rfl⟩ := named
      rw [pointer, ← h.realizes.base]
      exact h.free_block hb allocated

/-- A live block whose contents move to a new one. -/
theorem moved (h : Sound s l) {size : Nat} (hb : b ∈ l.blocks) (allocated : b.allocated = true)
    (positive : size ≠ 0) :
    Advance s (.resize (s.allocator.heap.base + (b.offset + 32)) size) l
      (l.granted ((l.allocate size).map fun (o, taken) => (o, taken.free b.offset))) := by
  have run := resize_run h.realizes h.books.apart hb allocated positive
  cases served : l.allocate size with
  | none =>
      rw [served] at run
      exact h.rejected (bind_error run)
  | some result =>
      obtain ⟨o, l'⟩ := result
      rw [served] at run
      obtain ⟨a', run, evolves, -⟩ := run
      obtain ⟨n, rfl, -, takes, ascending⟩ := Layout.allocate_eq_some h.realizes.ascending served
      have base : l'.base = l.base :=
        evolves.realizes.base.symm.trans (evolves.base.trans h.realizes.base)
      have taken := h.books.takes h.realizes.ascending ascending base takes
      have freed := taken.frees (show (l'.free b.offset).base = l'.base from rfl)
        (free_frees l' b.offset)
      have old : l'.address b = s.allocator.heap.base + (b.offset + 32) := by
        rw [h.realizes.base, Layout.address, base]
      have new : l.address n ≠ s.allocator.heap.base + (b.offset + 32) := fun same =>
        h.books.fresh h.realizes.ascending ascending takes (same ▸ h.live_of_block hb allocated)
      refine ⟨?_, ?_, ?_, ?_⟩
      · rw [serve_ok (bind_ok run)]
        rw [old, List.filter_cons, if_pos (decide_eq_true new), Layout.address,
          ← h.realizes.base] at freed
        exact ⟨evolves.realizes, freed⟩
      · rw [serve_ok (bind_ok run)]
        exact evolves
      · intro c hc marked
        rcases (takes.mem c marked).mp ((free_frees l' b.offset).mem c marked |>.mp hc).1 with
          kept | rfl
        · exact .inl kept
        · exact .inr takes.vacant
      · rw [reply_ok (bind_ok run), h.realizes.base]
        rfl

theorem resize (h : Sound s l) {q : Option Nat} (size : Nat) (named : l.Names q) :
    Advance s (.resize (l.pointer q) size) l (l.answer (.resize q size)) := by
  cases q with
  | none =>
      refine h.attempted (allocate_run h.realizes h.books.apart size)
        (fun _ _ => h.takes_of_allocate) ?_ (fun address => ?_) fun _ _ _ => rfl
      · simp only [Operation.action, pointer, Allocator.resize, if_true, bind_assoc, pure_bind]
      · exact congrArg (address :: ·) h.filter_null
  | some o =>
      obtain ⟨b, hb, allocated, rfl⟩ := named
      rw [pointer, ← h.realizes.base]
      by_cases zero : size = 0
      · subst zero
        apply h.released (.address none) hb allocated ?_ rfl (fun _ _ => rfl) rfl
        intro a' freed
        rw [Operation.action, Allocator.resize, if_neg (by omega), if_pos rfl]
        exact bind_ok (bind_ok freed)
      · have advance := h.moved hb allocated zero
        simpa only [answer, if_neg zero, Nat.add_sub_cancel] using advance

/-- An operation on what the program was given does what it does to the layout. -/
theorem named (h : Sound s l) (op : Operation (Option Nat))
    (pointers : ∀ q, op.pointer? = some q → l.Names q) :
    Advance s (op.map l.pointer) l (l.answer op) := by
  cases op with
  | allocate size => exact h.allocate size
  | zeroAllocate count size => exact h.zeroAllocate count size
  | resize q size => exact h.resize size (pointers q rfl)
  | allocateAligned alignment size => exact h.allocateAligned alignment size
  | sbrk increment => exact h.sbrk increment
  | free q => exact h.free (pointers q rfl)
  | usableSize q => exact h.usableSize (pointers q rfl)

theorem refused (h : Sound s l) (pointer : op.pointer? = some p) (nonnull : p ≠ 0)
    (refused : s.allocator.Refused p) :
    Advance s op l (.failed (.error (.invalidPointer p)), l) := by
  apply h.rejected
  cases op with
  | resize p size =>
      cases pointer
      exact bind_error (refused.all nonnull size).2.2
  | free p =>
      cases pointer
      exact bind_error (refused.all nonnull 0).2.1
  | usableSize p =>
      cases pointer
      exact bind_error (refused.all nonnull 0).1
  | _ => cases pointer

theorem exists_name (h : Sound s l) (pointer : p = 0 ∨ p ∈ s.live) :
    ∃ q, l.Names q ∧ l.pointer q = p := by
  cases pointer with
  | inl null => exact ⟨none, trivial, null.symm⟩
  | inr live =>
      obtain ⟨b, hb, allocated, rfl⟩ := h.block_of_live live
      exact ⟨some (b.offset + 32), ⟨b, hb, allocated, rfl⟩, by rw [pointer, h.realizes.base]⟩

theorem operation (h : Sound s l) (op : Operation Nat)
    (pointers : ∀ p, op.pointer? = some p → p = 0 ∨ p ∈ s.live ∨ s.allocator.Refused p) :
    ∃ result, l.Answers op result ∧ Advance s op l result := by
  by_cases known : ∀ p, op.pointer? = some p → p = 0 ∨ p ∈ s.live
  · obtain ⟨named, rfl, names⟩ := op.exists_map fun p pointer => h.exists_name (known p pointer)
    exact ⟨_, .inl ⟨named, rfl, names, rfl⟩, h.named named names⟩
  · obtain ⟨p, stranger⟩ := not_forall.mp known
    obtain ⟨pointer, foreign⟩ := Classical.not_imp.mp stranger
    obtain ⟨nonnull, dead⟩ := not_or.mp foreign
    have refused := ((pointers p pointer).resolve_left nonnull).resolve_left dead
    exact ⟨_, .inr ⟨p, pointer, rfl⟩, h.refused pointer nonnull refused⟩

end Sound

end Client

end Confine
