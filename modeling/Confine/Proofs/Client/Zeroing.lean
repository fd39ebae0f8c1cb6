import Confine.Proofs.Client.FirstFit
import Confine.Proofs.Client.Lending

/-! # Zeroed memory

A zeroed allocation is an allocation of as many bytes with zeros stored over them.  The zeros end
before the block does, so that they reach neither a header nor another payload, whatever product the
number of bytes was cut from.
-/

namespace Confine

open Block Layout Allocator

namespace Client

variable {s : Client} {l l' : Layout} {heap : Heap} {n : Block} {count size total p i : Nat}

/-- One program has zeros in the first bytes of a payload where another one has whatever was there
before.  They have everything else in common, the headers of the list included. -/
structure Zeroes (t z : Client) (p total : Nat) (bs : List Block) : Prop where
  list : t.allocator.WellFormed bs ∧ z.allocator.WellFormed bs
  common : z.allocator = { t.allocator with heap.memory := z.allocator.heap.memory }
  live : p ∈ z.live ∧ z.live = t.live
  room : ∃ usable, Allocator.usableSize p z.allocator = (.ok usable, z.allocator) ∧ total ≤ usable
  zero : ∀ i < total, z.allocator.byteAt (p + i) = 0
  rest : ∀ i, ¬(p ≤ z.allocator.heap.base + i ∧ z.allocator.heap.base + i < p + total) →
    z.byte i = t.byte i
  headers : ∀ b ∈ bs, ∀ i, b.headerSpan.Has i → z.byte i = t.byte i

/-- A zeroed allocation fails without a change if an allocation of as many bytes would.  Otherwise it
returns the same address, and differs from that allocation by the zeros only.  What the program had
before it has still. -/
structure ZeroAllocates (s : Client) (count size total : Nat) : Prop where
  fails : s.Fails (.allocate total) →
    s.allocator.perform (.operation (.zeroAllocate count size)) =
      (.failed (.error .outOfMemory), s.allocator)
  serves : ¬s.Fails (.allocate total) → ∃ p bs,
    s.reply (.operation (.allocate total)) = .address (some p) ∧
    s.reply (.operation (.zeroAllocate count size)) = .address (some p) ∧
    Zeroes (s.serve (.operation (.allocate total)))
      (s.serve (.operation (.zeroAllocate count size))) p total bs
  lent : ∀ r usable, s.allocator.Lends r usable →
    (s.serve (.operation (.zeroAllocate count size))).allocator.Lends r usable
  owned : ∀ i, s.Owns i → (s.serve (.operation (.zeroAllocate count size))).byte i = s.byte i

def zeroed (s : Client) (start length : Nat) : Client :=
  { s with allocator.heap.memory := s.allocator.heap.memory.fill start length 0 }

theorem serve_zeroAllocate
    (answer : s.reply (.operation (.allocate (Word.mulWrapping count size))) = .address (some p)) :
    s.serve (.operation (.zeroAllocate count size)) =
      let t := s.serve (.operation (.allocate (Word.mulWrapping count size)))
      t.zeroed (p - t.allocator.heap.base) (Word.mulWrapping count size) := by
  rcases run : Allocator.allocate (Word.mulWrapping count size) s.allocator with ⟨fault | q, a'⟩
  · have failing : (Operation.allocate (Word.mulWrapping count size)).action s.allocator = _ :=
      bind_error run
    cases answer.symm.trans (reply_error failing)
  · have plain : (Operation.allocate (Word.mulWrapping count size)).action s.allocator =
        (.ok (.address (some q)), a') := bind_ok run
    have zeroing : (Operation.zeroAllocate count size).action s.allocator = _ :=
      bind_ok (bind_ok run)
    obtain rfl : p = q := by
      cases answer.symm.trans (reply_ok plain)
      rfl
    rw [serve_ok plain, serve_ok zeroing]
    rfl

namespace Sound

theorem byte_zeroed (h : Sound s l) (hn : n ∈ l.blocks) (room : total + 32 ≤ n.size) (i : Nat) :
    (s.zeroed (n.offset + 32) total).byte i =
      if n.offset + 32 ≤ i ∧ i < n.offset + 32 + total then 0 else s.byte i :=
  h.realizes.get_zero hn room i

theorem zeroes (h : Sound s l) (h' : Sound (s.zeroed (n.offset + 32) total) l)
    (hn : n ∈ l.blocks) (allocated : n.allocated = true) (room : total + 32 ≤ n.size) :
    Zeroes s (s.zeroed (n.offset + 32) total) (l.address n) total l.blocks := by
  have base := h.realizes.base
  have byte := h.byte_zeroed hn room
  have live := h'.live_of_block hn allocated
  have usable := usableSize_run h'.realizes hn allocated
  rw [h'.realizes.base] at live usable
  constructor
  · exact ⟨h.realizes.wellFormed h.books.apart, h'.realizes.wellFormed h'.books.apart⟩
  · rfl
  · exact ⟨live, rfl⟩
  · exact ⟨n.size - 32, usable, by omega⟩
  · intro i small
    have start : l.address n + i - (s.zeroed (n.offset + 32) total).allocator.heap.base =
        n.offset + 32 + i := by
      rw [h'.realizes.base, Layout.address]
      omega
    rw [byteAt, start]
    exact (byte _).trans (if_pos (by omega))
  · intro i outside
    rw [h'.realizes.base, Layout.address] at outside
    rw [byte, if_neg (by omega)]
  · intro b hb i header
    have clear := h'.usable_header (h'.live_of_block hn allocated) hb i
    rw [h'.usable_eq hn allocated] at clear
    rw [byte, if_neg]
    intro inside
    exact clear ⟨inside.1, by simp only [stop]; omega⟩ header

theorem zeroes_serve (h : Sound s l) {o : Nat}
    (served : l.allocate (Word.mulWrapping count size) = some (o, l')) : ∃ p,
    s.reply (.operation (.allocate (Word.mulWrapping count size))) = .address (some p) ∧
    s.reply (.operation (.zeroAllocate count size)) = .address (some p) ∧
    Zeroes (s.serve (.operation (.allocate (Word.mulWrapping count size))))
      (s.serve (.operation (.zeroAllocate count size))) p (Word.mulWrapping count size)
      l'.blocks := by
  have plain := h.allocate (Word.mulWrapping count size)
  have zeroing := h.zeroAllocate count size
  simp only [answer, served, granted] at plain zeroing
  obtain ⟨n, rfl, room, takes, -⟩ := Layout.allocate_eq_some h.realizes.ascending served
  have hn : n ∈ l'.blocks := (takes.mem n takes.allocated).mpr (.inr rfl)
  have replied : s.reply (.operation (.allocate (Word.mulWrapping count size))) =
    .address (some (l.base + (n.offset + 32))) := plain.replied
  have base := plain.sound.realizes.base
  have same : l'.base = l.base := base.symm.trans (plain.evolves.base.trans h.realizes.base)
  have after := serve_zeroAllocate replied
  simp only [base, same, Nat.add_sub_cancel_left] at after
  have zeroes := plain.sound.zeroes (after ▸ zeroing.sound) hn takes.allocated room
  rw [← after, Layout.address, same] at zeroes
  exact ⟨_, replied, zeroing.replied, zeroes⟩

end Sound

/-- Memory that an honest program gets zeroed is zero, however often it was used before. -/
theorem zeroAllocates_of_honest (fresh : heap.Fresh) (run : Reaches Honest (start heap) s)
    (count size : Nat) : s.ZeroAllocates count size (count * size % 2 ^ 64) := by
  obtain ⟨l, sound⟩ := sound_of_honest fresh run
  change s.ZeroAllocates count size (Word.mulWrapping count size)
  have honest : s.Honest (.operation (.zeroAllocate count size)) := honest_of_no_pointer rfl
  constructor
  · intro fails
    have run := zeroAllocate_run sound.realizes sound.books.apart count size
    rw [sound.fails_allocate_iff.mp fails] at run
    exact perform_of_error (bind_error run)
  · rw [sound.fails_allocate_iff]
    intro room
    obtain ⟨⟨o, l'⟩, served⟩ := Option.ne_none_iff_exists'.mp room
    obtain ⟨p, zeroes⟩ := sound.zeroes_serve served
    exact ⟨p, l'.blocks, zeroes⟩
  · intro r usable lends
    refine (sound.lends_serve honest lends ?_).1
    rintro ⟨released | ⟨_, released⟩, -⟩ <;> cases released
  · intro i owned
    exact sound.byte_operation (sound.zeroAllocate count size) owned

/-- A block that words were stored in is freed and taken again, for a product of 64 bytes. -/
theorem zeroAllocates_recycled :
    ((writer [64, 64, 32, 1]).serve (.operation (.free (2 ^ 32 + 32)))).ZeroAllocates
      (2 ^ 60 + 1) 64 64 := by
  have live : 2 ^ 32 + 32 ∈ (writer [64, 64, 32, 1]).live := by decide +kernel
  have honest : (writer [64, 64, 32, 1]).Honest (.operation (.free (2 ^ 32 + 32))) :=
    honest_of_operation fun p pointer => by cases pointer; exact .inr (.inl live)
  have zeroes := zeroAllocates_of_honest mebibyte_fresh
    (.step (writer_reached (by decide)) honest) (2 ^ 60 + 1) 64
  have total : (2 ^ 60 + 1) * 64 % 2 ^ 64 = 64 := by decide
  rwa [total] at zeroes

end Client

end Confine
