import Custody.Proofs.Hub.Receiver
/-!
# Rings

A ring has a fixed number of slots and gives the payloads written into it the numbers from zero on:
each is written over the oldest one. One who reads keeps the number of the payload that comes next,
and if that has been overwritten goes on with the oldest one that is left.

* `Ring.unread`: the payloads that are found at a position.
* `Ring.unread_write`: a position finds one payload more after a write, and no more than the ring
  has slots.
* `Ring.read_eq`: one who reads finds the first of them, and goes on with the rest.
-/

namespace Custody

/-- The slots of a channel, and how many payloads have been written into them. -/
structure Ring where
  slots : List String
  written : Nat
  deriving DecidableEq, Repr

namespace Ring

/-- A ring into which nothing has been written. -/
def new (capacity : Nat) : Ring :=
  ⟨List.replicate capacity "", 0⟩

/-- Writes a payload over the oldest one. -/
def write (ring : Ring) (payload : String) : Ring where
  slots := ring.slots.set (ring.written % ring.slots.length) payload
  written := ring.written + 1

/-- The slot of the payload with a number. -/
def slot (ring : Ring) (number : Nat) : String :=
  ring.slots.getD (number % ring.slots.length) ""

/-- The number of the payload that is found next at a position: the oldest one that is left, if the
one at the position has been overwritten. -/
def next (ring : Ring) (position : Nat) : Nat :=
  max position (ring.written - ring.slots.length)

/-- What is found at a position, and the position after it. -/
def read (ring : Ring) (position : Nat) : Option (String × Nat) :=
  if position < ring.written then some (ring.slot (ring.next position), ring.next position + 1)
  else none

/-- The payloads that are found at a position, first to last. -/
def unread (ring : Ring) (position : Nat) : List String :=
  (List.range' (ring.next position) (ring.written - ring.next position)).map ring.slot

variable {ring : Ring} {position : Nat}

@[simp] theorem length_slots_write (ring : Ring) (payload : String) :
    (ring.write payload).slots.length = ring.slots.length :=
  List.length_set

theorem unread_of_le (h : ring.written ≤ position) : ring.unread position = [] := by
  have hnext : ring.written ≤ ring.next position := Nat.le_trans h (Nat.le_max_left ..)
  rw [unread, Nat.sub_eq_zero_of_le hnext]
  rfl

/-- **One who reads finds the first payload**, and the rest after it. -/
theorem read_eq (hslots : 0 < ring.slots.length) :
    ring.read position = match ring.unread position with
      | [] => none
      | payload :: _ => some (payload, ring.next position + 1) := by
  unfold read
  split
  · next h =>
    have hlt : ring.next position < ring.written := by unfold next; omega
    obtain ⟨n, hn⟩ : ∃ n, ring.written - ring.next position = n + 1 := ⟨_, (Nat.sub_one_add_one
      (Nat.sub_ne_zero_of_lt hlt)).symm⟩
    rw [unread, hn, List.range'_succ, List.map_cons]
  · next h => rw [unread_of_le (Nat.not_lt.1 h)]

theorem unread_next (ring : Ring) (position : Nat) :
    ring.unread (ring.next position + 1) = (ring.unread position).tail := by
  have hnext : ring.next (ring.next position + 1) = ring.next position + 1 := by
    unfold next
    omega
  rw [unread, unread, hnext]
  cases h : ring.written - ring.next position with
  | zero => rw [show ring.written - (ring.next position + 1) = 0 by omega]; rfl
  | succ n =>
    rw [show ring.written - (ring.next position + 1) = n by omega, List.range'_succ, List.map_cons,
      List.tail_cons]

/-! ## Writes -/

/-- The last payloads stay in their slots. -/
theorem slot_write_of_lt {number : Nat} (payload : String) (hlt : number < ring.written)
    (hle : ring.written + 1 ≤ number + ring.slots.length) :
    (ring.write payload).slot number = ring.slot number := by
  have hne : ring.written % ring.slots.length ≠ number % ring.slots.length := by
    intro h
    have hdvd := Nat.dvd_of_mod_eq_zero (Nat.sub_mod_eq_zero_of_mod_eq h)
    have := Nat.le_of_dvd (by omega) hdvd
    omega
  rw [slot, slot, length_slots_write]
  simp [write, List.getElem?_set_ne hne]

theorem slot_write_self (hslots : 0 < ring.slots.length) (payload : String) :
    (ring.write payload).slot ring.written = payload := by
  have hlt := Nat.mod_lt ring.written hslots
  rw [slot, length_slots_write]
  simp [write, hlt]

/-- **What a write does to those who read**: each finds one payload more, and has lost the oldest if
that has been overwritten. -/
theorem unread_write (hslots : 0 < ring.slots.length) (hposition : position ≤ ring.written)
    (payload : String) :
    (ring.write payload).unread position =
      Receiver.keepLast ring.slots.length (ring.unread position ++ [payload]) := by
  have hwritten : (ring.write payload).written = ring.written + 1 := rfl
  have hle : ring.next position ≤ ring.written := by
    unfold next
    omega
  -- how many payloads are lost to one at the position: none, or one
  obtain ⟨lost, hlost⟩ : ∃ lost,
      lost = ring.written - ring.next position + 1 - ring.slots.length := ⟨_, rfl⟩
  have hnext : (ring.write payload).next position = ring.next position + lost := by
    rw [hlost, next, next, length_slots_write, hwritten]
    omega
  have hkept : (List.range' (ring.next position + lost)
      (ring.written - (ring.next position + lost))).map (ring.write payload).slot =
        (ring.unread position).drop lost := by
    rw [unread, ← List.map_drop, List.drop_range', Nat.mul_one, Nat.sub_sub]
    refine List.map_congr_left fun number hnumber => ?_
    obtain ⟨hfirst, hlt⟩ := List.mem_range'_1.1 hnumber
    exact slot_write_of_lt payload (by omega) (by omega)
  have hlength : (ring.unread position).length = ring.written - ring.next position := by
    rw [unread, List.length_map, List.length_range']
  rw [unread, hnext, hwritten, show ring.written + 1 - (ring.next position + lost) =
    ring.written - (ring.next position + lost) + 1 by omega, List.range'_concat, List.map_append,
    hkept, Receiver.keepLast, List.length_append, hlength, List.length_singleton, ← hlost,
    List.drop_append_of_le_length (by omega), List.map_singleton,
    show ring.next position + lost + 1 * (ring.written - (ring.next position + lost)) =
      ring.written by omega, slot_write_self hslots]

end Ring

end Custody
