import Mathlib.Data.Nat.ModEq
import Mathlib.Data.List.Range

/-! A ring of fixed capacity that keeps the values pushed last, in order. -/

/-- The slots, of which those below the capacity are used, and where the values start. -/
structure RingBuffer (α : Type) where
  slots : Nat → α
  capacity : Nat
  first : Nat := 0
  count : Nat := 0

namespace RingBuffer
variable {α : Type}

/-- The slot of the value at an index. -/
def slot (ring : RingBuffer α) (index : Nat) : Nat := (ring.first + index) % ring.capacity

/-- The values, the oldest first. -/
def contents (ring : RingBuffer α) : List α :=
  (List.range ring.count).map fun index => ring.slots (ring.slot index)

/-- Puts a value into a slot. -/
def store (ring : RingBuffer α) (slot : Nat) (value : α) : RingBuffer α :=
  { ring with slots := fun other => if other = slot then value else ring.slots other }

/-- Adds a value, in the place of the oldest one when there is no room. -/
def push (ring : RingBuffer α) (value : α) : RingBuffer α :=
  if ring.count < ring.capacity then
    { ring.store (ring.slot ring.count) value with count := ring.count + 1 }
  else { ring.store ring.first value with first := (ring.first + 1) % ring.capacity }

def clear (ring : RingBuffer α) : RingBuffer α := { ring with first := 0, count := 0 }

/-- The values lie in used slots. -/
structure WellFormed (ring : RingBuffer α) : Prop where
  bounded : ring.count ≤ ring.capacity
  first : ring.first < ring.capacity

variable {ring : RingBuffer α}

@[simp] theorem length_contents : ring.contents.length = ring.count := by
  simp only [contents, List.length_map, List.length_range]

/-- Different indices below the capacity have different slots. -/
theorem slot_ne {low high : Nat} (below : low < high) (bound : high < ring.capacity) :
    ring.slot low ≠ ring.slot high := by
  intro same
  have congruent : low ≡ high [MOD ring.capacity] := Nat.ModEq.add_left_cancel' ring.first same
  have equal := congruent.eq_of_lt_of_lt (Nat.lt_trans below bound) bound
  omega

theorem WellFormed.push (formed : ring.WellFormed) (value : α) : (ring.push value).WellFormed := by
  have bounded := formed.bounded
  have first := formed.first
  unfold RingBuffer.push
  split
  · rename_i room
    exact ⟨room, first⟩
  · exact ⟨bounded, Nat.mod_lt _ (by omega)⟩

theorem WellFormed.clear (formed : ring.WellFormed) : ring.clear.WellFormed := by
  have first := formed.first
  exact ⟨Nat.zero_le _, by show 0 < ring.capacity; omega⟩

@[simp] theorem contents_clear : ring.clear.contents = [] := rfl

/-- With room left, a value comes behind the others. -/
theorem contents_push_room (room : ring.count < ring.capacity) (value : α) :
    (ring.push value).contents = ring.contents ++ [value] := by
  have stored : ring.push value =
      { ring.store (ring.slot ring.count) value with count := ring.count + 1 } := if_pos room
  rw [stored]
  show (List.range (ring.count + 1)).map _ = _
  rw [List.range_succ, List.map_append, List.map_singleton]
  congr 1
  · apply List.map_congr_left
    intro index listed
    exact if_neg (slot_ne (List.mem_range.mp listed) room)
  · exact congrArg (fun value => [value]) (if_pos rfl)

/-- Without room, the oldest value goes. -/
theorem contents_push_full (formed : ring.WellFormed) (full : ¬ ring.count < ring.capacity)
    (value : α) : (ring.push value).contents = ring.contents.tail ++ [value] := by
  have bounded := formed.bounded
  have first := formed.first
  have stored : ring.push value =
      { ring.store ring.first value with first := (ring.first + 1) % ring.capacity } := if_neg full
  have same : ring.count = ring.capacity := by omega
  -- the value at an index is now found one index earlier
  have shifted : ∀ index, ((ring.first + 1) % ring.capacity + index) % ring.capacity =
      ring.slot (index + 1) := by
    intro index
    rw [Nat.mod_add_mod, slot, Nat.add_right_comm, Nat.add_assoc]
  obtain ⟨others, counted⟩ : ∃ others, ring.count = others + 1 := ⟨ring.count - 1, by omega⟩
  rw [stored]
  show (List.range ring.count).map _ = (List.map _ (List.range ring.count)).tail ++ _
  rw [counted, List.range_succ, List.map_append, List.map_singleton, ← List.range_succ,
    List.range_succ_eq_map, List.map_cons, List.tail_cons, List.map_map]
  congr 1
  · apply List.map_congr_left
    intro index listed
    have below := List.mem_range.mp listed
    show (if ((ring.first + 1) % ring.capacity + index) % ring.capacity = ring.first then value
      else ring.slots (((ring.first + 1) % ring.capacity + index) % ring.capacity)) = _
    rw [shifted, if_neg]
    · rfl
    · intro home
      have zero : ring.slot 0 = ring.first := Nat.mod_eq_of_lt first
      exact @slot_ne α ring _ _ (Nat.succ_pos index) (by omega) (zero.trans home.symm)
  · refine congrArg (fun value => [value]) (if_pos ?_)
    show ((ring.first + 1) % ring.capacity + others) % ring.capacity = ring.first
    rw [shifted, slot, ← counted, same, Nat.add_mod_right, Nat.mod_eq_of_lt first]

end RingBuffer
