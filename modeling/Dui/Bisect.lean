import Mathlib.Init

/-! Searching a boundary by halving: the predicate holds up to some index and fails from
there on, and the search finds that index. -/
namespace Bisect

/-- The loop over `[first, last)`; every turn makes the interval shorter. -/
def search (before : Nat → Bool) : Nat → Nat → Nat → Nat
  | 0, first, _ => first
  | fuel + 1, first, last =>
    if first < last then
      let middle := first + (last - first) / 2
      if before middle then search before fuel (middle + 1) last
      else search before fuel first middle
    else first

/-- The number of the indices below `count` at which the predicate holds. -/
def boundary (before : Nat → Bool) (count : Nat) : Nat := search before count 0 count

/-- The predicate holds of every index below one at which it holds. -/
def Downward (before : Nat → Bool) : Prop :=
  ∀ lower upper, lower ≤ upper → before upper = true → before lower = true

variable {before : Nat → Bool}

theorem search_bounds (fuel first last : Nat) (ordered : first ≤ last) :
    first ≤ search before fuel first last ∧ search before fuel first last ≤ last := by
  induction fuel generalizing first last with
  | zero => exact ⟨Nat.le_refl _, ordered⟩
  | succ fuel ih =>
    rw [search]
    split
    case isFalse => exact ⟨Nat.le_refl _, ordered⟩
    case isTrue nonempty =>
      dsimp only
      split
      · have found := ih (first + (last - first) / 2 + 1) last (by omega)
        exact ⟨by omega, found.2⟩
      · have found := ih first (first + (last - first) / 2) (by omega)
        exact ⟨found.1, by omega⟩

/-- Inside the interval, the indices before the one found are those at which the predicate
holds. -/
theorem lt_search_iff (downward : Downward before) {fuel first last index : Nat}
    (enough : last ≤ first + fuel) (lower : first ≤ index) (upper : index < last) :
    index < search before fuel first last ↔ before index = true := by
  induction fuel generalizing first last with
  | zero => omega
  | succ fuel ih =>
    rw [search, if_pos (by omega)]
    dsimp only
    by_cases held : before (first + (last - first) / 2) = true
    · rw [if_pos held]
      by_cases passed : index ≤ first + (last - first) / 2
      · have bounds := @search_bounds before fuel (first + (last - first) / 2 + 1) last
          (by omega)
        exact ⟨fun _ => downward _ _ passed held, fun _ => by omega⟩
      · exact ih (by omega) (by omega) upper
    · rw [if_neg held]
      by_cases passed : index < first + (last - first) / 2
      · exact ih (by omega) lower passed
      · have bounds := @search_bounds before fuel first
          (first + (last - first) / 2) (by omega)
        constructor
        · intro found
          omega
        · intro holds
          exact absurd (downward _ _ (by omega) holds) held

/-- The boundary separates the indices at which the predicate holds from the others. -/
theorem lt_boundary_iff (downward : Downward before) {count index : Nat} :
    index < boundary before count ↔ index < count ∧ before index = true := by
  by_cases inside : index < count
  · rw [boundary, lt_search_iff downward (by omega) (Nat.zero_le _) inside]
    simp [inside]
  · have bounds := @search_bounds before count 0 count (Nat.zero_le _)
    rw [boundary]
    constructor
    · intro found
      omega
    · intro found
      exact absurd found.1 inside

theorem boundary_le (count : Nat) : boundary before count ≤ count :=
  (search_bounds count 0 count (Nat.zero_le _)).2

end Bisect
