import Mathlib.Data.List.Infix

/-! Words in which some letters open something and others close what was opened
last: when everything is closed, and how such words are put together. -/
namespace Nesting

variable {α β : Type*} (opens closes : α → Bool)

/-- The word closes everything it opens and a number of openings before it, and
never closes more than is open. -/
structure ClosesFrom (depth : ℕ) (word : List α) : Prop where
  total : word.countP closes = depth + word.countP opens
  never : ∀ front, front <+: word → front.countP closes ≤ depth + front.countP opens

/-- The word closes just what it opens. -/
abbrev Balanced (word : List α) : Prop := ClosesFrom opens closes 0 word

variable {opens closes} {depth : ℕ} {letter : α} {word rest : List α}

theorem closes_from_nil : ClosesFrom opens closes depth [] ↔ depth = 0 := by
  constructor
  · intro closed
    simpa using closed.total.symm
  · rintro rfl
    refine ⟨rfl, ?_⟩
    intro front first
    rw [List.prefix_nil.mp first]
    simp

/-- The first letter is checked, and the rest goes on from the depth it leaves. -/
theorem closes_from_cons : ClosesFrom opens closes depth (letter :: rest) ↔
    (closes letter).toNat ≤ depth + (opens letter).toNat ∧
      ClosesFrom opens closes (depth + (opens letter).toNat - (closes letter).toNat) rest := by
  have counted (mark : α → Bool) (word : List α) :
      (letter :: word).countP mark = (mark letter).toNat + word.countP mark := by
    rw [List.countP_cons]
    cases mark letter <;> simp [Nat.add_comm]
  constructor
  · intro closed
    have first := closed.never [letter] ⟨rest, rfl⟩
    have total := closed.total
    rw [counted, counted, List.countP_nil, List.countP_nil] at first
    rw [counted, counted] at total
    refine ⟨first, by omega, ?_⟩
    intro front before
    have next := closed.never (letter :: front) (List.prefix_cons_inj letter |>.mpr before)
    rw [counted, counted] at next
    omega
  · rintro ⟨first, closed⟩
    have total := closed.total
    refine ⟨by rw [counted, counted]; omega, ?_⟩
    intro front before
    cases front with
    | nil => simp
    | cons other front =>
      obtain ⟨rfl, shorter⟩ := List.cons_prefix_cons.mp before
      have next := closed.never front shorter
      rw [counted, counted]
      omega

/-- What is balanced can follow what is closed. -/
theorem ClosesFrom.append (closed : ClosesFrom opens closes depth word)
    (balanced : Balanced opens closes rest) : ClosesFrom opens closes depth (word ++ rest) := by
  induction word generalizing depth with
  | nil =>
    obtain rfl := closes_from_nil.mp closed
    exact balanced
  | cons letter word ih =>
    obtain ⟨first, closed⟩ := closes_from_cons.mp closed
    exact closes_from_cons.mpr ⟨first, ih closed⟩

/-- One closing letter more closes one opening more. -/
theorem ClosesFrom.close (closed : ClosesFrom opens closes depth word)
    (closing : closes letter = true) (silent : opens letter = false) :
    ClosesFrom opens closes (depth + 1) (word ++ [letter]) := by
  induction word generalizing depth with
  | nil =>
    obtain rfl := closes_from_nil.mp closed
    apply closes_from_cons.mpr
    simp [closing, silent, closes_from_nil]
  | cons first word ih =>
    obtain ⟨enough, closed⟩ := closes_from_cons.mp closed
    have deeper := ih closed
    rw [← Nat.sub_add_comm enough, Nat.add_right_comm] at deeper
    exact closes_from_cons.mpr ⟨by omega, deeper⟩

/-- An opening and a closing letter around what is balanced. -/
theorem Balanced.wrap {first last : α} (balanced : Balanced opens closes word)
    (opening : opens first = true) (unclosed : closes first = false)
    (closing : closes last = true) (silent : opens last = false) :
    Balanced opens closes (first :: word ++ [last]) := by
  apply closes_from_cons.mpr
  simp only [opening, unclosed]
  exact ⟨by simp, balanced.close closing silent⟩

/-- Letters may be replaced by others that open and close alike. -/
theorem closes_from_map {letters : List β} {image : β → α} :
    ClosesFrom opens closes depth (letters.map image) ↔
      ClosesFrom (opens ∘ image) (closes ∘ image) depth letters := by
  induction letters generalizing depth with
  | nil => rw [List.map_nil, closes_from_nil, closes_from_nil]
  | cons letter letters ih => rw [List.map_cons, closes_from_cons, closes_from_cons, ih]; rfl

end Nesting
