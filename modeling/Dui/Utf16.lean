import Dui.Utf8

/-! Text in UTF-16: the code units of scalar values, where their encoding may be cut, and
the way back. -/
namespace Dui

def isHighSurrogate (unit : UInt16) : Bool := 0xd800 ≤ unit.toNat ∧ unit.toNat ≤ 0xdbff

def isLowSurrogate (unit : UInt16) : Bool := 0xdc00 ≤ unit.toNat ∧ unit.toNat ≤ 0xdfff

/-- The code units of a scalar value: one, or a pair of surrogates. -/
def utf16Units (char : Char) : List UInt16 :=
  if char.val.toNat < 0x10000 then [UInt16.ofNat char.val.toNat]
  else
    [UInt16.ofNat (0xd800 + (char.val.toNat - 0x10000) / 0x400),
      UInt16.ofNat (0xdc00 + (char.val.toNat - 0x10000) % 0x400)]

/-- The code units of some scalar values, one after the other. -/
def encodeUtf16 (chars : List Char) : List UInt16 := chars.flatMap utf16Units

/-- The position itself, or the one before it where it is inside a pair. -/
def avoidPair (wide : List UInt16) (position : Nat) : Nat :=
  if position ≠ 0 ∧ wide[position - 1]?.any isHighSurrogate ∧ wide[position]?.any isLowSurrogate
  then position - 1 else position

/-- The scalar values of code units, if every surrogate comes in a pair. -/
def decodeUtf16 : List UInt16 → Option (List Char)
  | [] => some []
  | [unit] =>
    if isHighSurrogate unit ∨ isLowSurrogate unit then none else some [Char.ofNat unit.toNat]
  | unit :: next :: rest =>
    if isHighSurrogate unit then
      if isLowSurrogate next then
        (decodeUtf16 rest).map
          (Char.ofNat (0x10000 + (unit.toNat - 0xd800) * 0x400 + (next.toNat - 0xdc00)) :: ·)
      else none
    else if isLowSurrogate unit then none
    else (decodeUtf16 (next :: rest)).map (Char.ofNat unit.toNat :: ·)

theorem unit_value (value : Nat) (small : value < 65536) : (UInt16.ofNat value).toNat = value :=
  UInt16.toNat_ofNat'.trans (Nat.mod_eq_of_lt small)

theorem char_of_value {char : Char} {value : Nat} (same : value = char.val.toNat) :
    Char.ofNat value = char := by
  rw [same]
  exact Char.ofNat_toNat char

/-- A scalar value is one unit that is no surrogate, or a pair. -/
theorem utf16_units_cases (char : Char) :
    (∃ unit, utf16Units char = [unit] ∧ isHighSurrogate unit = false ∧
      isLowSurrogate unit = false ∧ unit.toNat = char.val.toNat) ∨
    ∃ high low, utf16Units char = [high, low] ∧ isHighSurrogate high = true ∧
      isLowSurrogate low = true ∧
      0x10000 + (high.toNat - 0xd800) * 0x400 + (low.toNat - 0xdc00) = char.val.toNat := by
  have legal := scalar_bounds char
  unfold utf16Units
  by_cases small : char.val.toNat < 0x10000
  · left
    have own := unit_value char.val.toNat (by omega)
    rw [if_pos small]
    refine ⟨_, rfl, ?_, ?_, own⟩
    · unfold isHighSurrogate
      rw [own, decide_eq_false_iff_not]
      omega
    · unfold isLowSurrogate
      rw [own, decide_eq_false_iff_not]
      omega
  · right
    have high := unit_value (0xd800 + (char.val.toNat - 0x10000) / 0x400) (by omega)
    have low := unit_value (0xdc00 + (char.val.toNat - 0x10000) % 0x400) (by omega)
    rw [if_neg small]
    refine ⟨_, _, rfl, ?_, ?_, ?_⟩
    · unfold isHighSurrogate
      rw [high, decide_eq_true_eq]
      omega
    · unfold isLowSurrogate
      rw [low, decide_eq_true_eq]
      omega
    · rw [high, low]
      omega

theorem single_unit_char {unit : UInt16} (notHigh : isHighSurrogate unit = false)
    (notLow : isLowSurrogate unit = false) : ∃ char, utf16Units char = [unit] := by
  have bound := unit.toNat_lt
  unfold isHighSurrogate at notHigh
  unfold isLowSurrogate at notLow
  rw [decide_eq_false_iff_not] at notHigh notLow
  obtain ⟨char, value⟩ := @scalar_value unit.toNat (by omega)
  apply Exists.intro char
  unfold utf16Units
  rw [if_pos (by omega), value, UInt16.ofNat_toNat]

theorem pair_char {high low : UInt16} (isHigh : isHighSurrogate high = true)
    (isLow : isLowSurrogate low = true) : ∃ char, utf16Units char = [high, low] := by
  unfold isHighSurrogate at isHigh
  unfold isLowSurrogate at isLow
  rw [decide_eq_true_eq] at isHigh isLow
  obtain ⟨char, value⟩ :=
    @scalar_value (0x10000 + (high.toNat - 0xd800) * 0x400 + (low.toNat - 0xdc00)) (by omega)
  apply Exists.intro char
  unfold utf16Units
  rw [if_neg (by omega), value]
  have upper : 0xd800 + (0x10000 + (high.toNat - 0xd800) * 0x400 + (low.toNat - 0xdc00) - 0x10000) /
      0x400 = high.toNat := by omega
  have lower : 0xdc00 + (0x10000 + (high.toNat - 0xd800) * 0x400 + (low.toNat - 0xdc00) - 0x10000) %
      0x400 = low.toNat := by omega
  rw [upper, lower, UInt16.ofNat_toNat, UInt16.ofNat_toNat]

theorem encode_utf16_cons (char : Char) (chars : List Char) :
    encodeUtf16 (char :: chars) = utf16Units char ++ encodeUtf16 chars := List.flatMap_cons

theorem encode_utf16_append (before after : List Char) :
    encodeUtf16 (before ++ after) = encodeUtf16 before ++ encodeUtf16 after := List.flatMap_append

/-- A position in an encoding, moved out of a pair, is between two scalar values. -/
theorem avoid_pair_cuts (chars : List Char) : ∀ {position : Nat},
    position ≤ (encodeUtf16 chars).length → ∃ before after, chars = before ++ after ∧
      avoidPair (encodeUtf16 chars) position = (encodeUtf16 before).length := by
  induction chars with
  | nil =>
    intro position within
    obtain rfl := Nat.le_zero.mp within
    exact ⟨[], [], rfl, rfl⟩
  | cons char chars ih =>
    intro position within
    -- a position past the first scalar value is one of the rest
    have later : ∀ further, position = (utf16Units char).length + (further + 1) →
        ∃ before after, char :: chars = before ++ after ∧
          avoidPair (encodeUtf16 (char :: chars)) position = (encodeUtf16 before).length := by
      rintro further rfl
      rw [encode_utf16_cons, List.length_append] at within
      obtain ⟨before, after, rfl, cuts⟩ := @ih (further + 1) (by omega)
      refine ⟨char :: before, after, rfl, ?_⟩
      have same : avoidPair (encodeUtf16 (char :: (before ++ after)))
          ((utf16Units char).length + (further + 1)) =
          (utf16Units char).length + avoidPair (encodeUtf16 (before ++ after)) (further + 1) := by
        unfold avoidPair
        rw [encode_utf16_cons, ← Nat.add_assoc, Nat.add_sub_cancel,
          List.getElem?_append_right (Nat.le_add_right _ _), Nat.add_sub_cancel_left,
          List.getElem?_append_right (by omega), Nat.add_assoc, Nat.add_sub_cancel_left,
          Nat.add_sub_cancel]
        by_cases pair : (encodeUtf16 (before ++ after))[further]?.any isHighSurrogate ∧
            (encodeUtf16 (before ++ after))[further + 1]?.any isLowSurrogate
        · rw [if_pos ⟨by omega, pair⟩, if_pos ⟨by omega, pair⟩]
        · rw [if_neg fun both => pair both.2, if_neg fun both => pair both.2]
      rw [same, cuts, encode_utf16_cons, List.length_append]
    by_cases start : position = 0
    · refine ⟨[], char :: chars, rfl, ?_⟩
      unfold avoidPair
      rw [if_neg fun both => both.1 start]
      exact start
    obtain ⟨unit, units, notHigh, -⟩ | ⟨high, low, units, isHigh, isLow, -⟩ :=
      utf16_units_cases char
    · by_cases first : position = 1
      · refine ⟨[char], chars, rfl, ?_⟩
        subst first
        unfold avoidPair
        rw [if_neg]
        · rw [encode_utf16_cons, units]
          rfl
        · rw [encode_utf16_cons, units]
          rintro ⟨-, isHigh, -⟩
          simp [notHigh] at isHigh
      · apply later (position - 2)
        rw [units]
        simp only [List.length_singleton]
        omega
    · by_cases first : position = 1
      · refine ⟨[], char :: chars, rfl, ?_⟩
        subst first
        unfold avoidPair
        rw [encode_utf16_cons, units, if_pos]
        · rfl
        · simp [isHigh, isLow]
      by_cases second : position = 2
      · refine ⟨[char], chars, rfl, ?_⟩
        subst second
        unfold avoidPair
        rw [encode_utf16_cons, units, if_neg]
        · rw [encode_utf16_cons, units]
          rfl
        · rintro ⟨-, isHigh, -⟩
          have both : isHighSurrogate low = true := by simpa using isHigh
          unfold isHighSurrogate at both
          unfold isLowSurrogate at isLow
          rw [decide_eq_true_eq] at both isLow
          omega
      · apply later (position - 3)
        rw [units]
        simp only [List.length_cons, List.length_nil]
        omega

theorem decode_encode_utf16 (chars : List Char) : decodeUtf16 (encodeUtf16 chars) = some chars := by
  induction chars with
  | nil => rfl
  | cons char chars ih =>
    rw [encode_utf16_cons]
    obtain ⟨unit, units, notHigh, notLow, value⟩ | ⟨high, low, units, isHigh, isLow, value⟩ :=
      utf16_units_cases char
    · rw [units]
      have one : Char.ofNat unit.toNat = char := char_of_value value
      cases rest : encodeUtf16 chars with
      | nil =>
        rw [rest] at ih
        have empty : chars = [] := (Option.some.inj ih).symm
        simp [decodeUtf16, notHigh, notLow, one, empty]
      | cons next more =>
        rw [rest] at ih
        simp [decodeUtf16, notHigh, notLow, one, ih]
    · rw [units]
      have one := char_of_value value
      simp only [List.cons_append, List.nil_append, decodeUtf16, isHigh, isLow, if_true, ih, one]
      rfl

end Dui
