import Mathlib

/-!
# Sums and products of doubles

The numbers of IEEE 754's binary64 that are not negative, as rationals with infinity on top. A
result is rounded to the nearest one, and from the middle to the one with an even last bit.

* `add_add_zero`: a sum is a double, so that adding zero changes nothing.
-/

namespace VibeKanban.Lib.Binary64

/-- The exponent of the last bit of the numbers of the magnitude of `x`. -/
def lastPlace (x : ℚ≥0) : ℤ := max (Int.log 2 x - 52) (-1074)

def roundEven (x : ℚ≥0) : ℕ :=
  if x - ⌊x⌋₊ < 1 / 2 ∨ x - ⌊x⌋₊ = 1 / 2 ∧ Even ⌊x⌋₊ then ⌊x⌋₊ else ⌊x⌋₊ + 1

/-- The nearest number, if the exponent had no bound above. -/
def nearest (x : ℚ≥0) : ℚ≥0 := roundEven (x / 2 ^ lastPlace x) * 2 ^ lastPlace x

def round (x : ℚ≥0) : WithTop ℚ≥0 := if nearest x < 2 ^ 1024 then nearest x else ⊤

def add : WithTop ℚ≥0 → WithTop ℚ≥0 → WithTop ℚ≥0
  | some x, some y => round (x + y)
  | _, _ => ⊤

/-- The product of two finite numbers. -/
def mul (x y : ℚ≥0) : WithTop ℚ≥0 := round (x * y)

theorem roundEven_natCast (n : ℕ) : roundEven n = n := by simp [roundEven]

theorem roundEven_le {x : ℚ≥0} {n : ℕ} (h : x ≤ n) : roundEven x ≤ n := by
  rcases h.eq_or_lt with rfl | hlt
  · rw [roundEven_natCast]
  · have hfloor : ⌊x⌋₊ < n := (Nat.floor_lt zero_le).2 hlt
    unfold roundEven
    split_ifs <;> omega

/-- A number of at most 53 bits stays. -/
theorem nearest_of_lt {m : ℕ} {e : ℤ} (hm : m < 2 ^ 53) (he : -1074 ≤ e) :
    nearest (m * 2 ^ e) = m * 2 ^ e := by
  rcases Nat.eq_zero_or_pos m with rfl | hpos
  · have hzero := roundEven_natCast 0
    simp_all [nearest]
  · have hx : (0 : ℚ≥0) < m * 2 ^ e := by positivity
    have hlog : Int.log 2 ((m : ℚ≥0) * 2 ^ e) < 53 + e := by
      rw [← Int.lt_zpow_iff_log_lt (by decide) hx, Nat.cast_ofNat, zpow_add₀ two_ne_zero]
      exact mul_lt_mul_of_pos_right (by exact_mod_cast hm) (by positivity)
    have hle : lastPlace (m * 2 ^ e) ≤ e := max_le (by omega) he
    obtain ⟨k, hk⟩ := Int.le.dest hle
    -- the last bit of `m` is at a place that is not below the last one
    have hquotient : (m : ℚ≥0) * 2 ^ e / 2 ^ lastPlace (m * 2 ^ e) = (m * 2 ^ k : ℕ) := by
      rw [div_eq_iff (by positivity), Nat.cast_mul, Nat.cast_pow, Nat.cast_ofNat, mul_assoc,
        ← zpow_natCast, ← zpow_add₀ two_ne_zero, add_comm, hk]
    rw [nearest, hquotient, roundEven_natCast, ← hquotient, div_mul_cancel₀ _ (by positivity)]

theorem nearest_nearest (x : ℚ≥0) : nearest (nearest x) = nearest x := by
  have he : -1074 ≤ lastPlace x := le_max_right _ _
  have hm : roundEven (x / 2 ^ lastPlace x) ≤ 2 ^ 53 := by
    apply roundEven_le
    rw [div_le_iff₀ (by positivity), Nat.cast_pow, Nat.cast_ofNat, ← zpow_natCast,
      ← zpow_add₀ two_ne_zero]
    refine (Int.lt_zpow_succ_log_self one_lt_two x).le.trans ?_
    have hlog : Int.log 2 x - 52 ≤ lastPlace x := le_max_left _ _
    exact zpow_le_zpow_right₀ one_le_two (by push_cast; omega)
  unfold nearest at hm ⊢
  rcases hm.eq_or_lt with heq | hlt
  · have hshift : ((2 ^ 53 : ℕ) : ℚ≥0) * 2 ^ lastPlace x =
        ((2 ^ 52 : ℕ) : ℚ≥0) * 2 ^ (lastPlace x + 1) := by
      rw [zpow_add_one₀ two_ne_zero]
      push_cast
      ring
    rw [heq, hshift]
    exact nearest_of_lt (by decide) (by omega)
  · exact nearest_of_lt hlt he

theorem add_round_zero (x : ℚ≥0) : add (round x) 0 = round x := by
  unfold round
  split_ifs with h
  · show round (nearest x + 0) = _
    rw [add_zero, round, nearest_nearest, if_pos h]
  · rfl

theorem add_add_zero (x y : WithTop ℚ≥0) : add (add x y) 0 = add x y := by
  cases x with
  | top => rfl
  | coe x =>
    cases y with
    | top => rfl
    | coe y => exact add_round_zero (x + y)

end VibeKanban.Lib.Binary64
