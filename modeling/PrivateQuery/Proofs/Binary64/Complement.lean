import PrivateQuery.Proofs.Binary64.Integral
import PrivateQuery.Proofs.Binary64.Special

/-!
# Complements of shares

What a share between zero and one leaves of the whole is rounded to a double between `2 ^ -53` and
one (`complement_bounds`). It is rounded to the whole exactly up to `2 ^ -54`
(`complement_eq_one_iff`), and to `2 ^ -53` only for the last share below one (`complement_ge`,
`complement_of_last`).
-/
namespace PrivateQuery.Binary64

theorem grid_last_share : Grid (1 - 2 ^ (-53 : ℤ)) := by
  have grid := grid_mul_zpow (m := 2 ^ 53 - 1) (e := -53) (by norm_num) (by norm_num)
    (le_trans (by norm_num) grid_one.le_limit)
  convert grid using 1
  norm_num

/-- No share is between the last one and the whole. -/
theorem Grid.le_of_lt_one {g : ℝ} (h : Grid g) (less : g < 1) : g ≤ 1 - 2 ^ (-53 : ℤ) := by
  have last := h.le_last (k := 0) (by simpa using less)
  refine last.trans_eq ?_
  norm_num

/-- What is left of a whole is a multiple of `2 ^ -53`, or it is at least a half. -/
theorem Grid.multiple_or_half_le {g : ℝ} (h : Grid g) :
    (∃ k : ℤ, 1 - g = k * 2 ^ (-53 : ℤ)) ∨ 1 / 2 ≤ 1 - g := by
  rcases h.multiple_or_le (-53) with ⟨k, rfl⟩ | half
  · refine .inl ⟨2 ^ 53 - k, ?_⟩
    push_cast
    rw [sub_mul]
    norm_num
  · right
    norm_num at half
    linarith

variable {x : Float}

theorem rounds_complement (finite : IsFinite x) : Rounds (1 - place x) (1 - x) := by
  have difference := rounds_sub isFinite_one finite
  rwa [place_one] at difference

theorem complement_ge {n : ℕ} (finite : IsFinite x) (few : n < 2 ^ 52)
    (less : place x < 1 - n * 2 ^ (-53 : ℤ)) : (n + 1) * 2 ^ (-53 : ℤ) ≤ place (1 - x) := by
  have small : ((n : ℝ) + 1) * 2 ^ (-53 : ℤ) ≤ 1 / 2 := by
    have most : ((n : ℝ) + 1) ≤ 2 ^ 52 := by exact_mod_cast few
    calc ((n : ℝ) + 1) * 2 ^ (-53 : ℤ) ≤ 2 ^ 52 * 2 ^ (-53 : ℤ) :=
          mul_le_mul_of_nonneg_right most (two_zpow_pos _).le
      _ = 1 / 2 := by norm_num
  have grid : Grid (((n + 1 : ℕ) : ℝ) * 2 ^ (-53 : ℤ)) := by
    refine grid_mul_zpow (by omega) (by norm_num) ?_
    push_cast
    exact small.trans (le_trans (by norm_num) grid_one.le_limit)
  push_cast at grid
  refine (rounds_complement finite).ge grid ?_
  rcases (grid_place x).multiple_or_half_le with ⟨k, exact⟩ | half
  · have more : (n : ℝ) * 2 ^ (-53 : ℤ) < k * 2 ^ (-53 : ℤ) := by linarith
    have above : (n : ℝ) < k := lt_of_mul_lt_mul_right more (two_zpow_pos _).le
    have next : (n : ℤ) + 1 ≤ k := by exact_mod_cast above
    rw [exact]
    exact mul_le_mul_of_nonneg_right (by exact_mod_cast next) (two_zpow_pos _).le
  · exact small.trans half

theorem complement_of_last (finite : IsFinite x) (less : place x < 1)
    (last : 1 - 2 ^ (-53 : ℤ) ≤ place x) : place (1 - x) = 2 ^ (-53 : ℤ) := by
  have same := le_antisymm ((grid_place x).le_of_lt_one less) last
  have rounds := rounds_complement finite
  rw [same, sub_sub_cancel] at rounds
  exact rounds.eq (grid_zpow (by norm_num) (by norm_num))

/-- **`complement_bounds`**: what a share leaves of the whole. -/
theorem complement_bounds (finite : IsFinite x) (pos : 0 < place x) (less : place x < 1) :
    IsFinite (1 - x) ∧ 2 ^ (-53 : ℤ) ≤ place (1 - x) ∧ place (1 - x) ≤ 1 := by
  have rounds := rounds_complement finite
  have least := complement_ge (n := 0) finite (by norm_num) (by simpa using less)
  obtain ⟨finite', -, most⟩ := rounds.upto (n := 1) (by linarith) (by push_cast; linarith)
    (by norm_num)
  exact ⟨finite', by simpa using least, by simpa using most⟩

/-- **`complement_eq_one_iff`**: nothing is taken off the whole exactly by shares of up to
`2 ^ -54`. -/
theorem complement_eq_one_iff (finite : IsFinite x) (pos : 0 < place x) (less : place x < 1) :
    place (1 - x) = 1 ↔ place x ≤ 2 ^ (-54 : ℤ) := by
  have rounds := rounds_complement finite
  have double : (2 : ℝ) ^ (-53 : ℤ) = 2 * 2 ^ (-54 : ℤ) := by norm_num
  constructor
  · intro whole
    by_contra! more
    -- The last double before one would be nearer.
    have near := rounds.nearest _ grid_last_share
    rw [whole, sub_sub_cancel, abs_of_pos pos, double] at near
    have nearer : |1 - 2 * 2 ^ (-54 : ℤ) - (1 - place x)| < place x := by
      rw [abs_lt]
      have unit := two_zpow_pos (-54)
      constructor <;> linarith
    exact absurd near (not_le.2 nearer)
  · intro small
    rcases small.lt_or_eq with below | half
    · refine le_antisymm (complement_bounds finite pos less).2.2 ?_
      by_contra! short
      have last := (grid_place (1 - x)).le_of_lt_one short
      have near := rounds.nearest 1 grid_one
      rw [sub_sub_cancel, abs_of_pos pos, abs_of_nonpos (by linarith)] at near
      linarith
    · -- Half way the double with the even significand is taken.
      obtain ⟨unit, reading, whole⟩ : ∃ unit : Float,
          read unit = .finite false (2 ^ 52) (-106) ∧ read (1 - unit) = read 1 :=
        ⟨Float.ofBits 0x3C90000000000000, by decide +kernel, by decide +kernel⟩
      have same : place x = place unit := by
        rw [half, place, reading, Reading.place]
        norm_num
      rw [sub_of_place_eq finite ⟨_, _, _, reading⟩ same pos.ne', place, whole]
      exact place_one

end PrivateQuery.Binary64
