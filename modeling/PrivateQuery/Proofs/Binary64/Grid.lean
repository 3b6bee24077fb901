import PrivateQuery.Proofs.Binary64.Order

/-!
# Nearest doubles

The places of doubles form a grid: multiples of powers of two with few significant bits, up to the
place of the infinities. A double rounds a real number if no point of the grid is nearer (`Rounds`).
The infinities count as points of the grid, so overflow needs no case of its own, and a bound that is
on the grid carries over from a number to what it is rounded to (`Rounds.le`, `Rounds.ge`).
-/
namespace PrivateQuery.Binary64

/-- A real number where a double may be. -/
inductive Grid (g : ℝ) : Prop where
  | intro (m e : ℤ) (small : |m| ≤ 2 ^ 53) (least : -1074 ≤ e) (place : g = m * 2 ^ e)
      (bounded : |g| ≤ limit) : Grid g

theorem grid_zero : Grid 0 :=
  ⟨0, 0, by norm_num, by norm_num, by simp, by simpa using limit_pos.le⟩

theorem Grid.neg {g : ℝ} (h : Grid g) : Grid (-g) := by
  obtain ⟨m, e, small, least, rfl, bounded⟩ := h
  exact ⟨-m, e, by rwa [abs_neg], least, by push_cast; ring, by rwa [abs_neg]⟩

theorem Grid.le_limit {g : ℝ} (h : Grid g) : g ≤ limit := by
  obtain ⟨-, -, -, -, -, bounded⟩ := h
  exact (le_abs_self g).trans bounded

theorem grid_zpow {k : ℤ} (least : -1074 ≤ k) (most : k ≤ 1024) : Grid (2 ^ k) := by
  refine ⟨1, k, by norm_num, least, by simp, ?_⟩
  rw [abs_of_pos (two_zpow_pos k)]
  exact zpow_le_zpow_right₀ (by norm_num) most

theorem grid_mul_zpow {m : ℕ} {e : ℤ} (small : m ≤ 2 ^ 53) (least : -1074 ≤ e)
    (bounded : (m : ℝ) * 2 ^ e ≤ limit) : Grid (m * 2 ^ e) := by
  refine ⟨m, e, by simpa using (by exact_mod_cast small : (m : ℤ) ≤ 2 ^ 53), least, by simp, ?_⟩
  rwa [abs_of_nonneg (by positivity)]

theorem Grid.half {g : ℝ} (h : Grid g) (large : 2 ^ (-1021 : ℤ) ≤ |g|) : Grid (g / 2) := by
  obtain ⟨m, e, small, least, rfl, bounded⟩ := h
  have size := large.trans_eq (abs_mul _ _)
  rw [abs_of_pos (two_zpow_pos e)] at size
  have bounded' : |(m : ℝ) * 2 ^ e / 2| ≤ limit := by
    rw [abs_div, abs_two]
    linarith [abs_nonneg ((m : ℝ) * 2 ^ e)]
  rcases least.lt_or_eq with above | rfl
  · refine ⟨m, e - 1, small, by omega, ?_, bounded'⟩
    rw [zpow_sub_one₀ (by norm_num)]
    ring
  · -- At the least exponent only the largest significand is far enough from zero.
    have full : |m| = 2 ^ 53 := by
      refine le_antisymm small ?_
      have bits : (2 : ℝ) ^ (53 : ℤ) ≤ |(m : ℝ)| := by
        rw [← mul_le_mul_iff_left₀ (two_zpow_pos (-1074)), ← zpow_add₀ (by norm_num)]
        exact size
      exact_mod_cast bits
    obtain ⟨n, rfl⟩ : ∃ n, m = 2 * n := by
      rcases (abs_eq (by norm_num)).1 full with same | same
      · exact ⟨2 ^ 52, by omega⟩
      · exact ⟨-2 ^ 52, by omega⟩
    refine ⟨n, -1074, ?_, le_rfl, ?_, bounded'⟩
    · rw [abs_mul] at full
      norm_num at full ⊢
      omega
    · push_cast
      ring

theorem Grid.div_pow {g : ℝ} (h : Grid g) {k : ℕ} (large : 2 ^ ((k : ℤ) - 1022) ≤ |g|) :
    Grid (g / 2 ^ k) := by
  induction k with
  | zero => simpa using h
  | succ k ih =>
    have before : (2 : ℝ) ^ ((k : ℤ) - 1022) ≤ |g| :=
      le_trans (zpow_le_zpow_right₀ (by norm_num) (by omega)) large
    have away : (2 : ℝ) ^ (-1021 : ℤ) ≤ |g / 2 ^ k| := by
      have unit : (0 : ℝ) < 2 ^ k := by positivity
      rw [abs_div, abs_of_pos unit, le_div_iff₀ unit, ← zpow_natCast, ← zpow_add₀ (by norm_num)]
      refine le_trans (zpow_le_zpow_right₀ (by norm_num) ?_) large
      omega
    rw [pow_succ, ← div_div]
    exact (ih before).half away

/-- What is on the grid is a multiple of its least step. -/
theorem Grid.multiple {g : ℝ} (h : Grid g) : ∃ k : ℤ, g = k * 2 ^ (-1074 : ℤ) := by
  obtain ⟨m, e, -, least, rfl, -⟩ := h
  refine ⟨m * 2 ^ (e + 1074).toNat, ?_⟩
  rw [Int.cast_mul, Int.cast_pow, Int.cast_ofNat, mul_assoc, ← zpow_natCast,
    ← zpow_add₀ (by norm_num)]
  congr 2
  omega

/-- Close to zero every multiple of the least step is on the grid. -/
theorem grid_of_multiple {k : ℤ} (small : |(k : ℝ) * 2 ^ (-1074 : ℤ)| ≤ 2 ^ (-1021 : ℤ)) :
    Grid (k * 2 ^ (-1074 : ℤ)) := by
  refine ⟨k, -1074, ?_, le_rfl, rfl, small.trans ?_⟩
  · have bits : |(k : ℝ)| ≤ 2 ^ (53 : ℤ) := by
      rw [← mul_le_mul_iff_left₀ (two_zpow_pos (-1074)), ← zpow_add₀ (by norm_num)]
      rwa [abs_mul, abs_of_pos (two_zpow_pos _)] at small
    exact_mod_cast bits
  · exact zpow_le_zpow_right₀ (by norm_num) (by norm_num)

theorem grid_place (x : Float) : Grid (place x) := by
  have canonical := canonical_read x
  have bounded := bounded_read x
  unfold place
  cases reading : read x with
  | nan => exact grid_zero
  | infinite negative =>
    have edge : Grid limit := grid_zpow (by norm_num) le_rfl
    cases negative <;> simp only [Reading.place, signum_true, signum_false, one_mul, neg_one_mul]
    · exact edge
    · exact edge.neg
  | finite negative s e =>
    rw [reading] at canonical bounded
    have inside : Grid (s * 2 ^ e) :=
      grid_mul_zpow canonical.1.le canonical.2.1 (magnitude_lt_limit canonical.1 bounded).le
    cases negative <;> simp only [Reading.place, signum_true, signum_false, one_mul, neg_one_mul]
    · exact inside
    · exact inside.neg

theorem grid_one : Grid 1 := place_one ▸ grid_place 1

/-- No double is nearer to a real number than this one. -/
structure Rounds (q : ℝ) (x : Float) : Prop where
  isNumber : IsNumber x
  nearest : ∀ g, Grid g → |place x - q| ≤ |g - q|

namespace Rounds

variable {q : ℝ} {x : Float}

theorem refl (h : IsNumber x) : Rounds (place x) x :=
  ⟨h, fun g _ => by simp⟩

theorem neg (h : Rounds q x) : Rounds (-q) (-x) := by
  refine ⟨isNumber_neg.2 h.isNumber, fun g grid => ?_⟩
  have near := h.nearest _ grid.neg
  rw [place_neg, ← abs_neg, ← abs_neg (g - _)]
  convert near using 2 <;> ring

theorem le {g : ℝ} (h : Rounds q x) (grid : Grid g) (le : q ≤ g) : place x ≤ g := by
  by_contra! more
  have near := h.nearest g grid
  rw [abs_of_nonneg (by linarith), abs_of_nonneg (by linarith)] at near
  linarith

theorem ge {g : ℝ} (h : Rounds q x) (grid : Grid g) (ge : g ≤ q) : g ≤ place x := by
  by_contra! less
  have near := h.nearest g grid
  rw [abs_of_nonpos (by linarith), abs_of_nonpos (by linarith)] at near
  linarith

theorem eq (h : Rounds q x) (grid : Grid q) : place x = q :=
  le_antisymm (h.le grid le_rfl) (h.ge grid le_rfl)

theorem nonneg (h : Rounds q x) (pos : 0 ≤ q) : 0 ≤ place x := h.ge grid_zero pos

theorem isFinite (h : Rounds q x) (pos : 0 ≤ q) (small : q ≤ 2 ^ (1023 : ℤ)) : IsFinite x := by
  refine h.isNumber.isFinite ?_
  rw [abs_of_nonneg (h.nonneg pos)]
  exact (h.le (grid_zpow (by norm_num) (by norm_num)) small).trans_lt
    (zpow_lt_zpow_right₀ (by norm_num) (by norm_num))

theorem eq_limit (h : Rounds q x) (large : limit ≤ q) : place x = limit :=
  le_antisymm (grid_place x).le_limit (h.ge (grid_zpow (by norm_num) le_rfl) large)

theorem le_two_mul (h : Rounds q x) (pos : 0 ≤ q) : place x ≤ 2 * q := by
  have near := h.nearest 0 grid_zero
  rw [zero_sub, abs_neg, abs_of_nonneg pos] at near
  linarith [(abs_le.1 near).2]

theorem mono {r : ℝ} {y : Float} (hx : Rounds q x) (hy : Rounds r y) (less : q < r) :
    place x ≤ place y := by
  by_contra! more
  have nearX := sq_le_sq.2 (hx.nearest _ (grid_place y))
  have nearY := sq_le_sq.2 (hy.nearest _ (grid_place x))
  nlinarith

end Rounds

/-! ## Rounding to a multiple of a power of two -/

/-- What 53 bits are rounded to needs at most one more value, and no less of them. -/
theorem rounded_bits {n : ℕ} {t : ℤ} {r : ℝ} (close : |n - r| ≤ 1 / 2) (upper : r < 2 ^ 53)
    (normal : t = -1074 ∨ 2 ^ 52 ≤ r) : n ≤ 2 ^ 53 ∧ (t = -1074 ∨ 2 ^ 52 ≤ n) := by
  obtain ⟨closeLow, closeHigh⟩ := abs_le.1 close
  constructor
  · have less : (n : ℝ) < 2 ^ 53 + 1 := by linarith
    have less' : n < 2 ^ 53 + 1 := by exact_mod_cast less
    omega
  · refine normal.imp_right fun h => ?_
    have more : (2 : ℝ) ^ 52 < n + 1 := by linarith
    have more' : 2 ^ 52 < n + 1 := by exact_mod_cast more
    omega

theorem nearest_integer {n k : ℤ} {x : ℝ} (close : |(n : ℝ) - x| ≤ 1 / 2) : |(n : ℝ) - x| ≤ |k - x| := by
  rcases eq_or_ne k n with rfl | apart
  · exact le_rfl
  · have far : (1 : ℝ) ≤ |(k : ℝ) - n| := by
      exact_mod_cast Int.one_le_abs (sub_ne_zero.2 apart)
    have triangle := abs_sub_le (k : ℝ) x n
    rw [abs_sub_comm x] at triangle
    linarith

/-- A multiple of the right power of two, at most half of it away, is the nearest point of the grid
that has no upper end. -/
theorem nearest_multiple {v : ℝ} {n : ℕ} {t m e : ℤ} (close : |n - v / 2 ^ t| ≤ 1 / 2)
    (normal : t = -1074 ∨ 2 ^ 52 ≤ v / 2 ^ t) (small : |m| ≤ 2 ^ 53) (least : -1074 ≤ e) :
    |(n : ℝ) * 2 ^ t - v| ≤ |m * 2 ^ e - v| := by
  have unit := two_zpow_pos t
  have scaled (k : ℝ) : |k * 2 ^ t - v| = |k - v / 2 ^ t| * 2 ^ t := by
    rw [← abs_of_pos unit, ← abs_mul, abs_of_pos unit, sub_mul, div_mul_cancel₀ _ unit.ne']
  have nearest (k : ℤ) : |(n : ℝ) * 2 ^ t - v| ≤ |k * 2 ^ t - v| := by
    rw [scaled, scaled]
    refine mul_le_mul_of_nonneg_right ?_ unit.le
    exact_mod_cast nearest_integer (n := n) (k := k) (by exact_mod_cast close)
  rcases le_or_gt t e with above | below
  · -- The other point is a multiple of the same power.
    have multiple : (m : ℝ) * 2 ^ e = (m * 2 ^ (e - t).toNat : ℤ) * 2 ^ t := by
      rw [Int.cast_mul, Int.cast_pow, Int.cast_ofNat, mul_assoc, ← zpow_natCast,
        ← zpow_add₀ (by norm_num)]
      congr 2
      omega
    rw [multiple]
    exact nearest _
  · -- The other point is below all multiples that are rounded to.
    have full : 2 ^ 52 * 2 ^ t ≤ v := by
      rw [← le_div_iff₀ unit]
      exact normal.resolve_left (by omega)
    have under : (m : ℝ) * 2 ^ e ≤ 2 ^ 52 * 2 ^ t := by
      have few : (m : ℝ) ≤ 2 ^ 53 := by exact_mod_cast (abs_le.1 small).2
      calc (m : ℝ) * 2 ^ e ≤ 2 ^ 53 * 2 ^ e := mul_le_mul_of_nonneg_right few (two_zpow_pos e).le
        _ = 2 ^ 52 * 2 ^ (e + 1) := by
            rw [zpow_add_one₀ (by norm_num)]
            ring
        _ ≤ 2 ^ 52 * 2 ^ t := by
            refine mul_le_mul_of_nonneg_left ?_ (by positivity)
            exact zpow_le_zpow_right₀ (by norm_num) (by omega)
    have first := nearest (2 ^ 52)
    push_cast at first
    refine first.trans ?_
    rw [abs_of_nonpos (by linarith), abs_of_nonpos (by linarith)]
    linarith

/-- Beyond the grid the infinities are nearest. -/
theorem nearest_clipped {v : ℝ} {n : ℕ} {t : ℤ} {g : ℝ} (close : |n - v / 2 ^ t| ≤ 1 / 2)
    (normal : t = -1074 ∨ 2 ^ 52 ≤ v / 2 ^ t) (grid : Grid g) :
    |min ((n : ℝ) * 2 ^ t) limit - v| ≤ |g - v| := by
  obtain ⟨m, e, small, least, rfl, bounded⟩ := grid
  rcases le_total ((n : ℝ) * 2 ^ t) limit with inside | beyond
  · rw [min_eq_left inside]
    exact nearest_multiple close normal small least
  · rw [min_eq_right beyond]
    have edge : |(n : ℝ) * 2 ^ t - v| ≤ |limit - v| := by
      simpa [limit] using nearest_multiple (m := 1) (e := 1024) close normal (by norm_num)
        (by norm_num)
    have under := (abs_le.1 bounded).2
    rcases le_total limit v with above | below
    · rw [abs_of_nonpos (by linarith), abs_of_nonpos (by linarith)]
      linarith
    · -- The rounded multiple is the limit itself.
      rw [abs_of_nonneg (by linarith), abs_of_nonneg (by linarith)] at edge
      have same : (n : ℝ) * 2 ^ t = limit := le_antisymm (by linarith) beyond
      rw [← same]
      exact nearest_multiple close normal small least

end PrivateQuery.Binary64
