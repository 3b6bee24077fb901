import PrivateQuery.Privacy.Noise
import PrivateQuery.Proofs.Binary64.Nearest

/-!
# What noise costs

The loss of noise goes by the ratio of what it hides to its scale, and doubles set two limits to it.
The square of a small ratio vanishes, and with it the loss of Gaussian noise (`rho_zero`), while the
inverse of a small `δ` is infinite, and with it every loss that does not vanish (`epsilonOf_infinite`).
Between these limits the loss is proportional to the ratio, up to a fixed factor (`epsilonOf_le`).
-/
namespace PrivateQuery

open Binary64
open Float.Model (UnpackedFloat Format)

/-- What noise hides, in units of its scale. -/
def Noise.ratio (sensitivity scale : Float) : Float :=
  if sensitivity == 0 then 0 else sensitivity / scale

/-- The zero-concentrated loss of Gaussian noise at a ratio. -/
def Loss.rho (ratio : Float) : Float := ratio * ratio / 2

theorem Noise.loss_eq (n : Noise) (sensitivity : Float) : n.loss sensitivity =
    match n.mechanism with
    | .laplace => .pure (Noise.ratio sensitivity n.scale)
    | .gaussian => .concentrated (Loss.rho (Noise.ratio sensitivity n.scale)) := rfl

variable {sensitivity scale r rho delta : Float}

theorem rounds_ratio (hs : IsFinite sensitivity) (hc : IsFinite scale) (pos : 0 < place scale) :
    Rounds (place sensitivity / place scale) (Noise.ratio sensitivity scale) := by
  rw [Noise.ratio]
  split_ifs with zero
  · rw [(beq_iff.1 zero).2.2, place_zero, zero_div]
    simpa using Rounds.refl isFinite_zero.isNumber
  · exact rounds_div hs hc pos.ne'

theorem finite_ratio {i : ℕ} (hs : IsFinite sensitivity) (nonneg : 0 ≤ place sensitivity)
    (h : Rounds (place sensitivity / 2 ^ i) r) : IsFinite r := by
  have below := h.le (grid_place sensitivity) (div_le_self nonneg (one_le_pow₀ (by norm_num)))
  exact h.isNumber.isFinite_of_le (h.nonneg (by positivity)) below hs

/-- At the last power of two every ratio is small. -/
theorem last_ratio_le (hs : IsFinite sensitivity) (nonneg : 0 ≤ place sensitivity)
    (h : Rounds (place sensitivity / 2 ^ 1023) r) : place r ≤ 2 := by
  have grid : Grid 2 := by simpa using grid_zpow (k := 1) (by norm_num) (by norm_num)
  refine h.le grid ?_
  have less := hs.abs_place_lt
  rw [abs_of_nonneg nonneg, limit_eq_pow, pow_succ'] at less
  rw [div_le_iff₀ (by positivity)]
  exact less.le

theorem grid_last_ratio (large : 2 ≤ place sensitivity) : Grid (place sensitivity / 2 ^ 1023) := by
  refine (grid_place sensitivity).div_pow ?_
  rw [abs_of_nonneg (by linarith)]
  norm_num
  exact large

/-! ## Squares that vanish -/

theorem read_least {x : Float} (finite : IsFinite x) (least : place x = 2 ^ (-1074 : ℤ)) :
    read x = .finite false 1 (-1074) := by
  obtain ⟨negative, s, e, reading⟩ := finite
  have canonical := canonical_read x
  rw [place, reading, Reading.place] at least
  rw [reading] at canonical ⊢
  obtain ⟨small, above, normal⟩ := canonical
  have size : (0 : ℝ) ≤ s * 2 ^ e := by positivity
  have unit := two_zpow_pos (-1074)
  cases negative with
  | true =>
    rw [signum_true] at least
    linarith
  | false =>
    rw [signum_false, one_mul] at least
    obtain rfl : e = -1074 := by
      by_contra other
      have less := magnitude_lt (m := 1) (n := s) (d := -1074) (e := e) (by norm_num) le_rfl normal
        (by omega)
      rw [least, Nat.cast_one, one_mul] at less
      exact lt_irrefl _ less
    have one : (s : ℝ) = 1 := mul_right_cancel₀ unit.ne' (by rw [least, one_mul])
    obtain rfl : s = 1 := by exact_mod_cast one
    rfl

/-- Half of the least positive double is as close to zero as to itself, and zero is even. -/
theorem half_least {x : Float} (finite : IsFinite x) (least : place x = 2 ^ (-1074 : ℤ)) :
    place (x / 2) = 0 := by
  have reading := read_least finite least
  have closed : read (.ofModel (.pack (UnpackedFloat.div Format.binary64
      (.finite .positive 1 (-1074) (by decide)) (2 : Float).toModel.unpack))) =
        .finite false 0 (-1074) := by
    decide +kernel
  rw [read_eq_ofUnpacked] at reading
  change (read (.ofModel (.pack (UnpackedFloat.div Format.binary64 x.toModel.unpack _)))).place = 0
  cases unpacked : x.toModel.unpack with
  | finite s m e positive =>
    rw [unpacked, Reading.ofUnpacked, Reading.finite.injEq] at reading
    obtain ⟨sign, rfl, rfl⟩ := reading
    cases s with
    | positive => simp [closed, Reading.place]
    | negative => simp [isNegative] at sign
  | _ => simp [unpacked, Reading.ofUnpacked] at reading

theorem least_eq : (2 : ℝ) ^ (-1074 : ℤ) = 2 * 2 ^ (-1075 : ℤ) := by
  rw [← zpow_one_add₀ (by norm_num)]
  norm_num

theorem twice_least_eq : (2 : ℝ) ^ (-1073 : ℤ) = 4 * 2 ^ (-1075 : ℤ) := by
  rw [show (-1073 : ℤ) = 2 + -1075 by norm_num, zpow_add₀ (by norm_num)]
  norm_num

/-- **`rho_zero`**: the loss of Gaussian noise vanishes with the square of its ratio. -/
theorem rho_zero (finite : IsFinite r) (small : place r ^ 2 < 3 * 2 ^ (-1075 : ℤ)) :
    (Loss.rho r == 0) = true := by
  have square := rounds_mul finite finite
  rw [← sq] at square
  have nonneg := square.nonneg (sq_nonneg _)
  have unit := least_eq
  have pos := two_zpow_pos (-1075)
  have finite' : IsFinite (r * r) := square.isFinite (sq_nonneg _) <| by
    calc place r ^ 2 ≤ 3 * 2 ^ (-1075 : ℤ) := small.le
      _ ≤ 4 * 2 ^ (-1075 : ℤ) := mul_le_mul_of_nonneg_right (by norm_num) pos.le
      _ = 2 ^ (-1073 : ℤ) := twice_least_eq.symm
      _ ≤ 2 ^ (1023 : ℤ) := zpow_le_zpow_right₀ (by norm_num) (by norm_num)
  -- The square is zero or the least positive double.
  obtain ⟨k, place_square⟩ := (grid_place (r * r)).multiple
  have below : place (r * r) < 2 * 2 ^ (-1074 : ℤ) := by
    have grid := grid_zpow (k := -1074) le_rfl (by norm_num)
    rcases le_total (place r ^ 2) (2 ^ (-1074 : ℤ)) with low | high
    · linarith [square.le grid low]
    · have near := (abs_le.1 (square.nearest _ grid)).2
      rw [abs_of_nonpos (by linarith)] at near
      linarith
  have half := rounds_half finite'
  rw [← Loss.rho] at half
  refine (beq_zero_iff half.isNumber).2 ?_
  obtain rfl | rfl : k = 0 ∨ k = 1 := by
    rw [place_square] at nonneg below
    have low := nonneg_of_mul_nonneg_left nonneg (two_zpow_pos (-1074))
    have high := lt_of_mul_lt_mul_right below (two_zpow_pos (-1074)).le
    have low' : 0 ≤ k := by exact_mod_cast low
    have high' : k < 2 := by exact_mod_cast high
    omega
  · have zero : place (r * r) / 2 = 0 := by simp [place_square]
    rw [zero] at half
    exact half.eq grid_zero
  · exact half_least finite' (by simpa using place_square)

theorem rho_pos (finite : IsFinite r) (large : 3 * 2 ^ (-1075 : ℤ) < place r ^ 2) :
    IsNumber (Loss.rho r) ∧ 0 < place (Loss.rho r) := by
  have square := rounds_mul finite finite
  rw [← sq] at square
  have unit := twice_least_eq
  have step := least_eq
  have pos := two_zpow_pos (-1075)
  -- The square is nearer to twice the least positive double than to the least one.
  have twice : 2 ^ (-1073 : ℤ) ≤ place (r * r) := by
    have grid := grid_zpow (k := -1073) (by norm_num) (by norm_num)
    rcases le_total (2 ^ (-1073 : ℤ)) (place r ^ 2) with high | low
    · exact square.ge grid high
    · have near := (abs_le.1 (square.nearest _ grid)).1
      rw [abs_of_nonneg (by linarith)] at near
      obtain ⟨k, place_square⟩ := (grid_place (r * r)).multiple
      have more : (1 : ℝ) < k := by
        rw [place_square, step] at near
        nlinarith
      have more' : 2 ≤ k := by exact_mod_cast more
      have more'' : (2 : ℝ) ≤ k := by exact_mod_cast more'
      rw [place_square, step]
      nlinarith
  rcases (grid_place (r * r)).le_limit.lt_or_eq with inside | edge
  · have finite' : IsFinite (r * r) := square.isNumber.isFinite <| by
      rwa [abs_of_nonneg (by linarith [two_zpow_pos (-1073)])]
    have half := rounds_half finite'
    refine ⟨half.isNumber, (two_zpow_pos (-1074)).trans_le ?_⟩
    refine half.ge (grid_zpow le_rfl (by norm_num)) ?_
    rw [le_div_iff₀ two_pos, ← zpow_add_one₀ (by norm_num)]
    exact twice
  · have infinite := div_infinite (read_eq_infinite square.isNumber edge) isFinite_two
      (by norm_num)
    rw [Loss.rho, IsNumber, place, infinite]
    exact ⟨by simp, by simpa [Reading.place] using limit_pos⟩

/-! ## The threshold -/

/-- Three times a power of two is no square. -/
theorem sq_ne_three_mul (k n : ℕ) : k ^ 2 ≠ 3 * 2 ^ n := by
  intro same
  have three : Nat.Prime 3 := by norm_num
  obtain ⟨j, rfl⟩ : 3 ∣ k := three.dvd_of_dvd_pow (same ▸ Nat.dvd_mul_right 3 _)
  have third : 3 * j ^ 2 = 2 ^ n := by
    refine Nat.eq_of_mul_eq_mul_left (by norm_num : 0 < 3) ?_
    rw [← same]
    ring
  have divides : 3 ∣ 2 := three.dvd_of_dvd_pow (third ▸ Nat.dvd_mul_right 3 _)
  omega

/-- So the square of a double does not come to rest on the threshold. -/
theorem sq_ne_threshold (s : Float) : place s ^ 2 ≠ 3 * 2 ^ 971 := by
  obtain ⟨k, multiple⟩ := (grid_place s).multiple
  intro same
  have unit : (2 : ℝ) ^ (-1074 : ℤ) * 2 ^ 1074 = 1 := by
    rw [← zpow_natCast, ← zpow_add₀ (by norm_num)]
    norm_num
  have whole : ((k.natAbs ^ 2 : ℕ) : ℝ) = (3 * 2 ^ (971 + 1074 * 2) : ℕ) := by
    calc ((k.natAbs ^ 2 : ℕ) : ℝ) = (k : ℝ) ^ 2 := by
          rw [Nat.cast_pow, Nat.cast_natAbs, Int.cast_abs, sq_abs]
      _ = (place s * 2 ^ 1074) ^ 2 := by rw [multiple, mul_assoc, unit, mul_one]
      _ = (3 * 2 ^ (971 + 1074 * 2) : ℕ) := by
          rw [mul_pow, same, ← pow_mul, mul_assoc, ← pow_add, Nat.cast_mul, Nat.cast_pow,
            Nat.cast_ofNat, Nat.cast_ofNat]
  exact sq_ne_three_mul _ _ (Nat.cast_injective whole)

theorem sq_ratio (a : ℝ) : (a / 2 ^ 1023) ^ 2 = a ^ 2 / 2 ^ 971 * 2 ^ (-1075 : ℤ) := by
  have units : (2 : ℝ) ^ (-1075 : ℤ) * (2 ^ 1023) ^ 2 = 2 ^ 971 := by
    rw [← pow_mul, ← zpow_natCast, ← zpow_natCast, ← zpow_add₀ (by norm_num)]
    norm_num
  rw [div_pow, div_mul_eq_mul_div, div_eq_div_iff (by positivity) (by positivity), mul_assoc, units]

/-- Where the square is below the threshold, so is the square of the ratio to the last scale. -/
theorem sq_ratio_lt (h : Rounds (place sensitivity / 2 ^ 1023) r) (nonneg : 0 ≤ place sensitivity)
    (small : place sensitivity ^ 2 < 3 * 2 ^ 971) : place r ^ 2 < 3 * 2 ^ (-1075 : ℤ) := by
  have pos := two_zpow_pos (-1075)
  rcases le_or_gt 2 (place sensitivity) with large | tiny
  · rw [h.eq (grid_last_ratio large), sq_ratio]
    refine mul_lt_mul_of_pos_right ?_ pos
    rwa [div_lt_iff₀ (by positivity)]
  · have edge : place sensitivity / 2 ^ 1023 ≤ 2 ^ (-1022 : ℤ) := by
      have units : (2 : ℝ) ^ (-1022 : ℤ) * 2 ^ 1023 = 2 := by
        rw [← zpow_natCast, ← zpow_add₀ (by norm_num)]
        norm_num
      rw [div_le_iff₀ (by positivity), units]
      exact tiny.le
    have below := h.le (grid_zpow (by norm_num) (by norm_num)) edge
    have low := h.nonneg (by positivity)
    calc place r ^ 2 ≤ (2 ^ (-1022 : ℤ)) ^ 2 := pow_le_pow_left₀ low below 2
      _ = 2 ^ (-2044 : ℤ) := by
          rw [← zpow_natCast, ← zpow_mul]
          norm_num
      _ ≤ 2 ^ (-1075 : ℤ) := zpow_le_zpow_right₀ (by norm_num) (by norm_num)
      _ < 3 * 2 ^ (-1075 : ℤ) := by linarith

/-- Where the square is above the threshold, so are the squares of the ratios to all scales. -/
theorem lt_sq_ratio {i : ℕ} (h : Rounds (place sensitivity / 2 ^ i) r)
    (nonneg : 0 ≤ place sensitivity) (range : i ≤ 1023)
    (large : 3 * 2 ^ 971 ≤ place sensitivity ^ 2) : 3 * 2 ^ (-1075 : ℤ) < place r ^ 2 := by
  have more : 3 * 2 ^ 971 < place sensitivity ^ 2 :=
    lt_of_le_of_ne large (sq_ne_threshold sensitivity).symm
  have two : 2 ≤ place sensitivity := by
    by_contra! less
    have few : (2 : ℝ) ^ 2 ≤ 3 * 2 ^ 971 :=
      (pow_le_pow_right₀ (by norm_num) (by norm_num : 2 ≤ 971)).trans
        (le_mul_of_one_le_left (by positivity) (by norm_num))
    exact lt_asymm more ((pow_lt_pow_left₀ less nonneg two_ne_zero).trans_le few)
  have wider : place sensitivity / 2 ^ 1023 ≤ place sensitivity / 2 ^ i :=
    div_le_div_of_nonneg_left nonneg (by positivity) (pow_le_pow_right₀ (by norm_num) range)
  have above := h.ge (grid_last_ratio two) wider
  refine lt_of_lt_of_le ?_ (pow_le_pow_left₀ (by positivity) above 2)
  rw [sq_ratio]
  refine mul_lt_mul_of_pos_right ?_ (two_zpow_pos _)
  rwa [lt_div_iff₀ (by positivity)]

/-! ## Losses for a `δ` -/

theorem epsilonOf_eq (number : 0 < place rho) (hd : 0 < place delta) : Loss.epsilonOf rho delta =
    rho + 2 * (rho * ln (1 / delta)).sqrt := by
  rw [Loss.epsilonOf, if_neg, if_neg]
  · exact fun le => absurd (le_iff.1 le).2.2 (by simpa using hd)
  · exact fun zero => absurd (beq_iff.1 zero).2.2 (by simpa using number.ne')

/-- **`epsilonOf_infinite`**: where the `δ` is too small to have a finite inverse, no loss is finite
but one that vanishes. -/
theorem epsilonOf_infinite (number : IsNumber rho) (pos : 0 < place rho) (finite : IsFinite delta)
    (hd : 0 < place delta) (small : 2 ^ 1024 * place delta ≤ 1) :
    read (Loss.epsilonOf rho delta) = .infinite false := by
  have inverse := rounds_div isFinite_one finite hd.ne'
  have large : limit ≤ place 1 / place delta := by
    rw [place_one, le_div_iff₀ hd, limit]
    exact_mod_cast small
  have infinite := read_eq_infinite inverse.isNumber (inverse.eq_limit large)
  have logarithm : read (ln (1 / delta)) = .infinite false := by
    have closed : read infinity = .infinite false := by decide +kernel
    rw [ln, infinite]
    exact closed
  rw [epsilonOf_eq pos hd]
  refine add_infinite number pos (mul_infinite isFinite_two.isNumber (by norm_num) ?_)
  exact sqrt_infinite (mul_infinite number pos logarithm)

/-- A multiple of the least step above `2 ^ -1024` is a whole step above it. -/
theorem next_delta_le (large : 1 < 2 ^ 1024 * place delta) :
    (2 ^ 50 + 1) * 2 ^ (-1074 : ℤ) ≤ place delta := by
  obtain ⟨k, multiple⟩ := (grid_place delta).multiple
  have unit : (2 : ℝ) ^ 1024 * 2 ^ (-1074 : ℤ) * 2 ^ 50 = 1 := by
    rw [← zpow_natCast, ← zpow_natCast, ← zpow_add₀ (by norm_num), ← zpow_add₀ (by norm_num)]
    norm_num
  have above : (2 : ℝ) ^ 50 < k := by
    rw [multiple] at large
    have pos : (0 : ℝ) < 2 ^ 50 := by positivity
    calc (2 : ℝ) ^ 50 = 1 * 2 ^ 50 := (one_mul _).symm
      _ < 2 ^ 1024 * (k * 2 ^ (-1074 : ℤ)) * 2 ^ 50 := mul_lt_mul_of_pos_right large pos
      _ = k := by rw [mul_left_comm, mul_assoc, unit, mul_one]
  have above' : 2 ^ 50 < k := by exact_mod_cast above
  have steps : 2 ^ 50 + 1 ≤ k := by omega
  have steps' : (2 : ℝ) ^ 50 + 1 ≤ k := by exact_mod_cast steps
  rw [multiple]
  exact mul_le_mul_of_nonneg_right steps' (two_zpow_pos _).le

theorem inverse_finite (finite : IsFinite delta) (hd : 0 < place delta)
    (large : 1 < 2 ^ 1024 * place delta) (belowOne : place delta ≤ 1) :
    IsFinite (1 / delta) ∧ 1 ≤ place (1 / delta) := by
  have inverse := rounds_div isFinite_one finite hd.ne'
  rw [place_one] at inverse
  have one : 1 ≤ place (1 / delta) := by
    refine inverse.ge (by simpa using grid_zpow (k := 0) (by norm_num) (by norm_num)) ?_
    rwa [le_div_iff₀ hd, one_mul]
  -- The largest finite double is above the inverse of the next step.
  have less : ((2 ^ 53 - 1 : ℕ) : ℝ) * 2 ^ (971 : ℤ) < limit :=
    magnitude_lt_limit (by norm_num) le_rfl
  have grid : Grid ((2 ^ 53 - 1 : ℕ) * 2 ^ (971 : ℤ)) :=
    grid_mul_zpow (by norm_num) (by norm_num) less.le
  have below : 1 / place delta ≤ (2 ^ 53 - 1 : ℕ) * 2 ^ (971 : ℤ) := by
    have scale : (2 : ℝ) ^ (971 : ℤ) * 2 ^ (-1074 : ℤ) * 2 ^ 103 = 1 := by
      rw [← zpow_natCast, ← zpow_add₀ (by norm_num), ← zpow_add₀ (by norm_num)]
      norm_num
    rw [div_le_iff₀ hd, ← scale]
    calc (2 : ℝ) ^ (971 : ℤ) * 2 ^ (-1074 : ℤ) * 2 ^ 103
        ≤ 2 ^ (971 : ℤ) * 2 ^ (-1074 : ℤ) * ((2 ^ 53 - 1 : ℕ) * (2 ^ 50 + 1)) :=
          mul_le_mul_of_nonneg_left (by norm_num) (by positivity)
      _ = (2 ^ 53 - 1 : ℕ) * 2 ^ (971 : ℤ) * ((2 ^ 50 + 1) * 2 ^ (-1074 : ℤ)) := by ring
      _ ≤ (2 ^ 53 - 1 : ℕ) * 2 ^ (971 : ℤ) * place delta :=
          mul_le_mul_of_nonneg_left (next_delta_le large) (by positivity)
  refine ⟨inverse.isNumber.isFinite ?_, one⟩
  rw [abs_of_nonneg (by linarith)]
  exact (inverse.le grid below).trans_lt less

theorem rounds_small {q b : ℝ} {x : Float} (h : Rounds q x) (nonneg : 0 ≤ q) (le : q ≤ b)
    (room : b ≤ 2 ^ 20) : IsFinite x ∧ 0 ≤ place x ∧ place x ≤ 2 * b := by
  have inside : q ≤ 2 ^ (1023 : ℤ) := by
    refine (le.trans room).trans ?_
    exact_mod_cast pow_le_pow_right₀ (by norm_num : (1 : ℝ) ≤ 2) (by norm_num : 20 ≤ 1023)
  exact ⟨h.isFinite nonneg inside, h.nonneg nonneg, by linarith [h.le_two_mul nonneg]⟩

/-- **`epsilonOf_le`**: for a larger `δ` the loss of Gaussian noise is at most proportional to its
ratio. -/
theorem epsilonOf_le (finite : IsFinite r) (nonneg : 0 ≤ place r) (small : place r ≤ 2)
    (hd : IsFinite delta) (pos : 0 < place delta) (large : 1 < 2 ^ 1024 * place delta)
    (belowOne : place delta ≤ 1) :
    IsNumber (Loss.epsilonOf (Loss.rho r) delta) ∧
      place (Loss.epsilonOf (Loss.rho r) delta) ≤ 2 ^ 11 * place r := by
  have square := rounds_mul finite finite
  obtain ⟨fS, nS, leS⟩ := rounds_small square (by positivity) (b := 2 * place r) (by nlinarith)
    (by linarith)
  have leS' : place (r * r) ≤ 2 * place r ^ 2 := by nlinarith [square.le_two_mul (by positivity)]
  obtain ⟨fR, nR, leR⟩ := rounds_small (rounds_half fS) (by linarith) (b := place r ^ 2)
    (by linarith) (by nlinarith)
  rw [← Loss.rho] at fR nR leR
  rcases nR.eq_or_lt with zero | more
  · -- Nothing is lost.
    rw [Loss.epsilonOf, if_pos ((beq_zero_iff fR.isNumber).2 zero.symm)]
    exact ⟨isFinite_zero.isNumber, by rw [place_zero]; positivity⟩
  · rw [epsilonOf_eq more pos]
    obtain ⟨fI, one⟩ := inverse_finite hd pos large belowOne
    obtain ⟨numberL, nL, leL⟩ := ln_bounds fI one
    generalize ln (1 / delta) = l at numberL nL leL
    have wide : (2 : ℝ) ^ 10 < limit := by
      rw [limit]
      exact_mod_cast pow_lt_pow_right₀ (by norm_num : (1 : ℝ) < 2) (by norm_num : 10 < 1024)
    have fL : IsFinite l := numberL.isFinite <| by
      rw [abs_of_nonneg nL]
      exact leL.trans_lt wide
    obtain ⟨fP, nP, leP⟩ := rounds_small (rounds_mul fR fL) (by positivity)
      (b := 2 ^ 11 * place r ^ 2) (by nlinarith) (by nlinarith)
    have leRoot : √(place (Loss.rho r * l)) ≤ 2 ^ 6 * place r :=
      Real.sqrt_le_iff.2 ⟨by positivity, by nlinarith⟩
    obtain ⟨fQ, nQ, leQ⟩ := rounds_small (rounds_sqrt fP nP) (Real.sqrt_nonneg _) leRoot
      (by linarith)
    have twice := rounds_mul isFinite_two fQ
    rw [place_two] at twice
    obtain ⟨fD, nD, leD⟩ := rounds_small twice (by positivity) (b := 2 ^ 8 * place r) (by linarith)
      (by linarith)
    obtain ⟨fT, nT, leT⟩ := rounds_small (rounds_add fR fD) (by linarith) (b := 2 ^ 10 * place r)
      (by nlinarith) (by linarith)
    exact ⟨fT.isNumber, by linarith⟩

end PrivateQuery
