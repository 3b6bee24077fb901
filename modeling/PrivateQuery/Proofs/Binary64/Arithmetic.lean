import PrivateQuery.Proofs.Binary64.Rounding

/-!
# Arithmetic of doubles

On finite operands every operation rounds the exact result (`rounds_add`, `rounds_sub`, `rounds_mul`,
`rounds_div`, `rounds_sqrt`); a positive infinity stays one whatever positive it meets.
-/
namespace PrivateQuery.Binary64

open Float.Model (UnpackedFloat Format)
open Float.Model.UnpackedFloat

variable {x y : Float}

/-! ## Operands -/

/-- The place of an unpacked finite double. -/
noncomputable def unpackedPlace (s : Sign) (m : ℕ) (e : ℤ) : ℝ :=
  (Reading.finite (isNegative s) m e).place

/-- A finite double is unpacked as a zero or as a mantissa with an exponent. -/
theorem IsFinite.cases (h : IsFinite x) :
    (∃ s, x.toModel.unpack = .zero s ∧ place x = 0) ∨
      ∃ s m e positive, x.toModel.unpack = .finite s m e positive ∧
        place x = unpackedPlace s m e ∧ (Reading.finite (isNegative s) m e).Canonical := by
  obtain ⟨negative, significand, exponent, reading⟩ := h
  have canonical := canonical_read x
  rw [read_eq_ofUnpacked] at reading canonical
  unfold place
  rw [read_eq_ofUnpacked]
  cases unpacked : x.toModel.unpack with
  | notANumber => simp [unpacked, Reading.ofUnpacked] at reading
  | infinity s => simp [unpacked, Reading.ofUnpacked] at reading
  | zero s => exact .inl ⟨s, rfl, by simp [Reading.ofUnpacked, Reading.place]⟩
  | finite s m e positive =>
    rw [unpacked] at canonical
    exact .inr ⟨s, m, e, positive, rfl, rfl, canonical⟩

theorem read_repack (x : Float) : read (.ofModel (.pack x.toModel.unpack)) = read x := by
  have canonical := canonical_read x
  have bounded := bounded_read x
  rw [read_eq_ofUnpacked] at canonical bounded
  rw [read_ofModel_pack canonical, packed_of_bounded bounded, read_eq_ofUnpacked]

theorem rounds_repack (h : IsFinite x) : Rounds (place x) (.ofModel (.pack x.toModel.unpack)) := by
  have number : IsNumber (.ofModel (.pack x.toModel.unpack)) := by
    rw [IsNumber, read_repack]
    exact h.isNumber
  have rounds := Rounds.refl number
  rwa [place, read_repack] at rounds

theorem place_aligned (s : Sign) (m : ℕ) {d e : ℤ} (lower : d ≤ e) :
    (s.apply (m <<< (e - d).toNat : ℕ) : ℝ) * 2 ^ d = unpackedPlace s m e := by
  have moved : ((m <<< (e - d).toNat : ℕ) : ℝ) * 2 ^ d = m * 2 ^ e := by
    rw [Nat.shiftLeft_eq, Nat.cast_mul, Nat.cast_pow, Nat.cast_ofNat, mul_assoc, ← zpow_natCast,
      ← zpow_add₀ (by norm_num)]
    congr 2
    omega
  cases s with
  | negative =>
    rw [Sign.apply, unpackedPlace, Reading.place, ← moved, Int.cast_neg, Int.cast_natCast]
    simp [isNegative]
  | positive =>
    rw [Sign.apply, unpackedPlace, Reading.place, ← moved, Int.cast_natCast]
    simp [isNegative]

theorem signum_mul (s t : Sign) :
    signum (isNegative (s * t)) = signum (isNegative s) * signum (isNegative t) := by
  have cases (a b : Bool) : signum (a ^^ b) = signum a * signum b := by
    cases a <;> cases b <;> simp
  rw [← cases]
  cases s <;> cases t <;> rfl

theorem signum_div (s t : Sign) :
    signum (isNegative (s / t)) = signum (isNegative s) / signum (isNegative t) := by
  have cases (a b : Bool) : signum (a ^^ b) = signum a / signum b := by
    cases a <;> cases b <;> simp
  rw [← cases]
  cases s <;> cases t <;> rfl

/-! ## Sums -/

theorem rounds_add (hx : IsFinite x) (hy : IsFinite y) : Rounds (place x + place y) (x + y) := by
  change Rounds _ (.ofModel (.pack (UnpackedFloat.add Format.binary64 _ _)))
  rcases hx.cases with ⟨s, ux, px⟩ | ⟨s, m, d, hm, ux, px, -⟩
  · rcases hy.cases with ⟨s', uy, py⟩ | ⟨s', n, e, hn, uy, py, -⟩
    · rw [ux, uy, px, py, add_zero]
      cases s <;> cases s' <;> exact rounds_zero _
    · have same := rounds_repack hy
      rw [uy] at same
      rwa [ux, uy, px, zero_add]
  · rcases hy.cases with ⟨s', uy, py⟩ | ⟨s', n, e, hn, uy, py, -⟩
    · have same := rounds_repack hx
      rw [ux] at same
      rwa [ux, uy, py, add_zero]
    · rw [ux, uy, px, py, ← place_aligned s m (min_le_left d e),
        ← place_aligned s' n (min_le_right d e), ← add_mul, ← Int.cast_add]
      exact rounds_normalize

theorem rounds_sub (hx : IsFinite x) (hy : IsFinite y) : Rounds (place x - place y) (x - y) := by
  change Rounds _ (.ofModel (.pack (UnpackedFloat.sub Format.binary64 _ _)))
  rcases hx.cases with ⟨s, ux, px⟩ | ⟨s, m, d, hm, ux, px, -⟩
  · rcases hy.cases with ⟨s', uy, py⟩ | ⟨s', n, e, hn, uy, py, -⟩
    · rw [ux, uy, px, py, sub_zero]
      cases s <;> cases s' <;> exact rounds_zero _
    · have negated : -y = .ofModel (.pack (.finite (-s') n e hn)) := by
        change Float.ofModel (.pack (UnpackedFloat.neg _)) = _
        rw [uy]
        rfl
      have number : IsNumber (-y) := by
        obtain ⟨_, _, _, reading⟩ := hy
        simp [IsNumber, read_neg, reading]
      have rounds := Rounds.refl number
      rw [place_neg, negated] at rounds
      rwa [ux, uy, px, zero_sub]
  · rcases hy.cases with ⟨s', uy, py⟩ | ⟨s', n, e, hn, uy, py, -⟩
    · have same := rounds_repack hx
      rw [ux] at same
      rwa [ux, uy, py, sub_zero]
    · rw [ux, uy, px, py, ← place_aligned s m (min_le_left d e),
        ← place_aligned s' n (min_le_right d e), ← sub_mul, ← Int.cast_sub]
      exact rounds_normalize

/-! ## Products -/

theorem rounds_mul (hx : IsFinite x) (hy : IsFinite y) : Rounds (place x * place y) (x * y) := by
  change Rounds _ (.ofModel (.pack (UnpackedFloat.mul Format.binary64 _ _)))
  rcases hx.cases with ⟨s, ux, px⟩ | ⟨s, m, d, hm, ux, px, cx⟩
  · rcases hy.cases with ⟨s', uy, py⟩ | ⟨s', n, e, hn, uy, py, -⟩ <;>
    · rw [ux, uy, px, zero_mul]
      exact rounds_zero _
  · rcases hy.cases with ⟨s', uy, py⟩ | ⟨s', n, e, hn, uy, py, cy⟩
    · rw [ux, uy, py, mul_zero]
      exact rounds_zero _
    · have exact : place x * place y = signum (isNegative (s * s')) * ((m * n : ℕ) * 2 ^ (d + e)) := by
        rw [px, py, signum_mul, zpow_add₀ (by norm_num), unpackedPlace, unpackedPlace, Reading.place, Reading.place]
        push_cast
        ring
      rw [ux, uy, exact]
      refine rounds_roundWithAccuracy ?_ ?_
      · rw [mul_div_cancel_right₀ _ (two_zpow_pos _).ne']
        exact marks_exact _
      · -- Only the least exponent comes with few bits, and two of it are low enough.
        obtain ⟨-, leastD, normalD⟩ := cx
        obtain ⟨-, leastE, normalE⟩ := cy
        have pos : m * n ≠ 0 := (Nat.mul_pos hm hn).ne'
        rcases normalD with rfl | full
        · rcases normalE with rfl | full
          · omega
          · have bits : 52 ≤ (m * n).log2 := (Nat.le_log2 pos).2 (full.trans (Nat.le_mul_of_pos_left n hm))
            omega
        · have bits : 52 ≤ (m * n).log2 := (Nat.le_log2 pos).2 (full.trans (Nat.le_mul_of_pos_right m hn))
          omega

/-! ## Quotients -/

/-- A fraction of a unit is marked by comparing it with a half. -/
theorem marks_fraction {q num den : ℕ} (less : num < den) :
    Marks (.ofMantissaAndAccuracy q (accuracyOfFraction num den)) (q + num / den) := by
  have pos : (0 : ℝ) < den := by exact_mod_cast Nat.zero_lt_of_lt less
  unfold accuracyOfFraction
  split
  · rename_i none
    simpa [none] using marks_exact q
  · rename_i some
    have some' : (0 : ℝ) < num := by exact_mod_cast Nat.pos_of_ne_zero some
    have less' : (num : ℝ) < den := by exact_mod_cast less
    have positive : (0 : ℝ) < num / den := by positivity
    have whole : (num : ℝ) / den < 1 := (div_lt_one pos).2 less'
    rcases lt_trichotomy (2 * num) den with below | half | above
    · have below' : (2 : ℝ) * num < den := by exact_mod_cast below
      have side : (num : ℝ) / den < 1 / 2 := by
        rw [div_lt_div_iff₀ pos (by norm_num)]
        linarith
      rw [compare_lt_iff_lt.2 below]
      exact marks_low (by linarith) (by linarith)
    · have half' : (2 : ℝ) * num = den := by exact_mod_cast half
      have side : (num : ℝ) / den = 1 / 2 := by
        rw [div_eq_div_iff pos.ne' (by norm_num)]
        linarith
      rw [compare_eq_iff_eq.2 half, side]
      exact marks_half q
    · have above' : (den : ℝ) < 2 * num := by exact_mod_cast above
      have side : 1 / 2 < (num : ℝ) / den := by
        rw [div_lt_div_iff₀ (by norm_num) pos]
        linarith
      rw [compare_gt_iff_gt.2 above]
      exact marks_high (by linarith) (by linarith)

/-- A quotient keeps enough bits of the dividend. -/
theorem log2_div_ge {m n k : ℕ} (hm : 0 < m) (hn : 0 < n) (enough : 53 + n.log2 ≤ m.log2 + k) :
    52 ≤ ((m <<< k) / n).log2 := by
  have size : 2 ^ 52 ≤ (m <<< k) / n := by
    rw [Nat.le_div_iff_mul_le hn, Nat.shiftLeft_eq]
    calc 2 ^ 52 * n ≤ 2 ^ 52 * 2 ^ (n.log2 + 1) := Nat.mul_le_mul_left _ Nat.lt_log2_self.le
      _ = 2 ^ (53 + n.log2) := by
          rw [← pow_add]
          congr 1
          omega
      _ ≤ 2 ^ (m.log2 + k) := Nat.pow_le_pow_right (by norm_num) enough
      _ = 2 ^ m.log2 * 2 ^ k := pow_add _ _ _
      _ ≤ m * 2 ^ k := Nat.mul_le_mul_right _ (Nat.log2_self_le hm.ne')
  exact (Nat.le_log2 (by omega)).2 size

theorem rounds_div (hx : IsFinite x) (hy : IsFinite y) (nonzero : place y ≠ 0) :
    Rounds (place x / place y) (x / y) := by
  change Rounds _ (.ofModel (.pack (UnpackedFloat.div Format.binary64 _ _)))
  rcases hy.cases with ⟨s', uy, py⟩ | ⟨s', n, e, hn, uy, py, -⟩
  · exact absurd py nonzero
  · rcases hx.cases with ⟨s, ux, px⟩ | ⟨s, m, d, hm, ux, px, -⟩
    · rw [ux, uy, px, zero_div]
      exact rounds_zero _
    · have exact : place x / place y =
          signum (isNegative (s / s')) * (m * 2 ^ d / (n * 2 ^ e)) := by
        rw [px, py, signum_div, unpackedPlace, unpackedPlace, Reading.place, Reading.place, mul_div_mul_comm]
      obtain ⟨t, target⟩ : ∃ t, t = min (d - e) (max (Float.Model.totalExponent m d -
        Float.Model.totalExponent n e - 53) (-1074)) := ⟨_, rfl⟩
      obtain ⟨k, places⟩ : ∃ k, k = (d - e - t).toNat := ⟨_, rfl⟩
      rw [ux, uy, exact]
      simp only [UnpackedFloat.div, divCore, targetExponent_binary64, ← target, ← places]
      refine rounds_roundWithAccuracy ?_ ?_
      · have scaled : (m : ℝ) * 2 ^ d / (n * 2 ^ e) / 2 ^ t = (m <<< k : ℕ) / n := by
          have shift : (2 : ℝ) ^ d = 2 ^ k * 2 ^ e * 2 ^ t := by
            rw [← zpow_natCast, ← zpow_add₀ (by norm_num), ← zpow_add₀ (by norm_num)]
            congr 1
            omega
          rw [shift, Nat.shiftLeft_eq]
          have unit := two_zpow_pos t
          have unit' := two_zpow_pos e
          have pos : (0 : ℝ) < n := by exact_mod_cast hn
          push_cast
          field_simp
        have parts : ((m <<< k : ℕ) : ℝ) / n =
            ((m <<< k) / n : ℕ) + ((m <<< k) % n : ℕ) / n := by
          have pos : (0 : ℝ) < n := by exact_mod_cast hn
          have whole : (n : ℝ) * ((m <<< k) / n : ℕ) + ((m <<< k) % n : ℕ) = (m <<< k : ℕ) := by
            exact_mod_cast Nat.div_add_mod (m <<< k) n
          rw [← whole]
          field_simp
        rw [scaled, parts]
        exact marks_fraction (Nat.mod_lt _ hn)
      · by_cases low : t ≤ -1074
        · exact low.trans (le_max_right _ _)
        · have enough : 53 + n.log2 ≤ m.log2 + k := by
            simp only [Float.Model.totalExponent] at target
            omega
          have bits := log2_div_ge hm hn enough
          omega

theorem rounds_half (h : IsFinite x) : Rounds (place x / 2) (x / 2) := by
  have quotient := rounds_div h isFinite_two (by norm_num)
  rwa [place_two] at quotient

/-! ## Roots -/

/-- The root of a number is marked by what is left of it. -/
theorem marks_sqrt (m : ℕ) :
    Marks (.ofMantissaAndAccuracy m.sqrt (if m - m.sqrt * m.sqrt = 0 then .exact
      else .inexact (if m - m.sqrt * m.sqrt ≤ m.sqrt then .lt else .gt))) (√m) := by
  have low := Nat.sqrt_le m
  have high := Nat.lt_succ_sqrt m
  generalize m.sqrt = r at low high
  rw [Nat.succ_eq_add_one] at high
  have pos : (0 : ℝ) ≤ r := by positivity
  split
  · rename_i none
    have square : (m : ℝ) = r * r := by exact_mod_cast (show m = r * r by omega)
    rw [square, Real.sqrt_mul_self pos]
    exact marks_exact r
  · rename_i some
    have low' : (r : ℝ) * r < m := by exact_mod_cast (show r * r < m by omega)
    have high' : (m : ℝ) < (r + 1) * (r + 1) := by exact_mod_cast high
    split
    · rename_i below
      have side : (m : ℝ) ≤ r * r + r := by exact_mod_cast (show m ≤ r * r + r by omega)
      refine marks_low ?_ ?_
      · exact Real.lt_sqrt_of_sq_lt (by nlinarith)
      · rw [Real.sqrt_lt' (by linarith)]
        nlinarith
    · rename_i above
      have side : (r : ℝ) * r + r + 1 ≤ m := by
        exact_mod_cast (show r * r + r + 1 ≤ m by omega)
      refine marks_high ?_ ?_
      · exact Real.lt_sqrt_of_sq_lt (by nlinarith)
      · rw [Real.sqrt_lt' (by linarith)]
        nlinarith

theorem rounds_sqrt (hx : IsFinite x) (nonneg : 0 ≤ place x) : Rounds (√(place x)) x.sqrt := by
  change Rounds _ (.ofModel (.pack (UnpackedFloat.sqrt Format.binary64 _)))
  rcases hx.cases with ⟨s, ux, px⟩ | ⟨s, m, d, hm, ux, px, -⟩
  · rw [ux, px, Real.sqrt_zero]
    exact rounds_zero _
  · have size : (0 : ℝ) < m * 2 ^ d := by positivity
    cases s with
    | negative =>
      rw [px] at nonneg
      simp [unpackedPlace, Reading.place, isNegative] at nonneg
      linarith
    | positive =>
      have exact : √(place x) = signum (isNegative .positive) * √(m * 2 ^ d) := by
        simp [px, unpackedPlace, Reading.place, isNegative]
      obtain ⟨t, target⟩ : ∃ t, t = min (d.ediv 2)
        (max ((Float.Model.totalExponent m d + 1).ediv 2 - 53) (-1074)) := ⟨_, rfl⟩
      obtain ⟨k, places⟩ : ∃ k, k = (d - 2 * t).toNat := ⟨_, rfl⟩
      have lower : 2 * t ≤ d := by
        have half : t ≤ d / 2 := by
          rw [target]
          exact min_le_left _ _
        omega
      rw [ux, exact]
      simp only [UnpackedFloat.sqrt, sqrtCore, targetExponent_binary64, ← target, ← places]
      refine rounds_roundWithAccuracy ?_ ?_
      · have scaled : √((m : ℝ) * 2 ^ d) / 2 ^ t = √((m <<< k : ℕ)) := by
          have shift : (2 : ℝ) ^ d = 2 ^ k * (2 ^ t * 2 ^ t) := by
            rw [← zpow_natCast, ← zpow_add₀ (by norm_num), ← zpow_add₀ (by norm_num)]
            congr 1
            omega
          have unit := two_zpow_pos t
          rw [shift, ← mul_assoc, Real.sqrt_mul (by positivity), Real.sqrt_mul_self unit.le,
            mul_div_cancel_right₀ _ unit.ne', Nat.shiftLeft_eq]
          push_cast
          rfl
        rw [scaled]
        exact marks_sqrt _
      · by_cases low : t ≤ -1074
        · exact low.trans (le_max_right _ _)
        · have enough : 104 ≤ m.log2 + k := by
            simp only [Float.Model.totalExponent] at target
            have half : t ≤ max (((m.log2 : ℤ) + 1 + d + 1) / 2 - 53) (-1074) := by
              rw [target]
              exact min_le_right _ _
            omega
          have bits : 2 ^ 104 ≤ m <<< k := by
            have positive : 0 < m <<< k := by
              rw [Nat.shiftLeft_eq]
              positivity
            rw [← Nat.le_log2 positive.ne', log2_shiftLeft hm]
            exact enough
          have root : 2 ^ 52 ≤ (m <<< k).sqrt := Nat.le_sqrt.2 (by omega)
          have log : 52 ≤ (m <<< k).sqrt.log2 := (Nat.le_log2 (by omega)).2 root
          omega

/-! ## Infinities -/

theorem unpack_infinite {negative : Bool} (h : read x = .infinite negative) :
    ∃ s, x.toModel.unpack = .infinity s ∧ isNegative s = negative := by
  rw [read_eq_ofUnpacked] at h
  cases unpacked : x.toModel.unpack <;> simp [unpacked, Reading.ofUnpacked] at h
  exact ⟨_, rfl, h⟩

theorem read_infinity (s : Sign) : read (.ofModel (.pack (.infinity s))) = .infinite (isNegative s) :=
  read_ofModel_pack (u := .infinity s) trivial

theorem read_eq_infinite (number : IsNumber x) (at_ : place x = limit) :
    read x = .infinite false := by
  cases reading : read x with
  | nan => exact absurd reading number
  | finite n s e =>
    have less := (show IsFinite x from ⟨n, s, e, reading⟩).abs_place_lt
    rw [at_, abs_of_pos limit_pos] at less
    exact absurd less (lt_irrefl _)
  | infinite negative =>
    rw [place, reading] at at_
    cases negative with
    | false => rfl
    | true =>
      have pos := limit_pos
      simp only [Reading.place, signum_true, neg_one_mul] at at_
      linarith

theorem place_infinite (hx : read x = .infinite false) : IsNumber x ∧ place x = limit := by
  rw [IsNumber, place, hx, Reading.place, signum_false, one_mul]
  exact ⟨by simp, rfl⟩

/-- A double with a positive place is a positive finite one or infinite. -/
theorem unpack_of_pos (number : IsNumber x) (pos : 0 < place x) :
    x.toModel.unpack = .infinity .positive ∨
      ∃ m e positive, x.toModel.unpack = .finite .positive m e positive := by
  rw [IsNumber, read_eq_ofUnpacked] at number
  rw [place, read_eq_ofUnpacked] at pos
  cases unpacked : x.toModel.unpack with
  | notANumber => simp [unpacked, Reading.ofUnpacked] at number
  | zero s => simp [unpacked, Reading.ofUnpacked, Reading.place] at pos
  | infinity s =>
    cases s with
    | positive => exact .inl rfl
    | negative =>
      have top := limit_pos
      simp only [unpacked, Reading.ofUnpacked, Reading.place, isNegative, signum_true,
        neg_one_mul] at pos
      linarith
  | finite s m e positive =>
    cases s with
    | positive => exact .inr ⟨m, e, positive, rfl⟩
    | negative =>
      have size : (0 : ℝ) ≤ m * 2 ^ e := by positivity
      simp only [unpacked, Reading.ofUnpacked, Reading.place, isNegative, signum_true,
        neg_one_mul] at pos
      linarith

theorem mul_infinite {n : Bool} (number : IsNumber x) (pos : 0 < place x)
    (hy : read y = .infinite n) : read (x * y) = .infinite n := by
  change read (.ofModel (.pack (UnpackedFloat.mul Format.binary64 _ _))) = _
  obtain ⟨s, uy, rfl⟩ := unpack_infinite hy
  rcases unpack_of_pos number pos with ux | ⟨m, e, positive, ux⟩ <;> rw [ux, uy] <;> cases s
  all_goals exact read_infinity _

theorem add_infinite (number : IsNumber x) (pos : 0 < place x) (hy : read y = .infinite false) :
    read (x + y) = .infinite false := by
  change read (.ofModel (.pack (UnpackedFloat.add Format.binary64 _ _))) = _
  obtain ⟨s, uy, sign⟩ := unpack_infinite hy
  cases s with
  | negative => simp [isNegative] at sign
  | positive =>
    rcases unpack_of_pos number pos with ux | ⟨m, e, positive, ux⟩ <;> rw [ux, uy]
    · exact read_infinity _
    · exact read_infinity _

theorem div_infinite (hx : read x = .infinite false) (hy : IsFinite y) (pos : 0 < place y) :
    read (x / y) = .infinite false := by
  change read (.ofModel (.pack (UnpackedFloat.div Format.binary64 _ _))) = _
  obtain ⟨s, ux, sign⟩ := unpack_infinite hx
  cases s with
  | negative => simp [isNegative] at sign
  | positive =>
    rcases unpack_of_pos hy.isNumber pos with uy | ⟨m, e, positive, uy⟩
    · obtain ⟨n, s, e, reading⟩ := hy
      simp [read_eq_ofUnpacked, uy, Reading.ofUnpacked] at reading
    · rw [ux, uy]
      exact read_infinity _

theorem sqrt_infinite (hx : read x = .infinite false) : read x.sqrt = .infinite false := by
  change read (.ofModel (.pack (UnpackedFloat.sqrt Format.binary64 _))) = _
  obtain ⟨s, ux, sign⟩ := unpack_infinite hx
  cases s with
  | negative => simp [isNegative] at sign
  | positive =>
    rw [ux]
    exact read_infinity _

theorem place_one_mul (finite : IsFinite x) : IsFinite (1 * x) ∧ place (1 * x) = place x := by
  have product := rounds_mul isFinite_one finite
  rw [place_one, one_mul] at product
  have same := product.eq (grid_place x)
  refine ⟨product.isNumber.isFinite ?_, same⟩
  rw [same]
  exact finite.abs_place_lt

/-! ## No number -/

theorem unpack_of_nan (hx : ¬ IsNumber x) : x.toModel.unpack = .notANumber := by
  have reading := not_not.1 hx
  rw [read_eq_ofUnpacked] at reading
  cases ux : x.toModel.unpack with
  | notANumber => rfl
  | _ => simp [ux, Reading.ofUnpacked] at reading

theorem isNumber_of_div (h : IsNumber (x / y)) : IsNumber x := by
  by_contra nan
  refine h ?_
  change read (.ofModel (.pack (UnpackedFloat.div Format.binary64 _ _))) = _
  rw [unpack_of_nan nan]
  cases y.toModel.unpack <;> exact read_ofModel_pack (u := .notANumber) trivial

theorem isNumber_of_add (h : IsNumber (x + y)) : IsNumber x := by
  by_contra nan
  refine h ?_
  change read (.ofModel (.pack (UnpackedFloat.add Format.binary64 _ _))) = _
  rw [unpack_of_nan nan]
  cases y.toModel.unpack <;> exact read_ofModel_pack (u := .notANumber) trivial

theorem isNumber_of_mul (h : IsNumber (x * y)) : IsNumber y := by
  by_contra nan
  refine h ?_
  change read (.ofModel (.pack (UnpackedFloat.mul Format.binary64 _ _))) = _
  rw [unpack_of_nan nan]
  cases x.toModel.unpack <;> exact read_ofModel_pack (u := .notANumber) trivial

end PrivateQuery.Binary64
