import PrivateQuery.Proofs.Binary64.Reading

/-!
# Doubles in order

Every double but no number has a place on the real line: a finite one its exact value, an infinity
the power of two just beyond the finite ones. Doubles compare as their places do (`le_iff`, `lt_iff`,
`beq_iff`), also after their signs are dropped (`place_abs`) and when the larger or the smaller of
two is taken (`place_maximum`, `place_minimum`).
-/
namespace PrivateQuery.Binary64

open Float.Model (UnpackedFloat Format)
open Float.Model.UnpackedFloat (Sign)

noncomputable def signum (negative : Bool) : ℝ := if negative then -1 else 1

@[simp] theorem signum_true : signum true = -1 := rfl

@[simp] theorem signum_false : signum false = 1 := rfl

/-- The power of two just beyond the finite doubles. -/
noncomputable def limit : ℝ := 2 ^ (1024 : ℤ)

theorem limit_pos : 0 < limit := by
  unfold limit
  positivity

theorem limit_eq_pow : limit = 2 ^ 1024 := zpow_ofNat 2 1024

/-- Where a reading stands among the real numbers. -/
noncomputable def Reading.place : Reading → ℝ
  | .nan => 0
  | .infinite negative => signum negative * limit
  | .finite negative significand exponent => signum negative * (significand * 2 ^ exponent)

/-- Where a double stands among the real numbers. -/
noncomputable def place (x : Float) : ℝ := (read x).place

/-- The double is a number, or infinite. -/
def IsNumber (x : Float) : Prop := read x ≠ .nan

/-- The double is a number. -/
def IsFinite (x : Float) : Prop := ∃ negative significand exponent,
  read x = .finite negative significand exponent

theorem IsFinite.isNumber {x : Float} (h : IsFinite x) : IsNumber x := by
  obtain ⟨n, s, e, h⟩ := h
  simp [IsNumber, h]

theorem isNaN_eq_false_iff {x : Float} : x.isNaN = false ↔ IsNumber x := by
  rw [IsNumber, read_eq_ofUnpacked]
  change x.toModel.unpack.isNaN = false ↔ _
  cases x.toModel.unpack <;> simp [UnpackedFloat.isNaN, Reading.ofUnpacked]

theorem isFinite_iff {x : Float} : x.isFinite = true ↔ IsFinite x := by
  rw [IsFinite, read_eq_ofUnpacked]
  change x.toModel.unpack.isFinite = true ↔ _
  cases x.toModel.unpack <;> simp [UnpackedFloat.isFinite, Reading.ofUnpacked]

/-- The value of a number that is not infinite, as a rational. -/
def Reading.value? : Reading → Option ℚ
  | .finite negative significand exponent =>
    some ((if negative then -1 else 1) * (significand * 2 ^ exponent))
  | _ => none

/-- The exact value of a double, if it has one. -/
def value? (x : Float) : Option ℚ := (read x).value?

theorem value?_isSome_iff {x : Float} : (∃ q, value? x = some q) ↔ IsFinite x := by
  unfold value? IsFinite
  cases read x <;> simp [Reading.value?]

theorem place_of_value? {x : Float} {q : ℚ} (h : value? x = some q) : place x = q := by
  unfold value? at h
  unfold place
  cases reading : read x with
  | finite negative s e =>
    rw [reading, Reading.value?, Option.some.injEq] at h
    rw [← h, Reading.place]
    cases negative <;> simp
  | _ => simp [reading, Reading.value?] at h

/-! ## Literals -/

theorem isFinite_zero : IsFinite 0 := ⟨false, 0, -1074, by decide +kernel⟩

theorem isFinite_one : IsFinite 1 := ⟨false, 2 ^ 52, -52, by decide +kernel⟩

theorem isFinite_two : IsFinite 2 := ⟨false, 2 ^ 52, -51, by decide +kernel⟩

@[simp] theorem place_zero : place 0 = 0 := by
  have reading : read 0 = .finite false 0 (-1074) := by decide +kernel
  simp [place, reading, Reading.place]

@[simp] theorem place_one : place 1 = 1 := by
  have reading : read 1 = .finite false (2 ^ 52) (-52) := by decide +kernel
  norm_num [place, reading, Reading.place]

@[simp] theorem place_two : place 2 = 2 := by
  have reading : read 2 = .finite false (2 ^ 52) (-51) := by decide +kernel
  norm_num [place, reading, Reading.place]

/-! ## Magnitudes -/

theorem two_zpow_pos (e : ℤ) : (0 : ℝ) < 2 ^ e := by positivity

theorem magnitude_lt {m n : ℕ} {d e : ℤ} (small : m < 2 ^ 53) (least : -1074 ≤ d)
    (normal : e = -1074 ∨ 2 ^ 52 ≤ n) (less : d < e) : (m : ℝ) * 2 ^ d < n * 2 ^ e := by
  have full : (2 : ℝ) ^ 52 ≤ n := by exact_mod_cast normal.resolve_left (by omega)
  have below : (m : ℝ) < 2 ^ 53 := by exact_mod_cast small
  calc (m : ℝ) * 2 ^ d < 2 ^ 53 * 2 ^ d := by
        exact mul_lt_mul_of_pos_right below (two_zpow_pos d)
    _ = 2 ^ 52 * 2 ^ (d + 1) := by
        rw [zpow_add_one₀ (by norm_num)]
        ring
    _ ≤ 2 ^ 52 * 2 ^ e := by
        refine mul_le_mul_of_nonneg_left ?_ (by positivity)
        exact zpow_le_zpow_right₀ (by norm_num) (by omega)
    _ ≤ n * 2 ^ e := mul_le_mul_of_nonneg_right full (two_zpow_pos e).le

theorem magnitude_lt_limit {m : ℕ} {e : ℤ} (small : m < 2 ^ 53) (bound : e ≤ 971) :
    (m : ℝ) * 2 ^ e < limit := by
  have below : (m : ℝ) < 2 ^ (53 : ℤ) := by exact_mod_cast small
  calc (m : ℝ) * 2 ^ e < 2 ^ (53 : ℤ) * 2 ^ e := mul_lt_mul_of_pos_right below (two_zpow_pos e)
    _ = 2 ^ (53 + e) := (zpow_add₀ (by norm_num) 53 e).symm
    _ ≤ limit := zpow_le_zpow_right₀ (by norm_num) (by omega)

theorem abs_place_of_read {x : Float} {negative : Bool} {s : ℕ} {e : ℤ}
    (reading : read x = .finite negative s e) : |place x| = s * 2 ^ e := by
  have nonneg : (0 : ℝ) ≤ s * 2 ^ e := by positivity
  rw [place, reading, Reading.place]
  cases negative <;> simp [abs_of_nonneg nonneg]

/-- The place of a finite double is short of the infinite ones. -/
theorem IsFinite.abs_place_lt {x : Float} (h : IsFinite x) : |place x| < limit := by
  obtain ⟨negative, s, e, reading⟩ := h
  have canonical := canonical_read x
  have bounded := bounded_read x
  rw [reading] at canonical bounded
  rw [abs_place_of_read reading]
  exact magnitude_lt_limit canonical.1 bounded

theorem IsFinite.place_lt {x : Float} (h : IsFinite x) : place x < limit :=
  (le_abs_self _).trans_lt h.abs_place_lt

theorem IsNumber.isFinite {x : Float} (h : IsNumber x) (less : |place x| < limit) :
    IsFinite x := by
  rw [place] at less
  cases reading : read x with
  | nan => exact absurd reading h
  | finite negative s e => exact ⟨negative, s, e, reading⟩
  | infinite negative =>
    cases negative <;> simp [reading, Reading.place, abs_of_pos limit_pos] at less

theorem IsNumber.isFinite_of_le {x y : Float} (h : IsNumber x) (nonneg : 0 ≤ place x)
    (le : place x ≤ place y) (hy : IsFinite y) : IsFinite x := by
  refine h.isFinite ?_
  rw [abs_of_nonneg nonneg]
  exact le.trans_lt hy.place_lt

/-! ## Comparison -/

theorem compare_magnitude {m n : ℕ} {d e : ℤ} (hm : m < 2 ^ 53) (hn : n < 2 ^ 53)
    (hd : -1074 ≤ d ∧ (d = -1074 ∨ 2 ^ 52 ≤ m)) (he : -1074 ≤ e ∧ (e = -1074 ∨ 2 ^ 52 ≤ n)) :
    (compare d e).then (compare m n) = cmp ((m : ℝ) * 2 ^ d) (n * 2 ^ e) := by
  rcases lt_trichotomy d e with less | rfl | more
  · rw [compare_lt_iff_lt.2 less, Ordering.lt_then]
    exact ((cmp_eq_lt_iff _ _).2 (magnitude_lt hm hd.1 he.2 less)).symm
  · rw [compare_eq_iff_eq.2 rfl]
    rcases lt_trichotomy m n with less | rfl | more
    · rw [compare_lt_iff_lt.2 less]
      refine ((cmp_eq_lt_iff _ _).2 ?_).symm
      exact mul_lt_mul_of_pos_right (by exact_mod_cast less) (two_zpow_pos d)
    · simp
    · rw [compare_gt_iff_gt.2 more]
      refine ((cmp_eq_gt_iff _ _).2 ?_).symm
      exact mul_lt_mul_of_pos_right (by exact_mod_cast more) (two_zpow_pos d)
  · rw [compare_gt_iff_gt.2 more, Ordering.gt_then]
    exact ((cmp_eq_gt_iff _ _).2 (magnitude_lt hn he.1 hd.2 more)).symm

theorem place_infinity (s : Sign) :
    (Reading.ofUnpacked (.infinity s)).place = signum (isNegative s) * limit := rfl

theorem place_unpacked_zero (s : Sign) : (Reading.ofUnpacked (.zero s)).place = 0 := by
  simp [Reading.ofUnpacked, Reading.place]

theorem place_finite (s : Sign) (m : ℕ) (e : ℤ) (positive : 0 < m) :
    (Reading.ofUnpacked (.finite s m e positive)).place =
      signum (isNegative s) * (m * 2 ^ e) := rfl

@[simp] theorem signum_positive : signum (isNegative .positive) = 1 := rfl

@[simp] theorem signum_negative : signum (isNegative .negative) = -1 := rfl

theorem compare_ofUnpacked {u v : UnpackedFloat} (hu : Reading.ofUnpacked u ≠ .nan)
    (hv : Reading.ofUnpacked v ≠ .nan) (cu : (Reading.ofUnpacked u).Canonical)
    (bu : (Reading.ofUnpacked u).Bounded) (cv : (Reading.ofUnpacked v).Canonical)
    (bv : (Reading.ofUnpacked v).Bounded) :
    u.compare v = some (cmp (Reading.ofUnpacked u).place (Reading.ofUnpacked v).place) := by
  have top := limit_pos
  have lt {a b : ℝ} (h : a < b) : some Ordering.lt = some (cmp a b) := by
    rw [(cmp_eq_lt_iff _ _).2 h]
  have gt {a b : ℝ} (h : b < a) : some Ordering.gt = some (cmp a b) := by
    rw [(cmp_eq_gt_iff _ _).2 h]
  have eq {a b : ℝ} (h : a = b) : some Ordering.eq = some (cmp a b) := by
    rw [(cmp_eq_eq_iff _ _).2 h]
  have positive {m : ℕ} {e : ℤ} (hm : 0 < m) : (0 : ℝ) < m * 2 ^ e := by positivity
  cases u with
  | notANumber => exact absurd rfl hu
  | infinity s =>
    rw [place_infinity]
    cases v with
    | notANumber => exact absurd rfl hv
    | infinity s' =>
      rw [place_infinity]
      cases s <;> cases s' <;> simp only [signum_positive, signum_negative]
      · exact eq rfl
      · exact lt (by linarith)
      · exact gt (by linarith)
      · exact eq rfl
    | zero s' =>
      rw [place_unpacked_zero]
      cases s <;> simp only [signum_positive, signum_negative]
      · exact lt (by linarith)
      · exact gt (by linarith)
    | finite s' n e hn =>
      have less := magnitude_lt_limit cv.1 bv
      have pos := positive (e := e) hn
      rw [place_finite]
      cases s <;> cases s' <;> simp only [signum_positive, signum_negative]
      · exact lt (by linarith)
      · exact lt (by linarith)
      · exact gt (by linarith)
      · exact gt (by linarith)
  | zero s =>
    rw [place_unpacked_zero]
    cases v with
    | notANumber => exact absurd rfl hv
    | infinity s' =>
      rw [place_infinity]
      cases s' <;> simp only [signum_positive, signum_negative]
      · exact gt (by linarith)
      · exact lt (by linarith)
    | zero s' =>
      rw [place_unpacked_zero]
      exact eq rfl
    | finite s' n e hn =>
      have pos := positive (e := e) hn
      rw [place_finite]
      cases s' <;> simp only [signum_positive, signum_negative]
      · exact gt (by linarith)
      · exact lt (by linarith)
  | finite s m d hm =>
    have pos := positive (e := d) hm
    rw [place_finite]
    cases v with
    | notANumber => exact absurd rfl hv
    | infinity s' =>
      have less := magnitude_lt_limit cu.1 bu
      rw [place_infinity]
      cases s <;> cases s' <;> simp only [signum_positive, signum_negative]
      · exact gt (by linarith)
      · exact lt (by linarith)
      · exact gt (by linarith)
      · exact lt (by linarith)
    | zero s' =>
      rw [place_unpacked_zero]
      cases s <;> simp only [signum_positive, signum_negative]
      · exact lt (by linarith)
      · exact gt (by linarith)
    | finite s' n e hn =>
      have pos' := positive (e := e) hn
      have same := compare_magnitude cu.1 cv.1 cu.2 cv.2
      rw [place_finite]
      cases s <;> cases s' <;> simp only [signum_positive, signum_negative]
      · simp only [UnpackedFloat.compare, same, cmp_mul_neg_left (neg_one_lt_zero), cmp_swap]
      · exact lt (by linarith)
      · exact gt (by linarith)
      · simp only [UnpackedFloat.compare, same, one_mul]

/-! ## Order -/

section
variable {x y : Float}

theorem compare_eq (hx : IsNumber x) (hy : IsNumber y) :
    x.toModel.unpack.compare y.toModel.unpack = some (cmp (place x) (place y)) := by
  have cx := canonical_read x
  have bx := bounded_read x
  have cy := canonical_read y
  have bY := bounded_read y
  rw [IsNumber, read_eq_ofUnpacked] at hx hy
  rw [read_eq_ofUnpacked] at cx bx cy bY
  rw [place, place, read_eq_ofUnpacked, read_eq_ofUnpacked]
  exact compare_ofUnpacked hx hy cx bx cy bY

theorem isNumber_of_compare {o : Ordering}
    (h : x.toModel.unpack.compare y.toModel.unpack = some o) : IsNumber x ∧ IsNumber y := by
  rw [IsNumber, IsNumber, read_eq_ofUnpacked, read_eq_ofUnpacked]
  cases hx : x.toModel.unpack <;> cases hy : y.toModel.unpack <;>
    simp [hx, hy, UnpackedFloat.compare] at h <;> simp [Reading.ofUnpacked]

theorem le_iff : x ≤ y ↔ IsNumber x ∧ IsNumber y ∧ place x ≤ place y := by
  have unfolded : x ≤ y ↔ (x.toModel.unpack.compare y.toModel.unpack).any (·.isLE) = true := by
    change decide (Float.Model.le x.toModel y.toModel = true) = true ↔ _
    rw [decide_eq_true_iff]
    rfl
  rw [unfolded]
  constructor
  · intro h
    obtain ⟨o, found, le⟩ := Option.any_eq_true _ _ |>.1 h
    obtain ⟨hx, hy⟩ := isNumber_of_compare found
    rw [compare_eq hx hy, Option.some.injEq] at found
    refine ⟨hx, hy, not_lt.1 fun more => ?_⟩
    rw [← (cmp_eq_gt_iff _ _)] at more
    simp [← found, more] at le
  · rintro ⟨hx, hy, le⟩
    rw [compare_eq hx hy]
    rcases le.lt_or_eq with less | same
    · simp [(cmp_eq_lt_iff _ _).2 less]
    · simp [(cmp_eq_eq_iff _ _).2 same]

theorem lt_iff : x < y ↔ IsNumber x ∧ IsNumber y ∧ place x < place y := by
  have unfolded : x < y ↔ x.toModel.unpack.compare y.toModel.unpack = some .lt := by
    change decide (Float.Model.lt x.toModel y.toModel = true) = true ↔ _
    simp [Float.Model.lt, UnpackedFloat.lt]
  rw [unfolded]
  constructor
  · intro h
    obtain ⟨hx, hy⟩ := isNumber_of_compare h
    rw [compare_eq hx hy, Option.some.injEq, cmp_eq_lt_iff] at h
    exact ⟨hx, hy, h⟩
  · rintro ⟨hx, hy, less⟩
    rw [compare_eq hx hy, (cmp_eq_lt_iff _ _).2 less]

theorem beq_iff : (x == y) = true ↔ IsNumber x ∧ IsNumber y ∧ place x = place y := by
  have unfolded : (x == y) = true ↔ x.toModel.unpack.compare y.toModel.unpack = some .eq := by
    change Float.Model.beq x.toModel y.toModel = true ↔ _
    simp [Float.Model.beq, UnpackedFloat.beq]
  rw [unfolded]
  constructor
  · intro h
    obtain ⟨hx, hy⟩ := isNumber_of_compare h
    rw [compare_eq hx hy, Option.some.injEq, cmp_eq_eq_iff] at h
    exact ⟨hx, hy, h⟩
  · rintro ⟨hx, hy, same⟩
    rw [compare_eq hx hy, (cmp_eq_eq_iff _ _).2 same]

theorem beq_zero_iff (number : IsNumber x) : (x == 0) = true ↔ place x = 0 := by
  rw [beq_iff, place_zero]
  exact ⟨fun h => h.2.2, fun zero => ⟨number, isFinite_zero.isNumber, zero⟩⟩

theorem beq_zero_of_not_lt (nonneg : 0 ≤ x) (notPos : ¬ 0 < x) : (x == 0) = true := by
  obtain ⟨h0, hx, le⟩ := le_iff.1 nonneg
  refine beq_iff.2 ⟨hx, h0, le_antisymm (not_lt.1 fun less => notPos ?_) le⟩
  exact lt_iff.2 ⟨h0, hx, less⟩

/-! ## Signs and extremes -/

theorem read_neg (x : Float) : read (-x) = match read x with
    | .nan => .nan
    | .infinite n => .infinite (!n)
    | .finite n s e => .finite (!n) s e := by
  have canonical := canonical_read x
  have bounded := bounded_read x
  rw [read_eq_ofUnpacked x] at *
  change read (.ofModel (.pack x.toModel.unpack.neg)) = _
  cases h : x.toModel.unpack with
  | notANumber => rfl
  | infinity s => cases s <;> rfl
  | zero s => cases s <;> rfl
  | finite s m e hm =>
    rw [h] at canonical bounded
    cases s with
    | negative =>
      exact (read_ofModel_pack (u := .finite .positive m e hm) canonical).trans
        (packed_of_bounded (r := .finite false m e) bounded)
    | positive =>
      exact (read_ofModel_pack (u := .finite .negative m e hm) canonical).trans
        (packed_of_bounded (r := .finite true m e) bounded)

theorem read_abs (x : Float) : read x.abs = match read x with
    | .nan => .nan
    | .infinite _ => .infinite false
    | .finite _ s e => .finite false s e := by
  have canonical := canonical_read x
  have bounded := bounded_read x
  rw [read_eq_ofUnpacked x] at *
  change read (.ofModel (.pack x.toModel.unpack.abs)) = _
  cases h : x.toModel.unpack with
  | notANumber => rfl
  | infinity s => cases s <;> rfl
  | zero s => cases s <;> rfl
  | finite s m e hm =>
    rw [h] at canonical bounded
    exact (read_ofModel_pack (u := .finite .positive m e hm) canonical).trans
      (packed_of_bounded (r := .finite false m e) bounded)

theorem isNumber_neg : IsNumber (-x) ↔ IsNumber x := by
  rw [IsNumber, IsNumber, read_neg]
  cases read x <;> simp

theorem isNumber_abs : IsNumber x.abs ↔ IsNumber x := by
  rw [IsNumber, IsNumber, read_abs]
  cases read x <;> simp

theorem place_neg : place (-x) = -place x := by
  rw [place, place, read_neg]
  cases read x with
  | nan => simp [Reading.place]
  | infinite n => cases n <;> simp [Reading.place]
  | finite n s e => cases n <;> simp [Reading.place]

theorem IsFinite.neg (h : IsFinite x) : IsFinite (-x) := by
  refine (isNumber_neg.2 h.isNumber).isFinite ?_
  rw [place_neg, abs_neg]
  exact h.abs_place_lt

theorem place_abs : place x.abs = |place x| := by
  rw [place, place, read_abs]
  cases read x with
  | nan => simp [Reading.place]
  | infinite n => cases n <;> simp [Reading.place, abs_of_pos limit_pos]
  | finite n s e =>
    have nonneg : (0 : ℝ) ≤ s * 2 ^ e := by positivity
    cases n <;> simp [Reading.place]

/-- No number gives way, so the larger of two doubles is a number if one of them is. -/
theorem isNumber_maximum : IsNumber (maximum x y) ↔ IsNumber x ∨ IsNumber y := by
  unfold maximum
  split_ifs with nan less
  · have : ¬ IsNumber x := fun h => Bool.false_ne_true ((isNaN_eq_false_iff.2 h).symm.trans nan)
    simp [this]
  · simp [(lt_iff.1 less).1, (lt_iff.1 less).2.1]
  · have : IsNumber x := isNaN_eq_false_iff.1 (by simpa using nan)
    simp [this]

theorem isNumber_minimum : IsNumber (minimum x y) ↔ IsNumber x ∨ IsNumber y := by
  unfold minimum
  split_ifs with nan less
  · have : ¬ IsNumber x := fun h => Bool.false_ne_true ((isNaN_eq_false_iff.2 h).symm.trans nan)
    simp [this]
  · simp [(lt_iff.1 less).1, (lt_iff.1 less).2.1]
  · have : IsNumber x := isNaN_eq_false_iff.1 (by simpa using nan)
    simp [this]

theorem maximum_of_not_isNumber (hx : ¬ IsNumber x) : maximum x y = y := by
  rw [maximum, if_pos]
  exact Bool.of_not_eq_false fun h => hx (isNaN_eq_false_iff.1 h)

theorem place_maximum (hx : IsNumber x) (hy : IsNumber y) :
    place (maximum x y) = max (place x) (place y) := by
  rw [maximum, isNaN_eq_false_iff.2 hx, if_neg Bool.false_ne_true]
  split_ifs with less
  · rw [max_eq_right (lt_iff.1 less).2.2.le]
  · rw [max_eq_left (not_lt.1 fun h => less (lt_iff.2 ⟨hx, hy, h⟩))]

/-- No number stands at zero, so the larger of two sizes need not be told of them. -/
theorem place_maximum_abs (x y : Float) : place (maximum x.abs y.abs) = max |place x| |place y| := by
  have absent {x : Float} (h : ¬ IsNumber x.abs) : |place x| = 0 := by
    rw [← place_abs, place, not_not.1 h, Reading.place]
  by_cases hx : IsNumber x.abs
  · by_cases hy : IsNumber y.abs
    · rw [place_maximum hx hy, place_abs, place_abs]
    · rw [maximum, isNaN_eq_false_iff.2 hx, if_neg Bool.false_ne_true,
        if_neg fun less => hy (lt_iff.1 less).2.1, place_abs, absent hy, max_eq_left (abs_nonneg _)]
  · rw [maximum_of_not_isNumber hx, place_abs, absent hx, max_eq_right (abs_nonneg _)]

theorem place_minimum (hx : IsNumber x) (hy : IsNumber y) :
    place (minimum x y) = min (place x) (place y) := by
  rw [minimum, isNaN_eq_false_iff.2 hx, if_neg Bool.false_ne_true]
  split_ifs with less
  · rw [min_eq_right (lt_iff.1 less).2.2.le]
  · rw [min_eq_left (not_lt.1 fun h => less (lt_iff.2 ⟨hy, hx, h⟩))]

end

end PrivateQuery.Binary64
