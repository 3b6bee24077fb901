import PrivateQuery.Proofs.Privacy.Vanishing

/-!
# Scales that have a bound

`Ends` is the computation of the bound for discrete Gaussian noise as it goes on without a limit on
rounds. Its only way to have no end is a sum whose weights never vanish, and that is so exactly at the
positive scales whose squares are rounded to zero (`exists_ends_iff`). At all other scales the rounds
of `discreteGaussian` are enough, so it gives the bound if there is one (`ends_iff`).
-/
namespace PrivateQuery.Accuracy

open Binary64

/-- The computation of the bound at a scale ends with a bound. -/
inductive Ends (scale alpha : Float) : (bound : Float) → Prop where
  | zero (zero : (scale == 0) = true) : Ends scale alpha 0
  | wide (some : ¬ (scale == 0) = true) (wide : exactScale < scale) :
      Ends scale alpha (ceil (gaussian scale alpha))
  | summed (some : ¬ (scale == 0) = true) (narrow : ¬ exactScale < scale) {total : Float}
      {cutoff last : ℕ}
      (outward : Outward vanishing (weight (scale * scale)) (weight (scale * scale) 0) 1 total
        cutoff)
      (inward : Inward (alpha * total) (weight (scale * scale)) cutoff
        (total - weight (scale * scale) 0) 1 last) :
      Ends scale alpha (ofNat last)

/-- A positive scale whose square is rounded to zero. -/
def Underflows (scale : Float) : Prop := 0 < scale ∧ (scale * scale == 0) = true

instance Underflows.decidable (scale : Float) : Decidable (Underflows scale) :=
  inferInstanceAs (Decidable (_ ∧ _))

variable {scale alpha bound bound' : Float}

theorem underflows_iff (scaled : isScale scale = true) :
    Underflows scale ↔ 0 < place scale ∧ place (scale * scale) = 0 := by
  obtain ⟨finite, -⟩ := isScale_iff.1 scaled
  rw [Underflows, lt_iff, place_zero, beq_zero_iff (rounds_mul finite finite).isNumber]
  exact and_congr_left fun _ => ⟨fun h => h.2.2, fun pos =>
    ⟨isFinite_zero.isNumber, finite.isNumber, pos⟩⟩

theorem Ends.unique (ends : Ends scale alpha bound) (other : Ends scale alpha bound') :
    bound = bound' := by
  cases ends with
  | zero zero =>
    cases other with
    | zero => rfl
    | wide some => exact absurd zero some
    | summed some => exact absurd zero some
  | wide some wide =>
    cases other with
    | zero zero => exact absurd zero some
    | wide => rfl
    | summed some narrow => exact absurd wide narrow
  | summed some narrow outward inward =>
    cases other with
    | zero zero => exact absurd zero some
    | wide some wide => exact absurd wide narrow
    | summed some narrow outward' inward' =>
      obtain ⟨rfl, rfl⟩ := outward.unique outward'
      rw [inward.unique inward']

theorem ends_of_discreteGaussian (h : discreteGaussian scale alpha = some bound) :
    Ends scale alpha bound := by
  unfold discreteGaussian at h
  split_ifs at h with zero wide
  · obtain rfl := Option.some.inj h
    exact .zero zero
  · obtain rfl := Option.some.inj h
    exact .wide zero wide
  · obtain ⟨last, tail, rfl⟩ := Option.map_eq_some_iff.1 h
    obtain ⟨⟨total, cutoff⟩, ended, rfl⟩ := Option.map_eq_some_iff.1 tail
    have outward := exists_sumOutward_iff.1 ⟨_, ended⟩
    exact .summed zero wide outward ((inward_iff outward.le).2 rfl)

/-- At scales that do not underflow a bound is given. -/
theorem discreteGaussian_isSome (scaled : isScale scale = true) (keeps : ¬ Underflows scale) :
    (discreteGaussian scale alpha).isSome = true := by
  obtain ⟨finite, nonneg⟩ := isScale_iff.1 scaled
  unfold discreteGaussian
  split_ifs with zero narrow
  · rfl
  · rfl
  · have pos : 0 < place scale :=
      nonneg.lt_of_ne fun none => zero ((beq_zero_iff finite.isNumber).2 none.symm)
    have square := (rounds_mul finite finite).nonneg (mul_self_nonneg _)
    have some : 0 < place (scale * scale) :=
      square.lt_of_ne fun none => keeps ((underflows_iff scaled).2 ⟨pos, none.symm⟩)
    rw [Option.isSome_map, tailBound, Option.isSome_map]
    exact sum_ends scaled narrow some

/-- At scales that underflow the computation has no end. -/
theorem not_ends_of_underflows (scaled : isScale scale = true) (underflows : Underflows scale) :
    ¬ Ends scale alpha bound := by
  obtain ⟨finite, nonneg⟩ := isScale_iff.1 scaled
  obtain ⟨pos, none⟩ := (underflows_iff scaled).1 underflows
  intro ends
  cases ends with
  | zero zero => exact pos.ne' ((beq_zero_iff finite.isNumber).1 zero)
  | wide some wide =>
    obtain ⟨-, -, above⟩ := lt_iff.1 wide
    have small := lt_of_square_zero scaled none
    have tiny : (2 : ℝ) ^ (-537 : ℤ) ≤ 1 := zpow_le_one_of_nonpos₀ (by norm_num) (by norm_num)
    rw [exactScale_spec.2] at above
    linarith
  | summed some narrow outward inward =>
    have square := rounds_mul finite finite
    refine not_outward_of_zero (square.isNumber.isFinite ?_) none outward
    rw [none, abs_zero]
    exact limit_pos

/-- **`exists_ends_iff`**: the computation of the bound ends at exactly the scales that do not
underflow. -/
theorem exists_ends_iff (scaled : isScale scale = true) :
    (∃ bound, Ends scale alpha bound) ↔ ¬ Underflows scale := by
  constructor
  · rintro ⟨bound, ends⟩ underflows
    exact not_ends_of_underflows scaled underflows ends
  · intro keeps
    obtain ⟨bound, found⟩ := Option.isSome_iff_exists.1 (discreteGaussian_isSome scaled keeps)
    exact ⟨bound, ends_of_discreteGaussian found⟩

/-- **`ends_iff`**: and then its end is the bound that is given. -/
theorem ends_iff (scaled : isScale scale = true) :
    Ends scale alpha bound ↔ discreteGaussian scale alpha = some bound := by
  refine ⟨fun ends => ?_, ends_of_discreteGaussian⟩
  have keeps := (exists_ends_iff scaled).1 ⟨bound, ends⟩
  obtain ⟨given, found⟩ := Option.isSome_iff_exists.1 (discreteGaussian_isSome scaled keeps)
  rw [found, ends.unique (ends_of_discreteGaussian found)]

end PrivateQuery.Accuracy
