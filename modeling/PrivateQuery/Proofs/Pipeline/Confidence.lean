import PrivateQuery.Pipeline.Assembly
import PrivateQuery.Pipeline.Release
import PrivateQuery.Proofs.Outcome
import PrivateQuery.Proofs.Privacy.FiniteBounds
import PrivateQuery.Proofs.Query.Request

/-!
# Which confidences have an accuracy

A confidence between zero and one is accepted with a request, and what it leaves is checked again by
the library. Up to `2 ^ -54` it leaves all of the whole, which the library rejects. Every other
confidence has a bound if its computation ends. The bound is finite, short of huge scales, unless it
is a Gaussian quantile at the last confidence below one (`accuracy_of_confidence`). How quantiles are
approximated makes no difference to that (`IsQuantile`).
-/
namespace PrivateQuery

open Binary64 Accuracy PrivateQuery.Normal

variable {parameters : Parameters} {confidence : Float}

theorem isShare_of_confidence (accepted : isConfidence confidence = true) :
    IsShare (1 - confidence) := by
  obtain ⟨finite, pos, less⟩ := isConfidence_iff.1 accepted
  obtain ⟨finite', least, most⟩ := complement_bounds finite pos less
  exact ⟨finite', least, most⟩

/-- A confidence leaves the least share exactly if it is the last one. -/
theorem least_share_iff (accepted : isConfidence confidence = true) :
    place (1 - confidence) = 2 ^ (-53 : ℤ) ↔ 1 - 2 ^ (-53 : ℤ) ≤ place confidence := by
  obtain ⟨finite, -, less⟩ := isConfidence_iff.1 accepted
  refine ⟨fun least => ?_, complement_of_last finite less⟩
  by_contra! short
  have more := complement_ge (n := 1) finite (by norm_num) (by simpa using short)
  rw [least] at more
  norm_num at more

/-- The library rejects what a confidence leaves exactly if that is all of the whole. -/
theorem whole_share_iff (accepted : isConfidence confidence = true) :
    ¬ (0 < 1 - confidence ∧ 1 - confidence < 1) ↔ place confidence ≤ 2 ^ (-54 : ℤ) := by
  obtain ⟨finite, pos, less⟩ := isConfidence_iff.1 accepted
  have share := isShare_of_confidence accepted
  rw [← complement_eq_one_iff finite pos less, lt_iff, lt_iff, place_zero, place_one]
  constructor
  · intro rejected
    refine le_antisymm share.most (not_lt.1 fun short => rejected ?_)
    exact ⟨⟨isFinite_zero.isNumber, share.finite.isNumber, share.pos⟩, share.finite.isNumber,
      isFinite_one.isNumber, short⟩
  · rintro whole ⟨-, -, -, short⟩
    exact short.ne whole

namespace Pipeline

/-- The computation of the bound has no end. -/
def Stalls (p : Pipeline) : Prop :=
  p.mechanism = .gaussian ∧ p.discrete = true ∧ Underflows p.scale

/-- The bound is a Gaussian quantile, at the last confidence below one. -/
structure Unbounded (p : Pipeline) (confidence : Float) : Prop where
  gaussian : p.mechanism = .gaussian
  closed : p.discrete = true → exactScale < p.scale
  last : 1 - 2 ^ (-53 : ℤ) ≤ place confidence

variable {p : Pipeline} {quantile : Float → Float} {bound : Float}

theorem isFinite_scale (p : Pipeline) : IsFinite p.scale :=
  (isScale_iff.1 (p.measurement.noise.isScale_scale : isScale p.scale = true)).1

/-- A share that is not rejected is answered with the bound. -/
theorem accuracy_of_share (accepted : isConfidence confidence = true)
    (inside : 0 < 1 - confidence ∧ 1 - confidence < 1) :
    p.accuracy (.standardWith quantile parameters) confidence =
      (bound? quantile p.scale (1 - confidence) p.discrete p.mechanism).elim (.error .stalled)
        .ok := by
  have scaled : isScale p.scale = true := p.measurement.noise.isScale_scale
  rw [accuracy, if_pos accepted]
  change Attempt.mapError _
    (ofScaleWith quantile p.scale (1 - confidence) p.discrete p.mechanism) = _
  rw [ofScaleWith, if_neg (not_not.2 inside), if_neg (not_not.2 scaled)]
  cases bound? quantile p.scale (1 - confidence) p.discrete p.mechanism <;> rfl

theorem bound?_eq_none_iff {alpha : Float} :
    bound? quantile p.scale alpha p.discrete p.mechanism = none ↔ p.Stalls := by
  have scaled : isScale p.scale = true := p.measurement.noise.isScale_scale
  have given : discreteGaussianWith quantile p.scale alpha = none ↔ Underflows p.scale := by
    have ends : (∃ bound, Ends p.scale alpha bound) ↔ ¬ Underflows p.scale := exists_ends_iff scaled
    have same : discreteGaussianWith quantile p.scale alpha = none ↔
        discreteGaussian p.scale alpha = none := by
      rw [← discreteGaussianWith_quantile scaled, discreteGaussianWith, discreteGaussianWith]
      split_ifs <;> simp
    rw [same, ← not_iff_not, ← Ne, Option.ne_none_iff_exists', ← ends]
    exact exists_congr fun bound => (ends_iff scaled).symm
  rw [Stalls]
  cases p.discrete <;> cases p.mechanism <;> simp [bound?, given]

/-- What a bound is: a number and not negative, and at scales that are not huge finite but for a
Gaussian quantile at the last confidence. -/
structure Proper (p : Pipeline) (confidence bound : Float) : Prop where
  isNumber : IsNumber bound
  nonneg : 0 ≤ place bound
  isFinite_iff : place p.scale ≤ 2 ^ 960 → (IsFinite bound ↔ ¬ p.Unbounded confidence)

theorem proper_of_reasonable (reasonable : Reasonable p.scale bound)
    (bounded : ¬ p.Unbounded confidence) : p.Proper confidence bound :=
  ⟨reasonable.isNumber, reasonable.nonneg,
    fun small => iff_of_true (reasonable.isFinite small) bounded⟩

/-- No quantile bounds Laplace noise. -/
theorem not_unbounded_of_laplace (laplace : p.mechanism = .laplace) : ¬ p.Unbounded confidence :=
  fun unbounded => absurd (laplace.symm.trans unbounded.gaussian) (by decide)

/-- What is so of a quantile is so of the quantile rounded up. -/
theorem proper_gaussian (spec : IsQuantile quantile) (pos : 0 < place p.scale)
    (accepted : isConfidence confidence = true) (mechanism : p.mechanism = .gaussian)
    (wide : p.discrete = true → exactScale < p.scale) :
    p.Proper confidence (gaussianWith quantile p.scale (1 - confidence)) ∧
      p.Proper confidence (ceil (gaussianWith quantile p.scale (1 - confidence))) := by
  have finite := p.isFinite_scale
  have share := isShare_of_confidence accepted
  rcases share.least.lt_or_eq with more | least
  · have reasonable := gaussian_reasonable spec finite pos share more
    have bounded : ¬ p.Unbounded confidence :=
      fun unbounded => more.ne' ((least_share_iff accepted).2 unbounded.last)
    exact ⟨proper_of_reasonable reasonable bounded, proper_of_reasonable reasonable.ceil bounded⟩
  · obtain ⟨number, top⟩ := place_infinite (gaussian_of_least spec finite pos share least.symm)
    have nonneg : 0 ≤ place (gaussianWith quantile p.scale (1 - confidence)) := top ▸ limit_pos.le
    have infinite : ¬ IsFinite (gaussianWith quantile p.scale (1 - confidence)) :=
      fun finite => finite.place_lt.ne top
    have unbounded : p.Unbounded confidence :=
      ⟨mechanism, wide, (least_share_iff accepted).1 least.symm⟩
    obtain ⟨number', nonneg', same⟩ := ceil_bounds number nonneg
    exact ⟨⟨number, nonneg, fun _ => iff_of_false infinite (not_not.2 unbounded)⟩,
      ⟨number', nonneg', fun _ => iff_of_false (same.not.2 infinite) (not_not.2 unbounded)⟩⟩

theorem proper_bound? (spec : IsQuantile quantile) (pos : 0 < place p.scale)
    (accepted : isConfidence confidence = true)
    (found : bound? quantile p.scale (1 - confidence) p.discrete p.mechanism = some bound) :
    p.Proper confidence bound := by
  have finite := p.isFinite_scale
  have share := isShare_of_confidence accepted
  cases discrete : p.discrete <;> cases mechanism : p.mechanism <;>
    simp only [discrete, mechanism, bound?, discreteGaussianWith, Option.some.injEq] at found
  case false.laplace =>
    subst found
    exact proper_of_reasonable (laplace_reasonable finite pos share)
      (not_unbounded_of_laplace mechanism)
  case true.laplace =>
    subst found
    exact proper_of_reasonable (discreteLaplace_reasonable finite pos share)
      (not_unbounded_of_laplace mechanism)
  case false.gaussian =>
    subst found
    exact (proper_gaussian spec pos accepted mechanism (by simp [discrete])).1
  case true.gaussian =>
    by_cases wide : exactScale < p.scale
    · rw [if_pos wide, Option.some.injEq] at found
      subst found
      exact (proper_gaussian spec pos accepted mechanism fun _ => wide).2
    · rw [if_neg wide] at found
      obtain ⟨finite', nonneg⟩ := discreteGaussian_of_narrow finite pos wide found
      refine ⟨finite'.isNumber, nonneg, fun _ => iff_of_true finite' fun unbounded => ?_⟩
      exact wide (unbounded.closed discrete)

/-- **`accuracy_of_confidence`**: the library rejects what an accepted confidence leaves if the
confidence is at most `2 ^ -54`. For any other confidence the bound is given if its computation ends.
It is a number and not negative, and at scales up to `2 ^ 960` it is finite unless it is a Gaussian
quantile at the last confidence below one. For the quantiles of `Library.standard` see
`Normal.isQuantile_quantile` and `Library.standardWith_quantile`. -/
theorem accuracy_of_confidence (spec : IsQuantile quantile) (p : Pipeline) (pos : 0 < p.scale)
    (parameters : Parameters) (r : AccuracyRequest) :
    (place r.confidence ≤ 2 ^ (-54 : ℤ) →
      p.accuracy (.standardWith quantile parameters) r.confidence =
        Attempt.raise (.execution (.mechanism (.alpha r.alpha)))) ∧
    (2 ^ (-54 : ℤ) < place r.confidence →
      (p.Stalls →
        p.accuracy (.standardWith quantile parameters) r.confidence = .error .stalled) ∧
      (¬ p.Stalls → ∃ bound,
        p.accuracy (.standardWith quantile parameters) r.confidence = .ok bound ∧
          p.Proper r.confidence bound)) := by
  have accepted := r.isConfidence_confidence
  obtain ⟨-, -, above⟩ := lt_iff.1 pos
  rw [place_zero] at above
  refine ⟨fun small => ?_, fun more => ?_⟩
  · rw [accuracy, if_pos accepted]
    change Attempt.mapError _
      (ofScaleWith quantile p.scale (1 - r.confidence) p.discrete p.mechanism) = _
    rw [ofScaleWith, if_pos ((whole_share_iff accepted).2 small)]
    rfl
  · have inside : 0 < 1 - r.confidence ∧ 1 - r.confidence < 1 :=
      not_not.1 fun rejected => not_le.2 more ((whole_share_iff accepted).1 rejected)
    rw [accuracy_of_share accepted inside]
    refine ⟨fun stalls => ?_, fun ends => ?_⟩
    · rw [bound?_eq_none_iff.2 stalls]
      rfl
    · have given : bound? quantile p.scale (1 - r.confidence) p.discrete p.mechanism ≠ none :=
        fun absent => ends (bound?_eq_none_iff.1 absent)
      obtain ⟨bound, found⟩ := Option.ne_none_iff_exists'.1 given
      rw [found]
      exact ⟨bound, rfl, proper_bound? spec above accepted found⟩

/-- A sum of reals with Gaussian noise, at the confidence `0.95`. -/
theorem accuracy_of_confidence_sum :
    IsQuantile Normal.quantile ∧
      ∃ c p, compile (.standard .standard) .standard ⟨1, some 1e-5⟩ .approxDP
          ⟨[⟨"x", .double 0 10⟩], by decide⟩ [.sum ⟨"x", .gaussian⟩] = .ok c ∧
        c.pipeline = .ok p ∧ 0 < p.scale ∧
        ∃ bound, p.accuracy (.standard .standard) 0.95 = .ok bound ∧ IsFinite bound ∧
          0 ≤ place bound := by
  have summed : ((compile (.standard .standard) .standard ⟨1, some 1e-5⟩ .approxDP
      ⟨[⟨"x", .double 0 10⟩], by decide⟩ [.sum ⟨"x", .gaussian⟩]).toOption.bind fun c =>
        c.pipeline.toOption.map fun p =>
          decide (p.discrete = false ∧ 0 < p.scale ∧ p.scale ≤ Binary64.ofNat 64)) = some true := by
    decide +kernel
  obtain ⟨c, compiled, summed⟩ := Option.bind_eq_some_iff.1 summed
  obtain ⟨p, built, summed⟩ := Option.map_eq_some_iff.1 summed
  rw [toOption_eq_some] at compiled built
  obtain ⟨continuous, pos, small⟩ := of_decide_eq_true summed
  have confidence : (2 : ℝ) ^ (-54 : ℤ) < place 0.95 ∧ place 0.95 < 1 - 2 ^ (-53 : ℤ) := by
    have reading : read 0.95 = .finite false 8556839292003942 (-53) := by decide +kernel
    rw [place, reading, Reading.place]
    norm_num
  have scale : place p.scale ≤ 2 ^ 960 := by
    obtain ⟨-, exact⟩ := ofNat_of_small (n := 64) (by norm_num)
    obtain ⟨-, -, le⟩ := le_iff.1 small
    rw [exact] at le
    refine le.trans ?_
    calc ((64 : ℕ) : ℝ) = 2 ^ 6 := by norm_num
      _ ≤ 2 ^ 960 := pow_le_pow_right₀ one_le_two (by norm_num)
  obtain ⟨-, answered⟩ := accuracy_of_confidence isQuantile_quantile p pos .standard
    ⟨⟨⟨1, some 1e-5⟩, [.sum ⟨"x", .gaussian⟩], .approxDP, 0, [⟨"x", .double 0 10⟩]⟩, 0.95,
      by decide +kernel⟩
  obtain ⟨bound, found, proper⟩ := (answered confidence.1).2 fun stalls =>
    absurd (continuous.symm.trans stalls.2.1) (by decide)
  rw [Library.standardWith_quantile] at found
  exact ⟨isQuantile_quantile, c, p, compiled, built, pos, bound, found,
    (proper.isFinite_iff scale).2 fun unbounded => not_le.2 confidence.2 unbounded.last,
    proper.nonneg⟩

/-- As little as `1e-300` leaves all of the whole, and the count of ages has no bound there. -/
theorem small_confidence_rejected :
    isConfidence 1e-300 = true ∧
      ∃ c p, compile (.standard .standard) .standard ⟨1, none⟩ .pureDP
          ⟨[⟨"age", .int 0 100⟩], by decide⟩ [.count ⟨"age", .laplace⟩] = .ok c ∧
        c.pipeline = .ok p ∧ 0 < p.scale ∧
        p.accuracy (.standard .standard) 1e-300 =
          Attempt.raise (.execution (.mechanism (.alpha 1))) := by
  have accepted : isConfidence 1e-300 = true := by decide +kernel
  have counted : ((compile (.standard .standard) .standard ⟨1, none⟩ .pureDP
      ⟨[⟨"age", .int 0 100⟩], by decide⟩ [.count ⟨"age", .laplace⟩]).toOption.bind fun c =>
        c.pipeline.toOption.map fun p => decide (0 < p.scale)) = some true := by
    decide +kernel
  obtain ⟨c, compiled, counted⟩ := Option.bind_eq_some_iff.1 counted
  obtain ⟨p, built, counted⟩ := Option.map_eq_some_iff.1 counted
  rw [toOption_eq_some] at compiled built
  refine ⟨accepted, c, p, compiled, built, of_decide_eq_true counted, ?_⟩
  have whole : (1 : Float) - 1e-300 = 1 := by decide +kernel
  have rejected : ¬ ((0 : Float) < 1 ∧ (1 : Float) < 1) := by decide +kernel
  rw [accuracy, if_pos accepted, whole]
  change Attempt.mapError _ (ofScale p.scale 1 p.discrete p.mechanism) = _
  unfold ofScale
  rw [if_pos rejected]
  rfl

end Pipeline

end PrivateQuery
