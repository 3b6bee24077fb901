import PrivateQuery.Proofs.Binary64.Arithmetic
import PrivateQuery.Proofs.Privacy.Search

/-!
# What the search reaches

Over the doubles every scale that the search tests is one that noise can have, finite and not
negative, down to a half that underflows to zero (`tested_isScale`): doubling goes on only while it
is finite, a half is below its whole, and a middle is between its ends, which are in order. So with
a test that answers on such scales the search fails only for want of a scale or of steps
(`search_fails`). With the standard number of steps raising goes through all the powers of two that
are finite doubles: the search succeeds if the test accepts the last of them (`search_reaches`), and
there is no finite scale for it if the test refuses them all (`search_exhausts`).
-/
namespace PrivateQuery

open Binary64

theorem isScale_iff {x : Float} : isScale x = true ↔ IsFinite x ∧ 0 ≤ place x := by
  rw [isScale, Bool.and_eq_true, isFinite_iff, decide_eq_true_eq, le_iff, place_zero]
  exact ⟨fun h => ⟨h.1, h.2.2.2⟩, fun h => ⟨h.1, isFinite_zero.isNumber, h.1.isNumber, h.2⟩⟩

theorem isScale_of_le {x y : Float} (number : IsNumber x) (nonneg : 0 ≤ place x)
    (le : place x ≤ place y) (hy : isScale y = true) : isScale x = true := by
  obtain ⟨finite, nonneg'⟩ := isScale_iff.1 hy
  exact isScale_iff.2 ⟨number.isFinite_of_le nonneg le finite, nonneg⟩

/-! ## Doubles and halves -/

theorem isScale_double {x : Float} (h : isScale x = true) (finite : (x + x).isFinite = true) :
    isScale (x + x) = true := by
  obtain ⟨finiteX, nonneg⟩ := isScale_iff.1 h
  have sum := rounds_add finiteX finiteX
  exact isScale_iff.2 ⟨isFinite_iff.1 finite, sum.nonneg (add_nonneg nonneg nonneg)⟩

theorem isScale_half {x : Float} (h : isScale x = true) :
    isScale (x / 2) = true ∧ place (x / 2) ≤ place x := by
  obtain ⟨finite, nonneg⟩ := isScale_iff.1 h
  have half := rounds_half finite
  have below := half.le (grid_place x) (by linarith)
  exact ⟨isScale_of_le half.isNumber (half.nonneg (by linarith)) below h, below⟩

theorem half_difference_le {d h : Float} {q : ℝ} (nonneg : 0 ≤ q)
    (multiple : ∃ k : ℤ, q = k * 2 ^ (-1074 : ℤ)) (hd : Rounds q d) (hh : Rounds (place d / 2) h) :
    place h ≤ q := by
  have nonneg' := hd.nonneg nonneg
  rcases le_or_gt q (2 ^ (-1021 : ℤ)) with near | far
  · -- The difference is exact.
    obtain ⟨k, rfl⟩ := multiple
    have grid : Grid (k * 2 ^ (-1074 : ℤ)) :=
      grid_of_multiple (by rwa [abs_of_nonneg nonneg])
    have same := hd.eq grid
    exact hh.le grid (by linarith)
  · -- The half is exact.
    have away := hd.ge (grid_zpow (k := -1021) (by norm_num) (by norm_num)) far.le
    have same := hh.eq ((grid_place d).half (by rwa [abs_of_nonneg nonneg']))
    have double := hd.le_two_mul nonneg
    linarith

/-- The middle of two scales is a scale between them. -/
theorem isScale_middle {upper lower : Float} (hu : isScale upper = true)
    (hl : isScale lower = true) (order : place lower ≤ place upper) :
    isScale (lower + (upper - lower) / 2) = true ∧
      place lower ≤ place (lower + (upper - lower) / 2) ∧
      place (lower + (upper - lower) / 2) ≤ place upper := by
  obtain ⟨finiteU, -⟩ := isScale_iff.1 hu
  obtain ⟨finiteL, nonnegL⟩ := isScale_iff.1 hl
  have difference := rounds_sub finiteU finiteL
  have nonneg : 0 ≤ place upper - place lower := sub_nonneg.2 order
  have scale : isScale (upper - lower) = true :=
    isScale_of_le difference.isNumber (difference.nonneg nonneg)
      (difference.le (grid_place upper) (by linarith)) hu
  obtain ⟨finiteH, nonnegH⟩ := isScale_iff.1 (isScale_half scale).1
  have multiple : ∃ k : ℤ, place upper - place lower = k * 2 ^ (-1074 : ℤ) := by
    obtain ⟨m, same⟩ := (grid_place upper).multiple
    obtain ⟨n, same'⟩ := (grid_place lower).multiple
    exact ⟨m - n, by rw [same, same']; push_cast; ring⟩
  have small := half_difference_le nonneg multiple difference
    (rounds_half (isScale_iff.1 scale).1)
  have sum := rounds_add finiteL finiteH
  have above := sum.ge (grid_place lower) (by linarith)
  have below := sum.le (grid_place upper) (by linarith)
  exact ⟨isScale_of_le sum.isNumber (nonnegL.trans above) below hu, above, below⟩

/-! ## The search stays on scales -/

namespace Calibration

open Position

variable {ε : Type} {tolerance : Float} {accepted : Bool} {p q : Position Float}

/-- A position on scales, whose interval is in order. -/
inductive Scaled : Position Float → Prop where
  | raising {steps : Nat} {scale : Float} (scaled : isScale scale = true) :
      Scaled (.raising steps scale)
  | lowering {steps : Nat} {upper next : Float} (above : isScale upper = true)
      (below : isScale next = true) (order : place next ≤ place upper) :
      Scaled (.lowering steps upper next)
  | bisecting {steps : Nat} {upper lower : Float} (above : isScale upper = true)
      (below : isScale lower = true) (order : place lower ≤ place upper) :
      Scaled (.bisecting steps upper lower)

theorem Scaled.isScale_scale (scaled : Scaled p) : isScale p.scale = true := by
  cases scaled with
  | raising scaled => exact scaled
  | lowering above below order => exact below
  | bisecting above below order => exact (isScale_middle above below order).1

/-- The interval that an answer leaves is one of scales in order. -/
theorem Scaled.interval {steps : Nat} {upper lower : Float} (scaled : Scaled p)
    (brackets : Brackets accepted p steps upper lower) :
    isScale upper = true ∧ isScale lower = true ∧ place lower ≤ place upper := by
  cases brackets with
  | found =>
    cases scaled with
    | lowering above below order => exact ⟨above, below, order⟩
  | lowered =>
    cases scaled with
    | bisecting above below order =>
      obtain ⟨scaled, more, -⟩ := isScale_middle above below order
      exact ⟨scaled, below, more⟩
  | lifted =>
    cases scaled with
    | bisecting above below order =>
      obtain ⟨scaled, -, less⟩ := isScale_middle above below order
      exact ⟨above, scaled, less⟩

theorem Scaled.onward (scaled : Scaled p) (onward : Onward tolerance accepted p (.inl q)) :
    Scaled q := by
  cases onward with
  | turned =>
    cases scaled with
    | raising scaled =>
      obtain ⟨half, below⟩ := isScale_half scaled
      exact .lowering scaled half below
  | doubled finite =>
    cases scaled with
    | raising scaled => exact .raising (isScale_double scaled finite)
  | halved positive =>
    cases scaled with
    | lowering above below order =>
      obtain ⟨half, under⟩ := isScale_half below
      exact .lowering below half under
  | bisected brackets wide =>
    obtain ⟨above, below, order⟩ := scaled.interval brackets
    exact .bisecting above below order

theorem scaled_start (steps : Nat) : Scaled (.raising steps 1) := .raising (by decide +kernel)

/-- **`tested_isScale`**: whatever its answers go by, a test is only ever asked about scales. -/
theorem tested_isScale (e : Failure Float → ε) (test : List Float → Float → Except ε Bool)
    (tolerance : Float) (steps : Nat) :
    ∀ scale ∈ (trace e test tolerance steps).2, isScale scale = true := by
  by_cases positive : 0 < tolerance
  · have asked {before : List Float} {p : Position Float}
        (known : (∀ scale ∈ before, isScale scale = true) ∧ Scaled p) :
        ∀ scale ∈ before ++ [p.scale], isScale scale = true :=
      List.forall_mem_append.2 ⟨known.1, by simpa using known.2.isScale_scale⟩
    obtain ⟨before, last, known, record, -⟩ := visit_last test tolerance
      (I := fun asked p => (∀ scale ∈ asked, isScale scale = true) ∧ Scaled p)
      (fun known _ onward => ⟨asked known, known.2.onward onward⟩) [] (.raising steps 1)
      ⟨by simp, scaled_start steps⟩
    rw [trace_eq e test positive, record]
    exact asked known
  · rw [trace_of_not_pos e test positive]
    simp

/-- **`search_fails`**: where the test answers on scales, the search fails for want of a finite
scale or of steps, and for nothing else. -/
theorem search_fails {e : Failure Float → ε} {test : Float → Except ε Bool} {steps : Nat}
    {error : ε} (tests : ∀ s, isScale s = true → ∃ b, test s = .ok b) (positive : 0 < tolerance)
    (failed : search (m := Except ε) (fun failure => .error (e failure)) test tolerance steps =
      .error error) : error = e .outOfRange ∨ error = e .outOfSteps := by
  obtain ⟨before, last, scaled, -, final⟩ := visit_last (fun _ => test) tolerance
    (I := fun _ p => Scaled p) (fun scaled _ onward => scaled.onward onward) [] (.raising steps 1)
    (scaled_start steps)
  rw [← trace_fst, trace_eq e _ positive] at failed
  generalize (visit (fun _ => test) tolerance (.raising steps 1) []).1 = ended at final failed
  cases final with
  | failed answer =>
    obtain ⟨b, answered⟩ := tests _ scaled.isScale_scale
    exact nomatch answered.symm.trans answer
  | ended answer onward =>
    cases onward with
    | outOfRange => exact .inl (Except.error.inj failed).symm
    | outOfSteps => exact .inr (Except.error.inj failed).symm
    | _ => exact nomatch failed

/-! ## Powers of two -/

/-- Twice a power of two is the next one, which is finite unless this one is the last. -/
theorem double_power {j : Nat} {scale : Float} (power : place scale = 2 ^ j)
    (finite : IsFinite scale) (below : j < 1024) :
    place (scale + scale) = 2 ^ (j + 1) ∧ (IsFinite (scale + scale) ↔ j ≠ 1023) := by
  have sum := rounds_add finite finite
  have twice : place scale + place scale = 2 ^ (j + 1) := by
    rw [power, pow_succ]
    ring
  rw [twice] at sum
  have double := sum.eq (by exact_mod_cast grid_zpow (k := j + 1) (by omega) (by omega))
  refine ⟨double, fun finite' last => ?_, fun inner => sum.isNumber.isFinite ?_⟩
  · have less := finite'.abs_place_lt
    rw [double, abs_of_pos (by positivity), limit_eq_pow, last] at less
    exact lt_irrefl _ less
  · rw [double, abs_of_pos (by positivity), limit_eq_pow]
    exact pow_lt_pow_right₀ (by norm_num) (by omega)

/-- Raising has doubled as often as it has taken one of its 1024 steps. -/
structure Doubled (steps : ℕ) (scale : Float) : Prop where
  finite : IsFinite scale
  power : place scale = 2 ^ (1024 - steps)
  within : steps ≤ 1024

namespace Doubled

variable {steps : ℕ} {scale : Float}

theorem start : Doubled 1024 1 := ⟨isFinite_one, by simp, le_rfl⟩

theorem steps_pos (h : Doubled steps scale) : 0 < steps := by
  have less := h.finite.abs_place_lt
  rw [h.power, abs_of_pos (by positivity), limit_eq_pow,
    pow_lt_pow_iff_right₀ (by norm_num)] at less
  omega

theorem double (h : Doubled (steps + 1) scale) :
    place (scale + scale) = 2 ^ (1024 - steps) ∧ (IsFinite (scale + scale) ↔ steps ≠ 0) := by
  have within := h.within
  obtain ⟨power, finite⟩ := double_power h.power h.finite (by omega)
  rw [show 1024 - (steps + 1) + 1 = 1024 - steps by omega] at power
  exact ⟨power, finite.trans (by omega)⟩

theorem next (h : Doubled (steps + 1) scale) (finite : (scale + scale).isFinite = true) :
    Doubled steps (scale + scale) :=
  ⟨isFinite_iff.1 finite, h.double.1, Nat.le_of_succ_le h.within⟩

/-- Where doubling overflows, the scale is the last power of two. -/
theorem last (h : Doubled (steps + 1) scale) (infinite : ¬ (scale + scale).isFinite = true) :
    place scale = 2 ^ 1023 := by
  obtain rfl : steps = 0 := by
    by_contra other
    exact infinite (isFinite_iff.2 (h.double.2.2 other))
  exact h.power

end Doubled

/-- As long as it is raising, the search is at a power of two. -/
inductive Climbing : Position Float → Prop where
  | raising {steps : ℕ} {scale : Float} (doubled : Doubled steps scale) :
      Climbing (.raising steps scale)
  | lowering {steps : ℕ} {upper next : Float} : Climbing (.lowering steps upper next)
  | bisecting {steps : ℕ} {upper lower : Float} : Climbing (.bisecting steps upper lower)

theorem Climbing.onward (climbing : Climbing p) (onward : Onward tolerance accepted p (.inl q)) :
    Climbing q := by
  cases onward with
  | doubled finite =>
    cases climbing with
    | raising doubled => exact .raising (doubled.next finite)
  | turned => exact .lowering
  | halved positive => exact .lowering
  | bisected brackets wide => exact .bisecting

section
variable {e : Failure Float → ε} {test : Float → Except ε Bool}

/-- **`search_reaches`**: the search finds a scale for a test that accepts the last power of two. -/
theorem search_reaches (tests : ∀ s, isScale s = true → ∃ b, test s = .ok b) (pos : 0 < tolerance)
    (last : ∀ s, IsFinite s → place s = 2 ^ 1023 → test s = .ok true) :
    ∃ s, search (m := Except ε) (fun failure => .error (e failure)) test tolerance 1024 = .ok s := by
  obtain ⟨p, ended, ⟨scaled, climbing⟩, final, same⟩ := search_last e
    (I := fun p => Scaled p ∧ Climbing p)
    (fun kept (_ : test _ = _) onward => ⟨kept.1.onward onward, kept.2.onward onward⟩)
    ⟨scaled_start 1024, .raising .start⟩ pos
  rw [same]
  cases final with
  | failed refused =>
    obtain ⟨b, answer⟩ := tests _ scaled.isScale_scale
    exact nomatch answer.symm.trans refused
  | ended answer onward =>
    cases onward with
    | outOfRange infinite =>
      cases climbing with
      | raising doubled =>
        have accepted := last _ doubled.finite (doubled.last infinite)
        exact nomatch accepted.symm.trans answer
    | outOfSteps =>
      cases climbing with
      | raising doubled => exact absurd doubled.steps_pos (lt_irrefl 0)
    | _ => exact ⟨_, rfl⟩

/-- **`search_exhausts`**: there is no finite scale for a test that refuses all powers of two. -/
theorem search_exhausts (pos : 0 < tolerance)
    (none : ∀ i ≤ 1023, ∀ s, IsFinite s → place s = 2 ^ i → test s = .ok false) :
    search (m := Except ε) (fun failure => .error (e failure)) test tolerance 1024 =
      .error (e .outOfRange) := by
  have refuses {steps : ℕ} {scale : Float} (doubled : Doubled steps scale) :
      test scale = .ok false :=
    none (1024 - steps) (by have := doubled.steps_pos; omega) scale doubled.finite doubled.power
  -- What is refused at all powers of two is never lowered.
  have raises {p q : Position Float} {accepted : Bool}
      (raising : ∃ steps scale, p = .raising steps scale ∧ Doubled steps scale)
      (answer : test p.scale = .ok accepted) (onward : Onward tolerance accepted p (.inl q)) :
      ∃ steps scale, q = .raising steps scale ∧ Doubled steps scale := by
    obtain ⟨steps, scale, rfl, doubled⟩ := raising
    cases onward with
    | turned => exact nomatch (refuses doubled).symm.trans answer
    | doubled finite => exact ⟨_, _, rfl, doubled.next finite⟩
    | bisected brackets => exact nomatch brackets
  obtain ⟨p, ended, ⟨steps, scale, rfl, doubled⟩, final, same⟩ :=
    search_last e raises ⟨1024, 1, rfl, .start⟩ pos
  rw [same]
  cases final with
  | failed refused => exact nomatch (refuses doubled).symm.trans refused
  | ended answer onward =>
    cases onward with
    | outOfRange infinite => rfl
    | outOfSteps => exact absurd doubled.steps_pos (lt_irrefl 0)
    | cut brackets => exact nomatch brackets
    | narrow brackets => exact nomatch brackets

end

end Calibration

end PrivateQuery
