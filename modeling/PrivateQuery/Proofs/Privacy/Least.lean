import Mathlib
import PrivateQuery.Proofs.Privacy.Tail

/-!
# The least bound of a tail

In exact arithmetic the sum outward is the weight of all integers short of the cutoff
(`Outward.total_eq`), and what is left on the way inward is the weight of those at least as large as the
next one (`Inward.isLeast`). So the bound is the least positive integer, up to the cutoff, whose tail
has no more than its share of all weights, whatever the weights and the test that ends the sum
(`tailBound_isLeast`).
-/
namespace PrivateQuery.Accuracy

variable {K : Type} [Field K] [LinearOrder K] [IsStrictOrderedRing K]

/-! ## Pairs of weights -/

section
variable {vanishes : K → K → Bool} {weight : ℕ → K} {total total' bound tail : K}
variable {next cutoff last : ℕ}

/-- The weight of the pairs from an integer on, up to the cutoff. -/
def pairsFrom (weight : ℕ → K) (next cutoff : ℕ) : K :=
  ∑ n ∈ Finset.Ico next cutoff, (weight n + weight n)

omit [LinearOrder K] [IsStrictOrderedRing K] in
theorem pairsFrom_of_lt (less : next < cutoff) :
    pairsFrom weight next cutoff = weight next + weight next + pairsFrom weight (next + 1) cutoff :=
  Finset.sum_eq_sum_Ico_succ_bot less _

theorem pairsFrom_nonneg (nonneg : ∀ n, 0 ≤ weight n) : 0 ≤ pairsFrom weight next cutoff :=
  Finset.sum_nonneg fun n _ => add_nonneg (nonneg n) (nonneg n)

omit [LinearOrder K] [IsStrictOrderedRing K] in
/-- The sum outward adds the pairs up to the cutoff. -/
theorem Outward.total_eq (outward : Outward vanishes weight total next total' cutoff) :
    total' = total + pairsFrom weight next cutoff := by
  induction outward with
  | stop gone => simp [pairsFrom]
  | round stays rest ih => rw [ih, pairsFrom_of_lt rest.le, add_assoc]

omit [IsStrictOrderedRing K] in
/-- The way inward passes the integers whose pairs are above the bound, and stops at one whose pairs
are not, or at the cutoff. -/
theorem Inward.passes (inward : Inward bound weight cutoff tail next last)
    (left : tail = pairsFrom weight next cutoff) (le : next ≤ cutoff) :
    next ≤ last ∧ last ≤ cutoff ∧ (last < cutoff → pairsFrom weight last cutoff ≤ bound) ∧
      ∀ a, next ≤ a → a < last → bound < pairsFrom weight a cutoff := by
  induction inward with
  | stop done =>
    subst left
    refine ⟨le_rfl, le, fun before => not_lt.1 fun above => done ⟨above, before⟩, ?_⟩
    intro a from_ before
    omega
  | round above before rest ih =>
    rw [left, pairsFrom_of_lt before, add_sub_cancel_left] at ih
    obtain ⟨low, high, stops, passed⟩ := ih rfl before
    refine ⟨by omega, high, stops, fun a from_ less => ?_⟩
    rcases from_.eq_or_lt with rfl | later
    · exact left ▸ above
    · exact passed a later less

omit [IsStrictOrderedRing K] in
/-- **`Inward.isLeast`**: under a bound that is not negative the way inward ends at the least integer
whose pairs are not above it. -/
theorem Inward.isLeast (inward : Inward bound weight cutoff tail next last)
    (left : tail = pairsFrom weight next cutoff) (le : next ≤ cutoff) (nonneg : 0 ≤ bound) :
    IsLeast {a | next ≤ a ∧ a ≤ cutoff ∧ pairsFrom weight a cutoff ≤ bound} last := by
  obtain ⟨low, high, stops, passed⟩ := inward.passes left le
  constructor
  · refine ⟨low, high, ?_⟩
    rcases high.lt_or_eq with before | rfl
    · exact stops before
    · simpa [pairsFrom] using nonneg
  · rintro a ⟨from_, -, within⟩
    by_contra! less
    exact absurd within (not_le.2 (passed a from_ less))

end

/-! ## Both sides of zero -/

section
variable {w : ℤ → K} {a cutoff : ℕ}

/-- The weight of the integers that are at least as large as one and smaller than another, on both
sides of zero. -/
noncomputable def weightBetween (w : ℤ → K) (a cutoff : ℕ) : K :=
  ∑ x ∈ (Finset.Ioo (-cutoff : ℤ) cutoff).filter (fun x => a ≤ x.natAbs), w x

omit [LinearOrder K] [IsStrictOrderedRing K] in
theorem weightBetween_of_pos (even : ∀ x, w (-x) = w x) (pos : 0 < a) :
    weightBetween w a cutoff = pairsFrom (fun n => w n) a cutoff := by
  have sides : (Finset.Ioo (-cutoff : ℤ) cutoff).filter (fun x => a ≤ x.natAbs) =
      (Finset.Ico a cutoff).image (fun n : ℕ => (n : ℤ)) ∪
        (Finset.Ico a cutoff).image (fun n : ℕ => -(n : ℤ)) := by
    ext x
    simp only [Finset.mem_filter, Finset.mem_Ioo, Finset.mem_union, Finset.mem_image,
      Finset.mem_Ico]
    constructor
    · rintro ⟨inside, above⟩
      rcases le_total 0 x with pos | neg
      · exact .inl ⟨x.natAbs, by omega, by omega⟩
      · exact .inr ⟨x.natAbs, by omega, by omega⟩
    · rintro (⟨n, range, rfl⟩ | ⟨n, range, rfl⟩) <;> omega
  have apart : Disjoint ((Finset.Ico a cutoff).image (fun n : ℕ => (n : ℤ)))
      ((Finset.Ico a cutoff).image (fun n : ℕ => -(n : ℤ))) := by
    rw [Finset.disjoint_left]
    simp only [Finset.mem_image, Finset.mem_Ico]
    rintro _ ⟨n, range, rfl⟩ ⟨m, range', same⟩
    omega
  rw [weightBetween, sides, Finset.sum_union apart,
    Finset.sum_image fun m _ n _ same => Nat.cast_injective same,
    Finset.sum_image fun m _ n _ same => Nat.cast_injective (neg_injective same),
    ← Finset.sum_add_distrib]
  exact Finset.sum_congr rfl fun n _ => by rw [even]

omit [LinearOrder K] [IsStrictOrderedRing K] in
theorem weightBetween_zero (even : ∀ x, w (-x) = w x) (pos : 0 < cutoff) :
    weightBetween w 0 cutoff = w 0 + pairsFrom (fun n => w n) 1 cutoff := by
  have split : (Finset.Ioo (-cutoff : ℤ) cutoff).filter (fun x => 0 ≤ x.natAbs) =
      insert 0 ((Finset.Ioo (-cutoff : ℤ) cutoff).filter fun x => 1 ≤ x.natAbs) := by
    ext x
    simp only [Finset.mem_filter, Finset.mem_Ioo, Finset.mem_insert]
    omega
  rw [weightBetween, split, Finset.sum_insert (by simp), ← weightBetween,
    weightBetween_of_pos even one_pos]

end

/-! ## The bound -/

section
variable {w : ℤ → K} {vanishes : K → K → Bool} {total : K} {cutoff : ℕ}

/-- A bound that is found is the least integer whose tail has at most its share. -/
theorem isLeast_of_tailBound (even : ∀ x, w (-x) = w x) (nonneg : ∀ x, 0 ≤ w x)
    (outward : Outward vanishes (fun n : ℕ => w n) (w 0) 1 total cutoff) {alpha : K}
    (share : 0 ≤ alpha) {rounds bound : ℕ}
    (found : tailBound vanishes (alpha * ·) (fun n : ℕ => w n) rounds = some bound) :
    IsLeast {a : ℕ | 1 ≤ a ∧ a ≤ cutoff ∧
      weightBetween w a cutoff ≤ alpha * weightBetween w 0 cutoff} bound := by
  obtain ⟨⟨total', cutoff'⟩, ended, rfl⟩ := Option.map_eq_some_iff.1 found
  obtain ⟨rfl, rfl⟩ := outward.unique (outward_of_sumOutward ended)
  have all : weightBetween w 0 cutoff = total := by
    rw [weightBetween_zero even outward.le, outward.total_eq]
  have left : total - w 0 = pairsFrom (fun n : ℕ => w n) 1 cutoff := by
    rw [outward.total_eq, add_sub_cancel_left]
  have some : 0 ≤ total := by
    rw [outward.total_eq]
    exact add_nonneg (nonneg 0) (pairsFrom_nonneg fun n => nonneg n)
  have least := ((inward_iff outward.le).2 rfl).isLeast left outward.le (mul_nonneg share some)
  have same : {a : ℕ | 1 ≤ a ∧ a ≤ cutoff ∧
      weightBetween w a cutoff ≤ alpha * weightBetween w 0 cutoff} =
      {a | 1 ≤ a ∧ a ≤ cutoff ∧ pairsFrom (fun n : ℕ => w n) a cutoff ≤ alpha * total} := by
    ext a
    refine and_congr_right fun pos => ?_
    rw [all, weightBetween_of_pos even pos]
  rw [same]
  exact least

/-- **`tailBound_isLeast`**: for even weights that are not negative, if the sum outward ends, there is
one bound that is found, however many rounds there are; it is the least integer, from one to the
cutoff, whose tail has at most its share of all weights short of the cutoff. A smaller share has no
smaller bound. -/
theorem tailBound_isLeast (even : ∀ x, w (-x) = w x) (nonneg : ∀ x, 0 ≤ w x)
    (outward : Outward vanishes (fun n : ℕ => w n) (w 0) 1 total cutoff) :
    (∀ alpha, 0 ≤ alpha → ∃ bound,
      (∀ found, (∃ rounds, tailBound vanishes (alpha * ·) (fun n : ℕ => w n) rounds = some found) ↔
        found = bound) ∧
      IsLeast {a : ℕ | 1 ≤ a ∧ a ≤ cutoff ∧
        weightBetween w a cutoff ≤ alpha * weightBetween w 0 cutoff} bound) ∧
    ∀ alpha alpha' rounds rounds' bound bound', 0 ≤ alpha → alpha ≤ alpha' →
      tailBound vanishes (alpha * ·) (fun n : ℕ => w n) rounds = some bound →
      tailBound vanishes (alpha' * ·) (fun n : ℕ => w n) rounds' = some bound' → bound' ≤ bound := by
  constructor
  · intro alpha share
    obtain ⟨rounds, ended⟩ := exists_sumOutward_iff.2 outward
    have found : tailBound vanishes (alpha * ·) (fun n : ℕ => w n) rounds =
        some (firstWithin (alpha * total) (fun n : ℕ => w n) (cutoff - 1) (total - w 0) 1) := by
      rw [tailBound]
      exact congrArg (Option.map _) ended
    have least := isLeast_of_tailBound even nonneg outward share found
    refine ⟨_, fun other => ⟨?_, fun same => ⟨rounds, same ▸ found⟩⟩, least⟩
    rintro ⟨rounds', found'⟩
    exact (isLeast_of_tailBound even nonneg outward share found').unique least
  · intro alpha alpha' rounds rounds' bound bound' share le found found'
    obtain ⟨⟨low, high, within⟩, -⟩ := isLeast_of_tailBound even nonneg outward share found
    have least' := isLeast_of_tailBound even nonneg outward (share.trans le) found'
    have some : 0 ≤ weightBetween w 0 cutoff := Finset.sum_nonneg fun x _ => nonneg x
    exact least'.2 ⟨low, high, within.trans (mul_le_mul_of_nonneg_right le some)⟩

end

/-- Weights that fall off evenly to zero. -/
def tent (x : ℤ) : ℚ := (4 - x.natAbs : ℕ)

/-- Of 16 the tails from 1, 2 and 3 on weigh 12, 6 and 2; the test is that of Gaussian weights. -/
theorem tailBound_isLeast_tent :
    (∀ x, tent (-x) = tent x) ∧ (∀ x, 0 ≤ tent x) ∧
      Outward (fun term total => decide (term ≤ 2 ^ (-52 : ℤ) * total)) (fun n : ℕ => tent n)
        (tent 0) 1 16 4 ∧
      IsLeast {a : ℕ | 1 ≤ a ∧ a ≤ 4 ∧
        weightBetween tent a 4 ≤ 1 / 5 * weightBetween tent 0 4} 3 ∧ (2 : ℕ) ≤ 3 := by
  have even (x : ℤ) : tent (-x) = tent x := by rw [tent, tent, Int.natAbs_neg]
  have nonneg (x : ℤ) : 0 ≤ tent x := Nat.cast_nonneg _
  have outward : Outward (fun term total => decide (term ≤ 2 ^ (-52 : ℤ) * total))
      (fun n : ℕ => tent n) (tent 0) 1 16 4 :=
    exists_sumOutward_iff.1 ⟨4, by decide +kernel⟩
  obtain ⟨bounds, smaller⟩ := tailBound_isLeast even nonneg outward
  obtain ⟨bound, found, least⟩ := bounds (1 / 5) (by norm_num)
  obtain rfl : 3 = bound := (found 3).1 ⟨4, by decide +kernel⟩
  exact ⟨even, nonneg, outward, least, smaller (1 / 5) (1 / 2) 4 4 3 2 (by norm_num) (by norm_num)
    (by decide +kernel) (by decide +kernel)⟩

end PrivateQuery.Accuracy
