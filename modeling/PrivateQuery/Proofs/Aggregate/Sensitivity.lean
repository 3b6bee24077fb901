import PrivateQuery.Aggregate.Transformation
import PrivateQuery.Proofs.Binary64.Order

/-!
# Sensitivity of aggregations

How far an aggregation moves when values are added, at whatever places. All of them take the values
one after the other, so it is enough that one more value moves the state a little and that the same
value never takes two states further apart (`foldl_near`). The second holds of a sum that is held at
the ends of its range too: saturation later on cannot amplify what was added before.
-/
namespace PrivateQuery

/-- Two folds over lists of which one has more items end no further apart than they began, but for
what the additional items move. -/
theorem foldl_near {σ α R : Type} [AddCommMonoid R] [PartialOrder R] [IsOrderedAddMonoid R]
    (dist : σ → σ → R) (f : σ → α → σ) (most : R)
    (same : ∀ a b x, dist (f a x) (f b x) ≤ dist a b)
    (alone : ∀ a b x, dist a (f b x) ≤ dist a b + most) {l l' : List α} (sub : l.Sublist l')
    (a b : σ) : dist (l.foldl f a) (l'.foldl f b) ≤ dist a b + (l'.length - l.length) • most := by
  induction sub generalizing a b with
  | slnil => simp
  | @cons l l' x sub ih =>
    have shorter := sub.length_le
    calc dist (l.foldl f a) (l'.foldl f (f b x))
        ≤ dist a (f b x) + (l'.length - l.length) • most := ih a (f b x)
      _ ≤ dist a b + most + (l'.length - l.length) • most := add_le_add_left (alone a b x) _
      _ = dist a b + ((x :: l').length - l.length) • most := by
          rw [add_assoc, ← succ_nsmul', List.length_cons]
          congr 2
          omega
  | @cons_cons l l' x sub ih =>
    calc dist (l.foldl f (f a x)) (l'.foldl f (f b x))
        ≤ dist (f a x) (f b x) + (l'.length - l.length) • most := ih _ _
      _ ≤ dist a b + ((x :: l').length - (x :: l).length) • most := by
          simpa using add_le_add_left (same a b x) _

namespace Transformation

/-! ## Counts -/

/-- How far two words are apart. -/
def gap (a b : Int64) : ℕ := (b.toInt - a.toInt).natAbs

/-- Numbers of rows as words are no further apart than the numbers. -/
theorem gap_tally (m n : ℕ) : gap (tally m) (tally n) ≤ ((n : ℤ) - m).natAbs := by
  unfold gap tally
  rw [Word.toInt_clamp, Word.toInt_clamp]
  omega

/-- How far the counts of two histograms are apart, category by category. -/
def gaps (counts counts' : List Int64) : List ℕ := List.zipWith gap counts counts'

/-- How far two lists of numbers are apart, in all. -/
def spread (counts counts' : List ℕ) : ℕ :=
  (List.zipWith (fun (m n : ℕ) => ((n : ℤ) - m).natAbs) counts counts').sum

theorem sum_gaps_tally (counts counts' : List ℕ) :
    (gaps (counts.map tally) (counts'.map tally)).sum ≤ spread counts counts' := by
  induction counts generalizing counts' with
  | nil => simp [gaps]
  | cons m counts ih =>
    cases counts' with
    | nil => simp [gaps]
    | cons n counts' =>
      have first := gap_tally m n
      have rest := ih counts'
      simp only [gaps, spread, List.map_cons, List.zipWith_cons_cons, List.sum_cons] at rest ⊢
      omega

theorem spread_modify_both (counts counts' : List ℕ) (i : ℕ) :
    spread (counts.modify i (· + 1)) (counts'.modify i (· + 1)) = spread counts counts' := by
  induction counts generalizing counts' i with
  | nil => simp [spread]
  | cons m counts ih =>
    cases counts' with
    | nil => simp [spread]
    | cons n counts' =>
      cases i with
      | zero => simp [spread]
      | succ i => simpa [spread] using ih counts' i

theorem spread_modify_right (counts counts' : List ℕ) (i : ℕ) :
    spread counts (counts'.modify i (· + 1)) ≤ spread counts counts' + 1 := by
  induction counts generalizing counts' i with
  | nil => simp [spread]
  | cons m counts ih =>
    cases counts' with
    | nil => simp [spread]
    | cons n counts' =>
      cases i with
      | zero =>
        simp only [spread, List.modify_zero_cons, List.zipWith_cons_cons, List.sum_cons]
        omega
      | succ i =>
        have rest := ih counts' i
        simp only [spread, List.modify_succ_cons, List.zipWith_cons_cons, List.sum_cons] at rest ⊢
        omega

theorem spread_self (counts : List ℕ) : spread counts counts = 0 := by
  induction counts with
  | nil => rfl
  | cons m counts ih =>
    simp only [spread, List.zipWith_cons_cons, List.sum_cons] at ih ⊢
    omega

/-- Histograms of lists of which one has more values are no further apart than there are more. -/
theorem spread_countAll (categories : List Value) {values values' : List Value}
    (sub : values.Sublist values') :
    spread (countAll categories values) (countAll categories values') ≤
      values'.length - values.length := by
  have near := foldl_near spread (countValue categories) 1 ?_ ?_ sub
    (List.replicate categories.length 0) (List.replicate categories.length 0)
  · simpa [spread_self, countAll] using near
  · intro counts counts' v
    unfold countValue
    cases categories.findIdx? (· == v) with
    | none => exact le_rfl
    | some i => exact (spread_modify_both counts counts' i).le
  · intro counts counts' v
    unfold countValue
    cases categories.findIdx? (· == v) with
    | none => exact Nat.le_succ _
    | some i => exact spread_modify_right counts counts' i

theorem length_countAll (categories values : List Value) :
    (countAll categories values).length = categories.length := by
  have keeps (counts : List ℕ) :
      (values.foldl (countValue categories) counts).length = counts.length := by
    induction values generalizing counts with
    | nil => rfl
    | cons v values ih =>
      rw [List.foldl_cons, ih, countValue]
      split <;> simp
  simpa [countAll] using keeps (List.replicate categories.length 0)

theorem sqrt_sum_squares_le (l : List ℕ) : √((l.map (· ^ 2)).sum : ℕ) ≤ l.sum := by
  have squares : (l.map (· ^ 2)).sum ≤ l.sum ^ 2 := by
    induction l with
    | nil => simp
    | cons n l ih =>
      simp only [List.map_cons, List.sum_cons]
      nlinarith [Nat.zero_le (n * l.sum)]
  rw [Real.sqrt_le_left (by positivity)]
  exact_mod_cast squares

/-! ## Sums of integers -/

theorem natAbs_integerPart (low high : Int64) (v : Value) :
    (integerPart low high v).toInt.natAbs ≤ max low.toInt.natAbs high.toInt.natAbs := by
  have hl := Word.inRange_toInt low
  have hh := Word.inRange_toInt high
  rw [integerPart, Word.toInt_clamp]
  omega

theorem gap_integerSum (low high : Int64) {values values' : List Value}
    (sub : values.Sublist values') :
    gap ((values.map (integerPart low high)).foldl Word.addClamped 0)
        ((values'.map (integerPart low high)).foldl Word.addClamped 0) ≤
      (values'.length - values.length) * max low.toInt.natAbs high.toInt.natAbs := by
  rw [List.foldl_map, List.foldl_map]
  have near := foldl_near gap (fun s v => Word.addClamped s (integerPart low high v))
    (max low.toInt.natAbs high.toInt.natAbs) ?_ ?_ sub 0 0
  · simpa [gap] using near
  · intro a b v
    unfold gap Word.addClamped
    rw [Word.toInt_clamp, Word.toInt_clamp]
    omega
  · intro a b v
    have part := natAbs_integerPart low high v
    have hb := Word.inRange_toInt b
    unfold gap Word.addClamped
    rw [Word.toInt_clamp]
    omega

/-! ## Sums of doubles -/

/-- A double as a rational number; zero for one that has no value. -/
def rational (x : Float) : ℚ := (Binary64.value? x).getD 0

/-- Between bounds that have a value a cell is a number between theirs, its own where it has one. -/
theorem place_floatPart {low high : Float} {l h : ℚ} (hl : Binary64.value? low = some l)
    (hh : Binary64.value? high = some h) (v : Value) :
    Binary64.IsNumber (floatPart low high v) ∧
      ∃ r : ℝ, Binary64.place (floatPart low high v) = min (max r l) h ∧
        (Binary64.IsNumber (v.toFloat?.getD 0) → Binary64.place (v.toFloat?.getD 0) = r) := by
  have lowNumber := (Binary64.value?_isSome_iff.1 ⟨l, hl⟩).isNumber
  have highNumber := (Binary64.value?_isSome_iff.1 ⟨h, hh⟩).isNumber
  have raised : Binary64.IsNumber (Binary64.maximum (v.toFloat?.getD 0) low) :=
    Binary64.isNumber_maximum.2 (.inr lowNumber)
  refine ⟨Binary64.isNumber_minimum.2 (.inl raised), ?_⟩
  rw [floatPart, Binary64.place_minimum raised highNumber, Binary64.place_of_value? hh]
  by_cases number : Binary64.IsNumber (v.toFloat?.getD 0)
  · rw [Binary64.place_maximum number lowNumber, Binary64.place_of_value? hl]
    exact ⟨_, rfl, fun _ => rfl⟩
  · rw [Binary64.maximum_of_not_isNumber number, Binary64.place_of_value? hl]
    exact ⟨l, by rw [max_self], fun given => absurd given number⟩

/-- Between bounds that have a value a cell has one, no larger than the larger of theirs. -/
theorem value?_floatPart {low high : Float} {l h : ℚ} (hl : Binary64.value? low = some l)
    (hh : Binary64.value? high = some h) (v : Value) :
    ∃ q, Binary64.value? (floatPart low high v) = some q ∧ |q| ≤ max |l| |h| := by
  have lowFinite := Binary64.value?_isSome_iff.1 ⟨l, hl⟩
  have highFinite := Binary64.value?_isSome_iff.1 ⟨h, hh⟩
  obtain ⟨number, r, place, -⟩ := place_floatPart hl hh v
  have small : |Binary64.place (floatPart low high v)| ≤ max |(l : ℝ)| |(h : ℝ)| := by
    rw [place]
    rcases le_total (max r l) (h : ℝ) with below | beyond
    · rw [min_eq_left below]
      exact abs_le_max_abs_abs (le_max_right _ _) below
    · rw [min_eq_right beyond]
      exact le_max_right _ _
  have bounded : |Binary64.place (floatPart low high v)| < Binary64.limit := by
    refine small.trans_lt (max_lt ?_ ?_)
    · rw [← Binary64.place_of_value? hl]
      exact lowFinite.abs_place_lt
    · rw [← Binary64.place_of_value? hh]
      exact highFinite.abs_place_lt
  obtain ⟨q, hq⟩ := Binary64.value?_isSome_iff.2 (number.isFinite bounded)
  refine ⟨q, hq, ?_⟩
  rw [Binary64.place_of_value? hq] at small
  exact_mod_cast small

/-- A cell that has a value is brought between the bounds without being rounded. -/
theorem value?_floatPart_of_value? {low high : Float} {l h x : ℚ}
    (hl : Binary64.value? low = some l) (hh : Binary64.value? high = some h) {v : Value}
    (hx : Binary64.value? (v.toFloat?.getD 0) = some x) :
    Binary64.value? (floatPart low high v) = some (min (max x l) h) := by
  obtain ⟨q, hq, -⟩ := value?_floatPart hl hh v
  obtain ⟨-, r, place, own⟩ := place_floatPart hl hh v
  rw [Binary64.place_of_value? hq,
    ← own (Binary64.value?_isSome_iff.1 ⟨x, hx⟩).isNumber, Binary64.place_of_value? hx] at place
  rw [hq]
  exact congrArg some (by exact_mod_cast place)

theorem abs_sumParts_sub {low high : Float} {l h : ℚ} (hl : Binary64.value? low = some l)
    (hh : Binary64.value? high = some h) {values values' : List Value}
    (sub : values.Sublist values') :
    |sumParts rational low high values' - sumParts rational low high values| ≤
      (values'.length - values.length : ℕ) * max |l| |h| := by
  unfold sumParts
  rw [List.foldl_map, List.foldl_map]
  have near := foldl_near (fun a b : ℚ => |b - a|) (fun s v => s + rational (floatPart low high v))
    (max |l| |h|) ?_ ?_ sub 0 0
  · simpa using near
  · intro a b v
    simp
  · intro a b v
    obtain ⟨q, hq, small⟩ := value?_floatPart hl hh v
    have part : rational (floatPart low high v) = q := by simp [rational, hq]
    calc |b + rational (floatPart low high v) - a| = |b - a + q| := by
          rw [part]
          congr 1
          ring
      _ ≤ |b - a| + |q| := abs_add_le _ _
      _ ≤ |b - a| + max |l| |h| := by gcongr

/-! ## Outcomes -/

/-- The outcomes on two lists of values are as near as `rows` rows allow: a number of rows moves by
one a row, a histogram by one a row whether the moves of its counts are added up or their squares,
and a sum by the larger of its bounds a row. The sum of doubles is the same fold in exact arithmetic,
on cells that enter it with the values that they have between the bounds. -/
def Near (rows : ℕ) (values values' : List Value) : Transformation → Prop
  | .count column => ∃ n n', (count column).applyTo values = .integer n ∧
      (count column).applyTo values' = .integer n' ∧ gap n n' ≤ rows
  | .countBy column categories => ∃ ns ns',
      (countBy column categories).applyTo values = .counts ns ∧
      (countBy column categories).applyTo values' = .counts ns' ∧ ns.length = ns'.length ∧
      (gaps ns ns').sum ≤ rows ∧ √(((gaps ns ns').map (· ^ 2)).sum : ℕ) ≤ rows
  | .integerSum column low high => ∃ s s',
      (integerSum column low high).applyTo values = .integer s ∧
      (integerSum column low high).applyTo values' = .integer s' ∧
      gap s s' ≤ rows * max low.toInt.natAbs high.toInt.natAbs
  | .floatSum column low high =>
      (floatSum column low high).applyTo values = .real (sumParts id low high values) ∧
      (floatSum column low high).applyTo values' = .real (sumParts id low high values') ∧
      ∀ l h : ℚ, Binary64.value? low = some l → Binary64.value? high = some h →
        (∀ v x, Binary64.value? (v.toFloat?.getD 0) = some x →
          Binary64.value? (floatPart low high v) = some (min (max x l) h)) ∧
        |sumParts rational low high values' - sumParts rational low high values| ≤ rows * max |l| |h|

/-- **`near_of_sublist`**: adding at most `rows` values, at whatever places, moves an aggregation no
further than its sensitivity allows. -/
theorem near_of_sublist {rows : ℕ} {values values' : List Value} (sub : values.Sublist values')
    (more : values'.length ≤ values.length + rows) (t : Transformation) :
    t.Near rows values values' := by
  have added : values'.length - values.length ≤ rows := by omega
  cases t with
  | count column =>
    refine ⟨_, _, rfl, rfl, (gap_tally _ _).trans ?_⟩
    have shorter := sub.length_le
    omega
  | countBy column categories =>
    have near := (sum_gaps_tally _ _).trans ((spread_countAll categories sub).trans added)
    refine ⟨_, _, rfl, rfl, by simp [length_countAll], near, ?_⟩
    exact (sqrt_sum_squares_le _).trans (by exact_mod_cast near)
  | integerSum column low high =>
    exact ⟨_, _, rfl, rfl, (gap_integerSum low high sub).trans (Nat.mul_le_mul_right _ added)⟩
  | floatSum column low high =>
    refine ⟨rfl, rfl, fun l h hl hh => ⟨fun v x => value?_floatPart_of_value? hl hh, ?_⟩⟩
    refine (abs_sumParts_sub hl hh sub).trans ?_
    gcongr

end Transformation

end PrivateQuery
