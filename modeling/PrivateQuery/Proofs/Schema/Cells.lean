import PrivateQuery.Proofs.Binary64.Integers
import PrivateQuery.Proofs.Decimal.Numerals
import PrivateQuery.Schema.Column

/-!
# Cells of integer columns

Digits and a sign are read as they are. What has a point or a power of ten is read as a double first, and
the cell is right exactly if this double is the same word as the number, or neither is one (`SameWord`,
`read_numeral_exact_iff`). The least word is always lost, because the double must be short of `2 ^ 63`
in size. Few digits do no harm (`sameWord_of_few`).
-/
namespace PrivateQuery.ColumnType

open Binary64 (place truncate isWhole Rounds IsNumber IsFinite)
open Decimal (Numeral)

/-- The word that a number is, if it is one. -/
def exactWord? (q : ℚ) : Option Int64 := if q.den = 1 then Word.ofInt? q.num else none

/-- The cell of an integer column for a number: the number if it is a word, otherwise none. -/
def exactCell (q : ℚ) : Value := ((exactWord? q).map Value.integer).getD .null

/-- A double is the same word as a number, or neither is one. The least word counts as none for the
double. -/
def SameWord (q : ℚ) (x : Float) : Prop :=
  ∀ i : Int64, q = i.toInt ↔ place x = i.toInt ∧ i ≠ Int64.minValue

theorem exactWord?_eq_some_iff {q : ℚ} {i : Int64} : exactWord? q = some i ↔ q = i.toInt := by
  unfold exactWord?
  split_ifs with whole
  · rw [Word.ofInt?_eq_some_iff]
    have same : (q.num : ℚ) = q := (Rat.den_eq_one_iff q).1 whole
    rw [← same, Int.cast_inj, Rat.num_intCast]
    exact eq_comm
  · refine iff_of_false (by simp) ?_
    rintro rfl
    exact whole (Rat.den_intCast _)

/-! ## Doubles as words -/

theorem abs_toInt_lt_iff {i : Int64} : i.toInt.natAbs < 2 ^ 63 ↔ i ≠ Int64.minValue := by
  have range := Word.inRange_toInt i
  have least : i = Int64.minValue ↔ i.toInt = -2 ^ 63 := by
    rw [← Int64.toInt_inj]
    rfl
  rw [Ne, least]
  constructor
  · intro less equal
    omega
  · intro other
    unfold Word.InRange at range
    omega

/-- A double is taken for the word that has its place, except for the least one. -/
theorem wholeWord?_eq_some_iff {x : Float} (number : IsNumber x) {i : Int64} :
    wholeWord? x = some i ↔ place x = i.toInt ∧ i ≠ Int64.minValue := by
  rw [← abs_toInt_lt_iff]
  unfold wholeWord?
  dsimp only
  constructor
  · intro taken
    split_ifs at taken with whole small
    rw [Word.ofInt?_eq_some_iff] at taken
    rw [Binary64.place_of_isWhole whole, taken]
    exact ⟨rfl, by omega⟩
  · rintro ⟨at_, small⟩
    have finite : IsFinite x := by
      refine number.isFinite ?_
      rw [at_, ← Int.cast_abs, Int.abs_eq_natAbs]
      have below : ((i.toInt.natAbs : ℤ) : ℝ) < 2 ^ (63 : ℤ) := by exact_mod_cast small
      exact below.trans (zpow_lt_zpow_right₀ (by norm_num) (by norm_num))
    have whole := Binary64.isWhole_of_place finite at_
    have same : truncate x = i.toInt := by
      exact_mod_cast (Binary64.place_of_isWhole whole).symm.trans at_
    rw [if_pos whole, same, if_pos (by omega), Word.ofInt?_eq_some_iff]

/-- Numbers beyond all words are not taken for one. -/
theorem wholeWord?_of_large {q : ℝ} {x : Float} (rounds : Rounds q x) (large : 2 ^ (63 : ℤ) ≤ |q|) :
    wholeWord? x = none := by
  rw [Option.eq_none_iff_forall_not_mem]
  intro i taken
  obtain ⟨at_, other⟩ := (wholeWord?_eq_some_iff rounds.isNumber).1 taken
  have small : |(i.toInt : ℝ)| < 2 ^ (63 : ℤ) := by
    rw [← Int.cast_abs, Int.abs_eq_natAbs]
    exact_mod_cast abs_toInt_lt_iff.2 other
  have edge := Binary64.grid_zpow (k := 63) (by norm_num) (by norm_num)
  rw [← at_, abs_lt] at small
  rcases le_abs.1 large with above | below
  · exact (rounds.ge edge above).not_gt small.2
  · exact (rounds.le edge.neg (le_neg.1 below)).not_gt small.1

/-! ## Numerals -/

variable {n : Numeral} {x : Float}

/-- Digits and a sign are read exactly; beyond all words the double does not come to help. -/
theorem readInt?_of_isPlain (plain : n.isPlain = true) : readInt? n.text = exactWord? n.value := by
  obtain ⟨x, taken, rounds⟩ := n.rounds_readFloat?
  have exact : exactWord? n.value = Word.ofInt? n.integer := by
    rw [exactWord?, n.value_of_isPlain plain, if_pos (Rat.den_intCast _), Rat.num_intCast]
  rw [readInt?, n.readInt?_text, if_pos plain, exact, taken]
  cases word : Word.ofInt? n.integer with
  | some i => rfl
  | none =>
    refine wholeWord?_of_large rounds ?_
    rw [Word.ofInt?_eq_none_iff] at word
    unfold Word.InRange at word
    have large : 2 ^ 63 ≤ |n.integer| := by
      rw [le_abs]
      omega
    rw [n.value_of_isPlain plain, Rat.cast_intCast, ← Int.cast_abs]
    exact_mod_cast large

theorem readInt?_of_not_isPlain (other : n.isPlain = false) (taken : Decimal.readFloat? n.text = some x) :
    readInt? n.text = wholeWord? x := by
  rw [readInt?, n.readInt?_text, other, taken]
  rfl

theorem natAbs_of_small {q : ℚ} {j : ℤ} (equal : q = j) (small : |q| ≤ 2 ^ 53) :
    j.natAbs ≤ 2 ^ 53 := by
  rw [equal, ← Int.cast_abs, Int.abs_eq_natAbs] at small
  exact_mod_cast small

theorem place_of_integer {q : ℚ} (rounds : Rounds q x) {j : ℤ} (equal : q = j) (small : |q| ≤ 2 ^ 53) :
    place x = j := by
  have grid := Binary64.grid_intCast (natAbs_of_small equal small)
  rw [equal, Rat.cast_intCast] at rounds
  exact rounds.eq grid

/-- A double that is zero or normal is near to what it is nearest to. -/
theorem near_of_normal {q : ℚ} (rounds : Rounds q x) (small : |q| ≤ 2 ^ 53)
    (normal : q = 0 ∨ 2 ^ (-1022 : ℤ) ≤ |q|) : |place x - q| ≤ |(q : ℝ)| * 2 ^ (-53 : ℤ) := by
  rcases normal with zero | normal
  · rw [zero, Rat.cast_zero] at rounds
    rw [rounds.eq Binary64.grid_zero, zero]
    simp
  · have normal' : (2 : ℝ) ^ (-1022 : ℤ) ≤ |(q : ℝ)| := by
      rw [← Rat.cast_abs, ← Rat.cast_ofNat, ← Rat.cast_zpow]
      exact Rat.cast_le.2 normal
    refine rounds.relative normal' ?_
    have size : |(q : ℝ)| ≤ 2 ^ (53 : ℤ) := by exact_mod_cast small
    exact size.trans (zpow_le_zpow_right₀ (by norm_num) (by norm_num))

/-- The digits of a number with `k` places after the point. -/
theorem value_mul_pow {k : ℕ} (power : n.power = -k) : n.value * 10 ^ k = n.integer := by
  rw [n.value_eq, power, zpow_neg, zpow_natCast]
  field_simp

theorem one_le_distance {k : ℕ} (power : n.power = -k) {j : ℤ} (apart : n.value ≠ j) :
    1 ≤ |((j : ℝ) - n.value) * 10 ^ k| := by
  have value : (n.value : ℝ) * 10 ^ k = n.integer := by exact_mod_cast value_mul_pow power
  have other : j * 10 ^ k - n.integer ≠ 0 := by
    intro equal
    have digits := value_mul_pow power
    rw [← sub_eq_zero.1 equal, Int.cast_mul, Int.cast_pow, Int.cast_ofNat] at digits
    exact apart (mul_right_cancel₀ (by positivity) digits)
  rw [sub_mul, value]
  exact_mod_cast Int.one_le_abs other

/-- A number of few digits that is not large is the same word as its nearest double, or neither is one. -/
theorem sameWord_of_few (rounds : Rounds n.value x) (few : n.digits < 2 ^ 53)
    (small : |n.value| ≤ 2 ^ 53) (normal : n.value = 0 ∨ 2 ^ (-1022 : ℤ) ≤ |n.value|) :
    SameWord n.value x := by
  intro i
  constructor
  · intro equal
    have size := natAbs_of_small equal small
    exact ⟨place_of_integer rounds equal small, abs_toInt_lt_iff.1 (by omega)⟩
  · rintro ⟨at_, -⟩
    by_contra apart
    rcases le_or_gt 0 n.power with integral | part
    · obtain ⟨k, power⟩ := Int.eq_ofNat_of_zero_le integral
      have equal : n.value = (n.integer * 10 ^ k : ℤ) := by
        rw [n.value_eq, power, zpow_natCast]
        push_cast
        rfl
      have same := at_.symm.trans (place_of_integer rounds equal small)
      exact apart (equal.trans (by exact_mod_cast same.symm))
    · obtain ⟨k, power⟩ : ∃ k : ℕ, n.power = -k := ⟨(-n.power).toNat, by omega⟩
      have unit : (0 : ℝ) < 10 ^ k := by positivity
      have value : (n.value : ℝ) * 10 ^ k = n.integer := by exact_mod_cast value_mul_pow power
      have far := one_le_distance power apart
      have near := near_of_normal rounds small normal
      have size : |(n.value : ℝ)| * 10 ^ k < 2 ^ (53 : ℤ) := by
        rw [← abs_of_pos unit, ← abs_mul, value, ← Int.cast_abs, Int.abs_eq_natAbs, n.natAbs_integer]
        exact_mod_cast few
      have less : |(n.value : ℝ)| * 2 ^ (-53 : ℤ) * 10 ^ k < 1 := by
        rw [mul_right_comm, zpow_neg, ← div_eq_mul_inv, div_lt_one (by positivity)]
        exact size
      rw [← at_, abs_mul, abs_of_pos unit] at far
      exact (far.trans (mul_le_mul_of_nonneg_right near unit.le)).not_gt less

theorem read_int (low high : Int64) {cell : String} (written : Text.trim cell = n.text) :
    (int low high).read cell = ((readInt? n.text).map Value.integer).getD .null := by
  simp only [read, written, n.isEmpty_text]
  rfl

theorem cell_inj {o o' : Option Int64} :
    (o.map Value.integer).getD .null = (o'.map Value.integer).getD .null ↔ o = o' := by
  cases o <;> cases o' <;> simp

/-- **`read_numeral_exact_iff`**: a cell of an integer column that holds a numeral holds its number, if
that is a word, and nothing otherwise, exactly if the numeral has nothing but digits and a sign or the
double nearest to the number is the same word. Whatever integer the cell holds is the number or this
double. Up to `2 ^ 53`, a numeral whose digits make less than that is read right. -/
theorem read_numeral_exact_iff (low high : Int64) {cell : String} (n : Numeral)
    (written : Text.trim cell = n.text) :
    ∃ x, Decimal.readFloat? n.text = some x ∧ Rounds n.value x ∧
      ((int low high).read cell = exactCell n.value ↔ n.isPlain = true ∨ SameWord n.value x) ∧
      (∀ i, (int low high).read cell = .integer i → n.value = i.toInt ∨ place x = i.toInt) ∧
      (n.digits < 2 ^ 53 → |n.value| ≤ 2 ^ 53 → (n.value = 0 ∨ 2 ^ (-1022 : ℤ) ≤ |n.value|) →
        (int low high).read cell = exactCell n.value) := by
  obtain ⟨x, taken, rounds⟩ := n.rounds_readFloat?
  have exact : (int low high).read cell = exactCell n.value ↔ n.isPlain = true ∨ SameWord n.value x := by
    rw [read_int low high written, exactCell, cell_inj]
    cases plain : n.isPlain with
    | true => simp [readInt?_of_isPlain plain]
    | false =>
      rw [readInt?_of_not_isPlain plain taken, SameWord]
      simp only [Bool.false_eq_true, false_or, ← exactWord?_eq_some_iff,
        ← wholeWord?_eq_some_iff rounds.isNumber]
      exact ⟨fun same i => by rw [same], fun same => Option.ext fun i => (same i).symm⟩
  refine ⟨x, taken, rounds, exact, fun i done => ?_, fun few small normal => exact.2 (.inr ?_)⟩
  · have word : readInt? n.text = some i := by
      rw [read_int low high written] at done
      exact cell_inj.1 (done.trans rfl)
    cases plain : n.isPlain with
    | true => exact .inl (exactWord?_eq_some_iff.1 ((readInt?_of_isPlain plain).symm.trans word))
    | false =>
      rw [readInt?_of_not_isPlain plain taken, wholeWord?_eq_some_iff rounds.isNumber] at word
      exact .inr word.1
  · exact sameWord_of_few rounds few small normal

/-- The numeral `-7.0`. -/
def minusSeven : Numeral :=
  ⟨some true, ['7'], some ['0'], none, List.all_eq_true.1 (by decide), by decide⟩

/-- A fraction of zeros does not harm a small integer. -/
theorem read_numeral_exact_iff_minusSeven :
    Text.trim " -7.0 " = minusSeven.text ∧ minusSeven.value = -7 ∧
    ∃ x, Decimal.readFloat? minusSeven.text = some x ∧ Rounds minusSeven.value x ∧
      ((int 0 10).read " -7.0 " = exactCell minusSeven.value ↔
        minusSeven.isPlain = true ∨ SameWord minusSeven.value x) ∧
      (∀ i, (int 0 10).read " -7.0 " = .integer i → minusSeven.value = i.toInt ∨ place x = i.toInt) ∧
      (int 0 10).read " -7.0 " = exactCell minusSeven.value := by
  have written : Text.trim " -7.0 " = minusSeven.text := by decide +kernel
  have value : minusSeven.value = -7 := by
    have digits : minusSeven.integer = -70 := by decide +kernel
    have power : minusSeven.power = -1 := by decide +kernel
    rw [Numeral.value_eq, digits, power]
    norm_num
  obtain ⟨x, taken, rounds, exact, integer, few⟩ :=
    read_numeral_exact_iff 0 10 minusSeven written
  refine ⟨written, value, x, taken, rounds, exact, integer, few (by decide +kernel) ?_ (.inr ?_)⟩
  · rw [value]
    norm_num
  · rw [value]
    have tiny : (2 : ℚ) ^ (-1022 : ℤ) ≤ 1 := zpow_le_one_of_nonpos₀ (by norm_num) (by norm_num)
    exact tiny.trans (by norm_num)

/-- The numeral `9007199254740993.0`, one more than a power of two. -/
def beyondDoubles : Numeral :=
  ⟨none, "9007199254740993".toList, some ['0'], none, List.all_eq_true.1 (by decide), by decide⟩

/-- The number of a cell may be moved, the least word is lost, and a number that is no integer may
become one. -/
theorem numeral_moved :
    beyondDoubles.text = "9007199254740993.0" ∧ beyondDoubles.value = 9007199254740993 ∧
    (int 0 10).read "9007199254740993.0" = .integer 9007199254740992 ∧
    (int 0 10).read "-9223372036854775808" = .integer (-9223372036854775808) ∧
    (int 0 10).read "-9223372036854775808.0" = .null ∧
    (int 0 10).read "0.99999999999999999999" = .integer 1 := by
  refine ⟨by decide +kernel, ?_, by decide +kernel⟩
  have digits : beyondDoubles.integer = 90071992547409930 := by decide +kernel
  have power : beyondDoubles.power = -1 := by decide +kernel
  rw [Numeral.value_eq, digits, power]
  norm_num

end PrivateQuery.ColumnType
