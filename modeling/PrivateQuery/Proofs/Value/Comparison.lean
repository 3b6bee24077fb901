import PrivateQuery.Predicate.Operator
import PrivateQuery.Proofs.Binary64.Integers
import Mathlib.Data.String.Basic

/-!
# Comparison of mixed values

Two integers are compared as they are, an integer and a double after the integer has been rounded. Both
ways keep the order of the levels (`atMost_iff`), but integers that become the same double are
level with it and not with each other. That is the only way in which comparison fails to be transitive
(`comparison_transitive_iff`), and it takes an integer of more than 53 bits.
-/
namespace PrivateQuery.Value

open Binary64 (place ofInt IsNumber)

variable {a b c : Value} {x y : Float} {i j : Int64}

/-! ## Levels -/

/-- Comparison puts a value before another one or level with it. -/
def AtMost (a b : Value) : Prop := a.compare? b = some .lt ∨ a.compare? b = some .eq

instance AtMost.decidable (a b : Value) : Decidable (AtMost a b) :=
  inferInstanceAs (Decidable (_ ∨ _))

/-- An integer, or a double that is a number. -/
inductive IsNumeric : Value → Prop where
  | integer (i : Int64) : IsNumeric (.integer i)
  | real {x : Float} (number : IsNumber x) : IsNumeric (.real x)

/-- The place of a number as a double. -/
noncomputable def level : Value → ℝ
  | integer i => place (ofInt i.toInt)
  | real x => place x
  | _ => 0

theorem compareFloats?_eq (hx : IsNumber x) (hy : IsNumber y) :
    compareFloats? x y = some (cmp (place x) (place y)) := by
  unfold compareFloats?
  rcases lt_trichotomy (place x) (place y) with less | same | more
  · rw [if_pos (Binary64.lt_iff.2 ⟨hx, hy, less⟩), (cmp_eq_lt_iff _ _).2 less]
  · rw [if_neg fun h => (Binary64.lt_iff.1 h).2.2.ne same,
      if_pos (Binary64.beq_iff.2 ⟨hx, hy, same⟩), (cmp_eq_eq_iff _ _).2 same]
  · rw [if_neg fun h => (Binary64.lt_iff.1 h).2.2.not_gt more,
      if_neg fun h => more.ne' (Binary64.beq_iff.1 h).2.2,
      if_pos (Binary64.lt_iff.2 ⟨hy, hx, more⟩), (cmp_eq_gt_iff _ _).2 more]

theorem isNumber_of_compareFloats? {o : Ordering} (h : compareFloats? x y = some o) :
    IsNumber x ∧ IsNumber y := by
  unfold compareFloats? at h
  split_ifs at h with less same more
  · exact ⟨(Binary64.lt_iff.1 less).1, (Binary64.lt_iff.1 less).2.1⟩
  · exact ⟨(Binary64.beq_iff.1 same).1, (Binary64.beq_iff.1 same).2.1⟩
  · exact ⟨(Binary64.lt_iff.1 more).2.1, (Binary64.lt_iff.1 more).1⟩

theorem compare?_integers (i j : Int64) :
    (integer i).compare? (integer j) = some (cmp i.toInt j.toInt) := by
  rw [compare?, cmp_eq_compare]

theorem compare?_booleans (p q : Bool) : (boolean p).compare? (boolean q) = some (cmp p q) := by
  rw [compare?, cmp_eq_compare]

theorem compare?_texts (s t : String) : (text s).compare? (text t) = some (cmp s t) := by
  rw [compare?, cmp_eq_compare]

theorem compare?_real_left (hx : IsNumber x) (hb : b.IsNumeric) :
    (real x).compare? b = some (cmp (place x) b.level) := by
  cases hb with
  | integer j => exact compareFloats?_eq hx (Binary64.isNumber_ofInt _)
  | real hy => exact compareFloats?_eq hx hy

theorem compare?_real_right (ha : a.IsNumeric) (hy : IsNumber y) :
    a.compare? (real y) = some (cmp a.level (place y)) := by
  cases ha with
  | integer i => exact compareFloats?_eq (Binary64.isNumber_ofInt _) hy
  | real hx => exact compareFloats?_eq hx hy

section
variable {α : Type} [LinearOrder α] {p q : α}

theorem atMost_iff (compared : a.compare? b = some (cmp p q)) : a.AtMost b ↔ p ≤ q := by
  rw [AtMost, compared, Option.some.injEq, Option.some.injEq, cmp_eq_lt_iff, cmp_eq_eq_iff]
  exact le_iff_lt_or_eq.symm

theorem level_iff (compared : a.compare? b = some (cmp p q)) : a.compare? b = some .eq ↔ p = q := by
  rw [compared, Option.some.injEq, cmp_eq_eq_iff]

end

/-- What is compared are two truth values, two texts or two numbers. -/
theorem AtMost.kinds (h : a.AtMost b) :
    (∃ p q, a = .boolean p ∧ b = .boolean q) ∨ (∃ s t, a = .text s ∧ b = .text t) ∨
      (a.IsNumeric ∧ b.IsNumeric) := by
  obtain ⟨o, compared⟩ : ∃ o, a.compare? b = some o := h.elim (⟨_, ·⟩) (⟨_, ·⟩)
  cases a with
  | null => cases b <;> simp [compare?, toFloat?] at compared
  | boolean p =>
    cases b with
    | boolean q => exact .inl ⟨p, q, rfl, rfl⟩
    | _ => simp [compare?, toFloat?] at compared
  | text s =>
    cases b with
    | text t => exact .inr (.inl ⟨s, t, rfl, rfl⟩)
    | _ => simp [compare?, toFloat?] at compared
  | integer i =>
    cases b with
    | integer j => exact .inr (.inr ⟨.integer i, .integer j⟩)
    | real y => exact .inr (.inr ⟨.integer i, .real (isNumber_of_compareFloats? compared).2⟩)
    | _ => simp [compare?, toFloat?] at compared
  | real x =>
    cases b with
    | integer j => exact .inr (.inr ⟨.real (isNumber_of_compareFloats? compared).1, .integer j⟩)
    | real y =>
      have numbers := isNumber_of_compareFloats? compared
      exact .inr (.inr ⟨.real numbers.1, .real numbers.2⟩)
    | _ => simp [compare?, toFloat?] at compared

/-! ## Integers that become the same double -/

/-- Two integers in order with a double that is level with both, read around in a circle. -/
inductive Blurred : Value → Value → Value → Prop where
  | last {i j : Int64} {x : Float} (less : i < j) (low : (ofInt i.toInt == x) = true)
      (high : (ofInt j.toInt == x) = true) : Blurred (.integer i) (.integer j) (.real x)
  | middle {i j : Int64} {x : Float} (less : i < j) (low : (ofInt i.toInt == x) = true)
      (high : (ofInt j.toInt == x) = true) : Blurred (.integer j) (.real x) (.integer i)
  | first {i j : Int64} {x : Float} (less : i < j) (low : (ofInt i.toInt == x) = true)
      (high : (ofInt j.toInt == x) = true) : Blurred (.real x) (.integer i) (.integer j)

theorem ofInt_beq_iff (hx : IsNumber x) :
    (ofInt i.toInt == x) = true ↔ place (ofInt i.toInt) = place x := by
  rw [Binary64.beq_iff]
  exact ⟨fun h => h.2.2, fun same => ⟨Binary64.isNumber_ofInt _, hx, same⟩⟩

theorem blurred_last_iff (hx : IsNumber x) : Blurred (.integer i) (.integer j) (.real x) ↔
    i.toInt < j.toInt ∧ place (ofInt i.toInt) = place x ∧ place (ofInt j.toInt) = place x := by
  rw [← Int64.lt_iff_toInt_lt, ← ofInt_beq_iff hx, ← ofInt_beq_iff hx]
  exact ⟨fun | .last less low high => ⟨less, low, high⟩, fun h => .last h.1 h.2.1 h.2.2⟩

theorem blurred_middle_iff (hx : IsNumber x) : Blurred (.integer j) (.real x) (.integer i) ↔
    i.toInt < j.toInt ∧ place (ofInt i.toInt) = place x ∧ place (ofInt j.toInt) = place x := by
  rw [← Int64.lt_iff_toInt_lt, ← ofInt_beq_iff hx, ← ofInt_beq_iff hx]
  exact ⟨fun | .middle less low high => ⟨less, low, high⟩, fun h => .middle h.1 h.2.1 h.2.2⟩

theorem blurred_first_iff (hx : IsNumber x) : Blurred (.real x) (.integer i) (.integer j) ↔
    i.toInt < j.toInt ∧ place (ofInt i.toInt) = place x ∧ place (ofInt j.toInt) = place x := by
  rw [← Int64.lt_iff_toInt_lt, ← ofInt_beq_iff hx, ← ofInt_beq_iff hx]
  exact ⟨fun | .first less low high => ⟨less, low, high⟩, fun h => .first h.1 h.2.1 h.2.2⟩

theorem Blurred.large (h : Blurred a b c) :
    ∃ i, .integer i ∈ [a, b, c] ∧ 2 ^ 53 < i.toInt.natAbs := by
  have two {i j : Int64} {x : Float} (less : i < j) (low : (ofInt i.toInt == x) = true)
      (high : (ofInt j.toInt == x) = true) :
      2 ^ 53 < i.toInt.natAbs ∨ 2 ^ 53 < j.toInt.natAbs := by
    refine Binary64.large_of_place_eq ?_ (Int64.lt_iff_toInt_lt.1 less).ne
    exact (Binary64.beq_iff.1 low).2.2.trans (Binary64.beq_iff.1 high).2.2.symm
  cases h with
  | last less low high => rcases two less low high with large | large <;> exact ⟨_, by simp, large⟩
  | middle less low high => rcases two less low high with large | large <;> exact ⟨_, by simp, large⟩
  | first less low high => rcases two less low high with large | large <;> exact ⟨_, by simp, large⟩

/-! ## Chains -/

/-- The ends of a chain compare as its links do: the first is at most the last, and level with it only
if all three are level. -/
def Chained (a b c : Value) : Prop :=
  a.AtMost c ∧ (a.compare? c = some .eq → a.compare? b = some .eq ∧ b.compare? c = some .eq)

theorem chained_of_order {α : Type} [LinearOrder α] {p q r : α}
    (ab : a.compare? b = some (cmp p q)) (bc : b.compare? c = some (cmp q r))
    (ac : a.compare? c = some (cmp p r)) (first : a.AtMost b) (second : b.AtMost c) :
    Chained a b c := by
  rw [atMost_iff ab] at first
  rw [atMost_iff bc] at second
  refine ⟨(atMost_iff ac).2 (first.trans second), fun level => ?_⟩
  rw [level_iff ac] at level
  subst level
  exact ⟨(level_iff ab).2 (first.antisymm second), (level_iff bc).2 (second.antisymm first)⟩

theorem chained_integers_iff (hx : IsNumber x)
    (first : (integer i).AtMost (integer j)) (second : (integer j).AtMost (real x)) :
    Chained (.integer i) (.integer j) (.real x) ↔ ¬ Blurred (.integer i) (.integer j) (.real x) := by
  have ab := compare?_integers i j
  have bc := compare?_real_right (.integer j) hx
  have ac := compare?_real_right (.integer i) hx
  rw [atMost_iff ab] at first
  rw [atMost_iff bc] at second
  have low : place (ofInt i.toInt) ≤ place (ofInt j.toInt) := Binary64.place_ofInt_mono first
  rw [Chained, atMost_iff ac, level_iff ac, level_iff ab, level_iff bc, blurred_last_iff hx]
  simp only [level] at second ⊢
  constructor
  · rintro ⟨-, chain⟩ ⟨less, same, -⟩
    exact less.ne (chain same).1
  · intro clear
    refine ⟨low.trans second, fun same => ?_⟩
    have high : place (ofInt j.toInt) = place x := second.antisymm (same ▸ low)
    exact ⟨first.antisymm (not_lt.1 fun less => clear ⟨less, same, high⟩), high⟩

theorem chained_around_iff (hx : IsNumber x)
    (first : (integer j).AtMost (real x)) (second : (real x).AtMost (integer i)) :
    Chained (.integer j) (.real x) (.integer i) ↔ ¬ Blurred (.integer j) (.real x) (.integer i) := by
  have ab := compare?_real_right (.integer j) hx
  have bc := compare?_real_left hx (.integer i)
  have ac := compare?_integers j i
  rw [atMost_iff ab] at first
  rw [atMost_iff bc] at second
  rw [Chained, atMost_iff ac, level_iff ac, level_iff ab, level_iff bc, blurred_middle_iff hx]
  simp only [level] at first second ⊢
  constructor
  · rintro ⟨ordered, -⟩ ⟨less, -⟩
    exact ordered.not_gt less
  · intro clear
    refine ⟨not_lt.1 fun less => clear ⟨less, ?_⟩, fun same => ?_⟩
    · have low : place (ofInt i.toInt) ≤ place (ofInt j.toInt) :=
        Binary64.place_ofInt_mono less.le
      exact ⟨(low.trans first).antisymm second, first.antisymm (second.trans low)⟩
    · rw [← same] at second ⊢
      exact ⟨first.antisymm second, second.antisymm first⟩

theorem chained_above_iff (hx : IsNumber x)
    (first : (real x).AtMost (integer i)) (second : (integer i).AtMost (integer j)) :
    Chained (.real x) (.integer i) (.integer j) ↔ ¬ Blurred (.real x) (.integer i) (.integer j) := by
  have ab := compare?_real_left hx (.integer i)
  have bc := compare?_integers i j
  have ac := compare?_real_left hx (.integer j)
  rw [atMost_iff ab] at first
  rw [atMost_iff bc] at second
  have high : place (ofInt i.toInt) ≤ place (ofInt j.toInt) := Binary64.place_ofInt_mono second
  rw [Chained, atMost_iff ac, level_iff ac, level_iff ab, level_iff bc, blurred_first_iff hx]
  simp only [level] at first ⊢
  constructor
  · rintro ⟨-, chain⟩ ⟨less, -, same⟩
    exact less.ne (chain same.symm).2
  · intro clear
    refine ⟨first.trans high, fun same => ?_⟩
    have low : place x = place (ofInt i.toInt) := first.antisymm (same ▸ high)
    exact ⟨low, second.antisymm (not_lt.1 fun less => clear ⟨less, low.symm, same.symm⟩)⟩

/-- A chain of three numbers compares as it should unless it is blurred. -/
theorem chained_numbers_iff (ha : a.IsNumeric) (hb : b.IsNumeric) (hc : c.IsNumeric)
    (first : a.AtMost b) (second : b.AtMost c) : Chained a b c ↔ ¬ Blurred a b c := by
  cases ha with
  | integer i =>
    cases hb with
    | integer j =>
      cases hc with
      | integer k =>
        exact iff_of_true (chained_of_order (compare?_integers i j) (compare?_integers j k)
          (compare?_integers i k) first second) nofun
      | real hz => exact chained_integers_iff hz first second
    | real hy =>
      cases hc with
      | integer k => exact chained_around_iff hy first second
      | real hz =>
        exact iff_of_true (chained_of_order (compare?_real_right (.integer i) hy)
          (compare?_real_right (.real hy) hz) (compare?_real_right (.integer i) hz) first second) nofun
  | real hx =>
    cases hb with
    | integer j =>
      cases hc with
      | integer k => exact chained_above_iff hx first second
      | real hz =>
        exact iff_of_true (chained_of_order (compare?_real_left hx (.integer j))
          (compare?_real_right (.integer j) hz) (compare?_real_right (.real hx) hz) first second) nofun
    | real hy =>
      exact iff_of_true (chained_of_order (compare?_real_left hx (.real hy))
        (compare?_real_left hy hc) (compare?_real_left hx hc) first second) (by cases hc <;> nofun)

/-! ## Bounds written as doubles -/

def comparisons : List BinaryOperator := [.eq, .notEq, .lt, .ltEq, .gt, .gtEq]

/-- Operators that compare only see how their operands do. -/
theorem apply_congr {op : BinaryOperator} (compares : op ∈ comparisons) {v : Value}
    (hb : b.IsNumeric) (hc : c.IsNumeric) (same : v.compare? b = v.compare? c) :
    op.apply v b = op.apply v c := by
  have present {d : Value} (h : d.IsNumeric) : d.isNull = false := by cases h <;> rfl
  simp only [comparisons, List.mem_cons, List.not_mem_nil, or_false] at compares
  rcases compares with rfl | rfl | rfl | rfl | rfl | rfl <;>
    simp only [BinaryOperator.apply, BinaryOperator.onPresent, BinaryOperator.ordered, present hb,
      present hc, same]

/-- A bound may be written as the double that it becomes exactly for the integers that do not become
the same one. -/
theorem bound_as_double_iff (i k : Int64) :
    (∀ op ∈ comparisons,
      op.apply (.integer i) (.real (ofInt k.toInt)) = op.apply (.integer i) (.integer k)) ↔
    ((ofInt i.toInt == ofInt k.toInt) = true → i = k) := by
  have number := Binary64.isNumber_ofInt k.toInt
  have rounded := compare?_real_right (.integer i) number
  have exact := compare?_integers i k
  rw [ofInt_beq_iff number]
  simp only [level] at rounded
  constructor
  · intro agree same
    have level := agree .eq (by simp [comparisons])
    rw [(cmp_eq_eq_iff _ _).2 same] at rounded
    simp only [BinaryOperator.apply, isNull, Bool.or_self, Bool.false_eq_true, if_false,
      BinaryOperator.onPresent, rounded, beq_self_eq_true, boolean.injEq] at level
    rw [exact, eq_comm, beq_iff_eq, Option.some.injEq, cmp_eq_eq_iff] at level
    exact Int64.toInt_inj.1 level
  · intro apart op compares
    refine apply_congr compares (.real number) (.integer k) ?_
    rw [rounded, exact, Option.some.injEq]
    rcases lt_trichotomy i.toInt k.toInt with less | same | more
    · have ne : place (ofInt i.toInt) ≠ place (ofInt k.toInt) := fun h => by
        rw [apart h] at less
        exact lt_irrefl _ less
      rw [(cmp_eq_lt_iff _ _).2 less,
        (cmp_eq_lt_iff _ _).2 (lt_of_le_of_ne (Binary64.place_ofInt_mono less.le) ne)]
    · rw [same, cmp_self_eq_eq, cmp_self_eq_eq]
    · have ne : place (ofInt k.toInt) ≠ place (ofInt i.toInt) := fun h => by
        rw [apart h.symm] at more
        exact lt_irrefl _ more
      rw [(cmp_eq_gt_iff _ _).2 more,
        (cmp_eq_gt_iff _ _).2 (lt_of_le_of_ne (Binary64.place_ofInt_mono more.le) ne)]

/-! ## Transitivity -/

/-- **`comparison_transitive_iff`**: the ends of a chain compare as its links do, whatever kinds of
values they are, exactly if the chain is not two integers in order and a double that both become. So a
bound can be written as an integer or as a double, except where an integer becomes the same double as
another one, of which one has more than 53 bits. -/
theorem comparison_transitive_iff {a b c : Value} (first : a.AtMost b) (second : b.AtMost c) :
    (Chained a b c ↔ ¬ Blurred a b c) ∧
    (Blurred a b c → ∃ i, .integer i ∈ [a, b, c] ∧ 2 ^ 53 < i.toInt.natAbs) ∧
    ∀ i k : Int64,
      (∀ op ∈ comparisons,
        op.apply (.integer i) (.real (ofInt k.toInt)) = op.apply (.integer i) (.integer k)) ↔
      ((ofInt i.toInt == ofInt k.toInt) = true → i = k) := by
  refine ⟨?_, Blurred.large, bound_as_double_iff⟩
  rcases first.kinds with ⟨p, q, rfl, rfl⟩ | ⟨s, t, rfl, rfl⟩ | ⟨ha, hb⟩
  · rcases second.kinds with ⟨q, r, ⟨⟩, rfl⟩ | ⟨_, _, ⟨⟩, _⟩ | ⟨⟨⟩, _⟩
    exact iff_of_true (chained_of_order (compare?_booleans p q) (compare?_booleans q r)
      (compare?_booleans p r) first second) nofun
  · rcases second.kinds with ⟨_, _, ⟨⟩, _⟩ | ⟨t, u, ⟨⟩, rfl⟩ | ⟨⟨⟩, _⟩
    exact iff_of_true (chained_of_order (compare?_texts s t) (compare?_texts t u)
      (compare?_texts s u) first second) nofun
  · rcases second.kinds with ⟨_, _, rfl, _⟩ | ⟨_, _, rfl, _⟩ | ⟨-, hc⟩
    · cases hb
    · cases hb
    · exact chained_numbers_iff ha hb hc first second

/-- Two integers become the double between them; in ascending order that does no harm. -/
theorem comparison_transitive_iff_ascending :
    (integer 9007199254740992).AtMost (real 9007199254740992.0) ∧
    (real 9007199254740992.0).AtMost (integer 9007199254740993) ∧
    Chained (.integer 9007199254740992) (.real 9007199254740992.0) (.integer 9007199254740993) ∧
    ∀ op ∈ comparisons,
      op.apply (.integer 9007199254740993) (.real (ofInt (18 : Int64).toInt)) =
        op.apply (.integer 9007199254740993) (.integer 18) := by
  have first : (integer 9007199254740992).AtMost (real 9007199254740992.0) := by decide +kernel
  have second : (real 9007199254740992.0).AtMost (integer 9007199254740993) := by decide +kernel
  obtain ⟨chained, -, bounds⟩ := comparison_transitive_iff first second
  refine ⟨first, second, chained.2 ?_, (bounds _ _).2 ?_⟩
  · have number : IsNumber 9007199254740992.0 := Binary64.isNaN_eq_false_iff.1 (by decide)
    rw [blurred_middle_iff number]
    exact fun blurred => absurd blurred.1 (by decide)
  · intro same
    exact absurd same (by decide +kernel)

/-- In descending order the ends of a chain of equals are not equal, and a filter keeps the integer
if its bound is written as the double and drops it otherwise. -/
theorem chain_of_equals_descends :
    (integer 9007199254740993).AtMost (real 9007199254740992.0) ∧
    (real 9007199254740992.0).AtMost (integer 9007199254740992) ∧
    ¬ (integer 9007199254740993).AtMost (integer 9007199254740992) ∧
    BinaryOperator.ltEq.apply (.integer 9007199254740993) (.real 9007199254740992.0) =
      .boolean true ∧
    BinaryOperator.ltEq.apply (.integer 9007199254740993) (.integer 9007199254740992) =
      .boolean false := by
  decide +kernel

end PrivateQuery.Value
