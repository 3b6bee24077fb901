import PrivateQuery.Proofs.Aggregate.Sensitivity
import PrivateQuery.Proofs.Frame.Operations

/-!
# Sums that are held at the ends of the range

A sum of integers is held at the ends of the range after every row. That is the exact sum, brought to
the range at the end, as long as no row takes the running sum back from beyond an end
(`foldl_addClamped`): what was lost there is missing from then on. Whether it happens depends on the
order of the rows, unless they move the sum to one side only or do not move it beyond an end even when
all that go to one side come first. Exactly then the sum is the same in every order of the rows, and
the exact one (`integerSum_exact_iff`).
-/
namespace PrivateQuery

namespace Word

/-- A running sum that no part takes back from beyond an end of the range. -/
def Steady : (sum : ℤ) → (parts : List ℤ) → Prop
  | _, [] => True
  | sum, part :: parts =>
    (9223372036854775807 < sum → 0 ≤ part) ∧ (sum < -9223372036854775808 → part ≤ 0) ∧
      Steady (sum + part) parts

def gains (parts : List ℤ) : ℤ := (parts.filter (0 ≤ ·)).sum

def losses (parts : List ℤ) : ℤ := (parts.filter (· < 0)).sum

/-- The parts all go to one side. -/
def OneSided (parts : List ℤ) : Prop := (∀ part ∈ parts, 0 ≤ part) ∨ ∀ part ∈ parts, part ≤ 0

/-- The parts go to one side, or stay within the range on both. -/
def Contained (parts : List ℤ) : Prop :=
  OneSided parts ∨ gains parts ≤ 9223372036854775807 ∧ -9223372036854775808 ≤ losses parts

variable {sum : ℤ} {parts : List ℤ}

/-! ## One order -/

theorem clamp_toInt (a : Int64) : clamp a.toInt = a := by
  have range := inRange_toInt a
  rw [← Int64.toInt_inj, toInt_clamp]
  omega

/-- A word is added to the exact sum, brought to the range, if it does not take it back. -/
theorem addClamped_clamp {part : Int64} (up : 9223372036854775807 < sum → 0 ≤ part.toInt)
    (down : sum < -9223372036854775808 → part.toInt ≤ 0) :
    addClamped (clamp sum) part = clamp (sum + part.toInt) := by
  rw [addClamped, ← Int64.toInt_inj, toInt_clamp, toInt_clamp, toInt_clamp]
  omega

/-- A steady running sum ends as the exact sum, brought to the range. -/
theorem foldl_addClamped {words : List Int64} (steady : Steady sum (words.map Int64.toInt)) :
    words.foldl addClamped (clamp sum) = clamp (sum + (words.map Int64.toInt).sum) := by
  induction words generalizing sum with
  | nil => simp
  | cons word words ih =>
    obtain ⟨up, down, rest⟩ := steady
    rw [List.foldl_cons, addClamped_clamp up down, ih rest, List.map_cons, List.sum_cons, add_assoc]

/-- From above the lower end a sum is steady that only rises, -/
theorem steady_of_nonneg (low : -9223372036854775808 ≤ sum) (up : ∀ part ∈ parts, 0 ≤ part) :
    Steady sum parts := by
  induction parts generalizing sum with
  | nil => trivial
  | cons part parts ih =>
    obtain ⟨first, rest⟩ := List.forall_mem_cons.1 up
    exact ⟨fun _ => first, fun below => by omega, ih (by omega) rest⟩

/-- and from below the upper end one that only falls. -/
theorem steady_of_nonpos (high : sum ≤ 9223372036854775807) (down : ∀ part ∈ parts, part ≤ 0) :
    Steady sum parts := by
  induction parts generalizing sum with
  | nil => trivial
  | cons part parts ih =>
    obtain ⟨first, rest⟩ := List.forall_mem_cons.1 down
    exact ⟨fun above => by omega, fun _ => first, ih (by omega) rest⟩

theorem OneSided.steady (oneSided : OneSided parts) (range : InRange sum) : Steady sum parts :=
  oneSided.elim (steady_of_nonneg range.1) (steady_of_nonpos range.2)

theorem gains_cons (part : ℤ) (parts : List ℤ) :
    gains (part :: parts) = max part 0 + gains parts := by
  by_cases up : 0 ≤ part
  · simp [gains, up]
  · simp [gains, up]
    omega

theorem losses_cons (part : ℤ) (parts : List ℤ) :
    losses (part :: parts) = min part 0 + losses parts := by
  by_cases down : part < 0
  · simp [losses, down]
    omega
  · simp [losses, down]
    omega

theorem gains_nonneg (parts : List ℤ) : 0 ≤ gains parts := by
  induction parts with
  | nil => exact le_rfl
  | cons part parts ih =>
    rw [gains_cons]
    omega

theorem losses_nonpos (parts : List ℤ) : losses parts ≤ 0 := by
  induction parts with
  | nil => exact le_rfl
  | cons part parts ih =>
    rw [losses_cons]
    omega

theorem gains_add_losses (parts : List ℤ) : gains parts + losses parts = parts.sum := by
  induction parts with
  | nil => rfl
  | cons part parts ih =>
    rw [gains_cons, losses_cons, List.sum_cons, ← ih]
    omega

/-- A sum is steady that does not leave the range even if all the gains or all the losses come
first. -/
theorem steady_of_within (high : sum + gains parts ≤ 9223372036854775807)
    (low : -9223372036854775808 ≤ sum + losses parts) : Steady sum parts := by
  induction parts generalizing sum with
  | nil => trivial
  | cons part parts ih =>
    have rises := gains_nonneg parts
    have falls := losses_nonpos parts
    rw [gains_cons] at high
    rw [losses_cons] at low
    exact ⟨fun above => by omega, fun below => by omega, ih (by omega) (by omega)⟩

theorem Contained.steady (contained : Contained parts) : Steady 0 parts := by
  rcases contained with oneSided | ⟨high, low⟩
  · exact oneSided.steady (by decide)
  · exact steady_of_within (by simpa using high) (by simpa using low)

/-! ## All orders -/

theorem Contained.perm {parts' : List ℤ} (perm : parts.Perm parts') (contained : Contained parts) :
    Contained parts' := by
  have same : gains parts = gains parts' ∧ losses parts = losses parts' :=
    ⟨(perm.filter _).sum_eq, (perm.filter _).sum_eq⟩
  simp only [Contained, OneSided, perm.mem_iff, same] at contained ⊢
  exact contained

theorem foldl_runs {first second : List Int64} (one : OneSided (first.map Int64.toInt))
    (two : OneSided (second.map Int64.toInt)) :
    (first ++ second).foldl addClamped 0 =
      clamp ((clamp (first.map Int64.toInt).sum).toInt + (second.map Int64.toInt).sum) := by
  have start : (0 : Int64) = clamp 0 := by decide
  rw [List.foldl_append, start, foldl_addClamped (one.steady (by decide)), zero_add,
    ← foldl_addClamped (two.steady (inRange_toInt _)), clamp_toInt]

/-- Gains before losses or losses before gains: beyond an end of the range it makes a difference. -/
theorem clamp_runs_ne {up down : ℤ} (rises : 0 < up) (falls : down < 0)
    (beyond : 9223372036854775807 < up ∨ down < -9223372036854775808) :
    clamp ((clamp up).toInt + down) ≠ clamp ((clamp down).toInt + up) := by
  rw [Ne, ← Int64.toInt_inj, toInt_clamp, toInt_clamp, toInt_clamp, toInt_clamp]
  omega

/-- Parts that are not contained do go to both sides, and beyond an end on one of them. -/
theorem beyond_of_not_contained (h : ¬ Contained parts) :
    0 < gains parts ∧ losses parts < 0 ∧
      (9223372036854775807 < gains parts ∨ losses parts < -9223372036854775808) := by
  simp only [Contained, OneSided, not_or, not_forall, not_and_or, not_le] at h
  obtain ⟨⟨⟨low, memL, negative⟩, ⟨high, memH, positive⟩⟩, beyond⟩ := h
  refine ⟨?_, ?_, beyond⟩
  · refine positive.trans_le (List.single_le_sum (fun part mem => ?_) high ?_)
    · simpa using (List.mem_filter.1 mem).2
    · exact List.mem_filter.2 ⟨memH, by simpa using positive.le⟩
  · have split := gains_add_losses (parts.erase low)
    have rest := losses_nonpos (parts.erase low)
    have first : losses parts = losses (low :: parts.erase low) :=
      ((List.perm_cons_erase memL).filter _).sum_eq
    rw [first, losses_cons]
    omega

theorem contained_of_size {most : ℕ} (small : ∀ part ∈ parts, part.natAbs ≤ most)
    (few : parts.length * most ≤ 9223372036854775807) : Contained parts := by
  have sizes : gains parts ≤ (parts.length * most : ℕ) ∧ -(parts.length * most : ℕ) ≤ losses parts := by
    clear few
    induction parts with
    | nil => simp [gains, losses]
    | cons part parts ih =>
      obtain ⟨first, rest⟩ := List.forall_mem_cons.1 small
      have more : (part :: parts).length * most = parts.length * most + most := by
        rw [List.length_cons, Nat.succ_mul]
      obtain ⟨high, low⟩ := ih rest
      rw [gains_cons, losses_cons, more]
      omega
  exact .inr (by omega)

end Word

/-! ## Rows -/

/-- The same rows under the same header, in another order. -/
structure Frame.Reorders (frame frame' : Frame) : Prop where
  header : frame'.header = frame.header
  rows : frame'.rows.Perm frame.rows

namespace Transformation

/-- The cell of an integer sum between its bounds, as a number; what is no integer counts as zero. -/
def boundedCell (low high : Int64) (v : Value) : ℤ :=
  max low.toInt (min high.toInt (v.toInt64?.getD 0).toInt)

/-- The cells of a column between the bounds of its sum. -/
def boundedCells (frame : Frame) (column : String) (low high : Int64) : List ℤ :=
  frame.rows.map fun row => boundedCell low high (cellNamed frame.header row column)

variable {column : String} {low high : Int64} {frame frame' : Frame}

theorem toInt_integerPart (ordered : low ≤ high) (v : Value) :
    (integerPart low high v).toInt = boundedCell low high v := by
  have hl := Word.inRange_toInt low
  have hh := Word.inRange_toInt high
  have between := Int64.le_iff_toInt_le.1 ordered
  rw [integerPart, Word.toInt_clamp, boundedCell]
  omega

/-- The sum of a column is the running sum of its cells between the bounds. -/
theorem apply_integerSum (own : column ∈ frame.header) :
    (integerSum column low high).apply frame = .ok (.integer ((frame.rows.map fun row =>
      integerPart low high (cellNamed frame.header row column)).foldl Word.addClamped 0)) := by
  simp [apply, Transformation.column, Frame.column_eq own, Except.map, applyTo, Function.comp_def]

theorem map_integerPart (ordered : low ≤ high) (column : String) (header : List String)
    (rows : List (List Value)) :
    (rows.map fun row => integerPart low high (cellNamed header row column)).map Int64.toInt =
      rows.map fun row => boundedCell low high (cellNamed header row column) := by
  simp [toInt_integerPart ordered]

/-- The sum of a column adds its cells between the bounds one after the other, and stays at an end of
the range where it would pass it. -/
theorem apply_eq_foldl (ordered : low ≤ high) (own : column ∈ frame.header) :
    (integerSum column low high).apply frame = .ok (.integer
      ((boundedCells frame column low high).foldl (fun sum cell => Word.clamp (sum.toInt + cell))
        0)) := by
  rw [apply_integerSum own, boundedCells, ← map_integerPart ordered]
  simp only [List.foldl_map, Word.addClamped]

/-- Where the running sum is steady the sum is exact. -/
theorem apply_of_steady (ordered : low ≤ high) (own : column ∈ frame.header)
    (steady : Word.Steady 0 (boundedCells frame column low high)) :
    (integerSum column low high).apply frame =
      .ok (.integer (Word.clamp (boundedCells frame column low high).sum)) := by
  have start : (0 : Int64) = Word.clamp 0 := by decide
  rw [boundedCells, ← map_integerPart ordered] at steady
  rw [apply_integerSum own, start, Word.foldl_addClamped steady, map_integerPart ordered, zero_add]
  rfl

theorem boundedCells_perm (reorders : frame.Reorders frame') (column : String) (low high : Int64) :
    (boundedCells frame' column low high).Perm (boundedCells frame column low high) := by
  unfold boundedCells
  rw [reorders.header]
  exact reorders.rows.map _

/-- Contained cells add up to the same in every order. -/
theorem apply_of_contained (ordered : low ≤ high) (own : column ∈ frame.header)
    (contained : Word.Contained (boundedCells frame column low high))
    (reorders : frame.Reorders frame') :
    (integerSum column low high).apply frame' =
      .ok (.integer (Word.clamp (boundedCells frame column low high).sum)) := by
  have perm := boundedCells_perm reorders column low high
  rw [apply_of_steady ordered (reorders.header ▸ own) (contained.perm perm.symm).steady, perm.sum_eq]

/-- The frame with the rows first that satisfy a test. -/
def putFirst (frame : Frame) (test : List Value → Bool) : Frame :=
  ⟨frame.header, frame.rows.filter test ++ frame.rows.filter (fun row => !test row), by
    intro row mem
    refine frame.rectangular row ?_
    rcases List.mem_append.1 mem with first | second
    · exact (List.mem_filter.1 first).1
    · exact (List.mem_filter.1 second).1⟩

theorem reorders_putFirst (frame : Frame) (test : List Value → Bool) :
    frame.Reorders (putFirst frame test) :=
  ⟨rfl, List.filter_append_perm test frame.rows⟩

/-- The sum with the rows first whose cells are not negative, and with them last. -/
theorem apply_putFirst (ordered : low ≤ high) (own : column ∈ frame.header) (test : ℤ → Bool)
    (one : Word.OneSided ((boundedCells frame column low high).filter test))
    (two : Word.OneSided ((boundedCells frame column low high).filter fun cell => !test cell)) :
    (integerSum column low high).apply (putFirst frame fun row =>
        test (boundedCell low high (cellNamed frame.header row column))) =
      .ok (.integer (Word.clamp
        ((Word.clamp ((boundedCells frame column low high).filter test).sum).toInt +
          ((boundedCells frame column low high).filter fun cell => !test cell).sum))) := by
  have cells (test : ℤ → Bool) : (boundedCells frame column low high).filter test =
      ((frame.rows.filter fun row =>
        test (boundedCell low high (cellNamed frame.header row column))).map fun row =>
          integerPart low high (cellNamed frame.header row column)).map Int64.toInt := by
    rw [map_integerPart ordered, boundedCells, List.filter_map]
    rfl
  rw [cells] at one two
  have header : column ∈ (putFirst frame fun row =>
      test (boundedCell low high (cellNamed frame.header row column))).header := own
  rw [apply_integerSum header, cells, cells, ← Word.foldl_runs one two, putFirst, List.map_append]

/-- A sum that is the same with the gains first and with the losses first is of contained cells. -/
theorem contained_of_settled (ordered : low ≤ high) (own : column ∈ frame.header)
    (settled : ∀ frame', frame.Reorders frame' →
      (integerSum column low high).apply frame' = (integerSum column low high).apply frame) :
    Word.Contained (boundedCells frame column low high) := by
  by_contra notContained
  obtain ⟨rises, falls, beyond⟩ := Word.beyond_of_not_contained notContained
  have up (cells : List ℤ) : Word.OneSided (cells.filter (0 ≤ ·)) :=
    .inl fun cell mem => by simpa using (List.mem_filter.1 mem).2
  have down (cells : List ℤ) : Word.OneSided (cells.filter (· < 0)) :=
    .inr fun cell mem => le_of_lt (by simpa using (List.mem_filter.1 mem).2)
  have notUp : (fun cell : ℤ => !decide (0 ≤ cell)) = fun cell => decide (cell < 0) := by
    funext cell
    rw [← decide_not, decide_eq_decide, not_le]
  have notDown : (fun cell : ℤ => !decide (cell < 0)) = fun cell => decide (0 ≤ cell) := by
    funext cell
    rw [← decide_not, decide_eq_decide, not_lt]
  have gainsFirst := apply_putFirst ordered own (0 ≤ ·) (up _) (notUp ▸ down _)
  have lossesFirst := apply_putFirst ordered own (· < 0) (down _) (notDown ▸ up _)
  rw [settled _ (reorders_putFirst frame _), notUp] at gainsFirst
  rw [settled _ (reorders_putFirst frame _), notDown, gainsFirst, Except.ok.injEq,
    Aggregate.integer.injEq] at lossesFirst
  exact Word.clamp_runs_ne rises falls beyond lossesFirst

/-- Bounds on one side of zero and few rows contain the cells. -/
theorem contained_of_bounds (narrow : 0 ≤ low ∨ high ≤ 0 ∨
      frame.rows.length * max low.toInt.natAbs high.toInt.natAbs ≤ 9223372036854775807)
    (ordered : low ≤ high) : Word.Contained (boundedCells frame column low high) := by
  have between := Int64.le_iff_toInt_le.1 ordered
  have size (part : ℤ) (mem : part ∈ boundedCells frame column low high) :
      low.toInt ≤ part ∧ part ≤ high.toInt := by
    obtain ⟨row, -, rfl⟩ := List.mem_map.1 mem
    unfold boundedCell
    omega
  rcases narrow with up | down | few
  · have zero := Int64.le_iff_toInt_le.1 up
    rw [Int64.toInt_zero] at zero
    exact .inl (.inl fun part mem => zero.trans (size part mem).1)
  · have zero := Int64.le_iff_toInt_le.1 down
    rw [Int64.toInt_zero] at zero
    exact .inl (.inr fun part mem => (size part mem).2.trans zero)
  · have small : ∀ part ∈ boundedCells frame column low high,
        part.natAbs ≤ max low.toInt.natAbs high.toInt.natAbs := by
      intro part mem
      have := size part mem
      omega
    refine Word.contained_of_size small ?_
    rwa [boundedCells, List.length_map]

/-- **`integerSum_exact_iff`**: a sum of integers adds the cells between the bounds one after the other
and saturates at the ends of the range. It is the exact sum of these cells, brought to the range, if no
row takes the running sum back from beyond an end of the range. It is that sum in every order of the
rows, and the same sum in every order, exactly if the cells go to one side only or add up to no more
than the range holds on both; this is so for bounds on one side of zero and for few enough rows. -/
theorem integerSum_exact_iff (frame : Frame) (column : String) (low high : Int64)
    (ordered : low ≤ high) (own : column ∈ frame.header) :
    (integerSum column low high).apply frame = .ok (.integer
      ((boundedCells frame column low high).foldl (fun sum cell => Word.clamp (sum.toInt + cell))
        0)) ∧
    (Word.Steady 0 (boundedCells frame column low high) →
      (integerSum column low high).apply frame =
        .ok (.integer (Word.clamp (boundedCells frame column low high).sum))) ∧
    (Word.Contained (boundedCells frame column low high) ↔
      ∀ frame', frame.Reorders frame' → (integerSum column low high).apply frame' =
        .ok (.integer (Word.clamp (boundedCells frame column low high).sum))) ∧
    (Word.Contained (boundedCells frame column low high) ↔
      ∀ frame', frame.Reorders frame' →
        (integerSum column low high).apply frame' = (integerSum column low high).apply frame) ∧
    (0 ≤ low ∨ high ≤ 0 ∨
        frame.rows.length * max low.toInt.natAbs high.toInt.natAbs ≤ 9223372036854775807 →
      Word.Contained (boundedCells frame column low high)) := by
  have refl : frame.Reorders frame := ⟨rfl, .refl _⟩
  have exact (contained : Word.Contained (boundedCells frame column low high)) (frame' : Frame)
      (reorders : frame.Reorders frame') := apply_of_contained ordered own contained reorders
  refine ⟨apply_eq_foldl ordered own, apply_of_steady ordered own,
    ⟨exact, fun settled => contained_of_settled ordered own fun frame' reorders => ?_⟩,
    ⟨fun contained frame' reorders => ?_, contained_of_settled ordered own⟩,
    fun narrow => contained_of_bounds narrow ordered⟩
  · rw [settled frame' reorders, settled frame refl]
  · rw [exact contained frame' reorders, exact contained frame refl]

/-- Ages, one of which is missing and one beyond the bounds. -/
theorem integerSum_exact_iff_ages :
    (18 : Int64) ≤ 90 ∧ "age" ∈ ["age"] ∧ ∀ ages : Frame,
      ages = ⟨["age"], [[.integer 20], [.integer 95], [.null]], by simp⟩ →
      (integerSum "age" 18 90).apply ages = .ok (.integer ((boundedCells ages "age" 18 90).foldl
        (fun sum cell => Word.clamp (sum.toInt + cell)) 0)) ∧
      (Word.Steady 0 (boundedCells ages "age" 18 90) →
        (integerSum "age" 18 90).apply ages =
          .ok (.integer (Word.clamp (boundedCells ages "age" 18 90).sum))) ∧
      (Word.Contained (boundedCells ages "age" 18 90) ↔
        ∀ frame', ages.Reorders frame' → (integerSum "age" 18 90).apply frame' =
          .ok (.integer (Word.clamp (boundedCells ages "age" 18 90).sum))) ∧
      (Word.Contained (boundedCells ages "age" 18 90) ↔
        ∀ frame', ages.Reorders frame' →
          (integerSum "age" 18 90).apply frame' = (integerSum "age" 18 90).apply ages) ∧
      (0 ≤ (18 : Int64) ∨ (90 : Int64) ≤ 0 ∨
          ages.rows.length * max (18 : Int64).toInt.natAbs (90 : Int64).toInt.natAbs ≤
            9223372036854775807 →
        Word.Contained (boundedCells ages "age" 18 90)) := by
  refine ⟨by decide, by decide, ?_⟩
  rintro ages rfl
  exact integerSum_exact_iff _ "age" 18 90 (by decide) (by decide)

/-- The largest word, one more and one less: the one more is lost, and the sum is one less than the
exact one, which would fit. In another order of the rows nothing is lost. -/
theorem sum_not_regained :
    (integerSum "x" (-9223372036854775808) 9223372036854775807).apply
        ⟨["x"], [[.integer 9223372036854775807], [.integer 1], [.integer (-1)]], by decide⟩ =
      .ok (.integer 9223372036854775806) ∧
    (boundedCells ⟨["x"], [[.integer 9223372036854775807], [.integer 1], [.integer (-1)]],
      by decide⟩ "x" (-9223372036854775808) 9223372036854775807).sum = 9223372036854775807 ∧
    (integerSum "x" (-9223372036854775808) 9223372036854775807).apply
        ⟨["x"], [[.integer 1], [.integer (-1)], [.integer 9223372036854775807]], by decide⟩ =
      .ok (.integer 9223372036854775807) := by
  decide +kernel

end Transformation

end PrivateQuery
