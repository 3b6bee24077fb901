import PrivateQuery.Proofs.Aggregate.Sensitivity
import PrivateQuery.Proofs.Frame.Operations
import PrivateQuery.Proofs.Value.Identity

/-!
# Counts by categories

The counting loop puts each value under the first category that is the same. Of distinct categories no
other one is, so each count ends as the number of values that are the same as its category
(`countAll_eq`). A value then counts at most once, and the counts add up to the number of values that
have a category (`sum_countAll`).
-/
namespace PrivateQuery.Transformation

variable {categories : List Value}

theorem countValue_zipWith (distinct : Value.Distinct categories) {counts : List ℕ}
    (each : counts.length = categories.length) (v : Value) :
    countValue categories counts v =
      List.zipWith (fun k n => n + if k == v then 1 else 0) categories counts := by
  induction categories generalizing counts with
  | nil => simp [countValue, List.eq_nil_of_length_eq_zero each]
  | cons k rest ih =>
    obtain ⟨n, counts, rfl⟩ := List.exists_cons_of_length_eq_add_one each
    obtain ⟨apart, rest'⟩ := List.pairwise_cons.1 distinct
    have each' : counts.length = rest.length := by simpa using each
    by_cases here : (k == v) = true
    · have others : List.zipWith (fun k n => n + if k == v then 1 else 0) rest counts = counts := by
        refine List.ext_getElem (by simp [each']) fun i hi _ => ?_
        have within : i < rest.length := by simp at hi; omega
        have other : (rest[i] == v) = false := by
          by_contra same
          have both : (k == rest[i]) = true := BEq.trans here (BEq.symm (by simpa using same))
          simp [apart _ (List.getElem_mem within)] at both
        simp [other]
      simp [countValue, List.findIdx?_cons, here, others]
    · have below := ih rest' each'
      simp only [countValue] at below ⊢
      rw [List.findIdx?_cons, if_neg here]
      cases found : rest.findIdx? (· == v) with
      | none => simpa [found, here] using below
      | some i => simpa [found, here] using below

theorem countValue_map (distinct : Value.Distinct categories) (f : Value → ℕ) (v : Value) :
    countValue categories (categories.map f) v =
      categories.map fun k => f k + if k == v then 1 else 0 := by
  rw [countValue_zipWith distinct (by simp), List.zipWith_map_right, List.zipWith_self]

/-- Values that are counted one after the other add to the count of each category as many as are the
same. -/
theorem foldl_countValue (distinct : Value.Distinct categories) (f : Value → ℕ)
    (values : List Value) :
    values.foldl (countValue categories) (categories.map f) =
      categories.map fun k => f k + values.countP (k == ·) := by
  induction values generalizing f with
  | nil => simp
  | cons v values ih =>
    rw [List.foldl_cons, countValue_map distinct, ih]
    refine List.map_congr_left fun k _ => ?_
    rw [List.countP_cons]
    omega

/-- **`countAll_eq`**: the count of each of distinct categories is the number of values that are the
same. -/
theorem countAll_eq (distinct : Value.Distinct categories) (values : List Value) :
    countAll categories values = categories.map fun k => values.countP (k == ·) := by
  have start : List.replicate categories.length 0 = categories.map fun _ => 0 := by simp
  rw [countAll, start, foldl_countValue distinct]
  simp

theorem sum_indicator {α : Type} (p : α → Bool) (l : List α) :
    (l.map fun a => if p a then 1 else 0).sum = l.countP p := by
  rw [List.sum_map_ite]
  simp [List.countP_eq_length_filter]

/-- It makes no difference to the sum whether the values of each category are counted or the categories
of each value. -/
theorem sum_countP (categories values : List Value) :
    (categories.map fun k => values.countP (k == ·)).sum =
      (values.map fun v => categories.countP (· == v)).sum := by
  induction values with
  | nil => simp
  | cons v values ih =>
    calc (categories.map fun k => (v :: values).countP (k == ·)).sum
        = (categories.map fun k => values.countP (k == ·) + if k == v then 1 else 0).sum := by
          simp only [List.countP_cons]
      _ = (values.map fun v => categories.countP (· == v)).sum + categories.countP (· == v) := by
          rw [List.sum_map_add, ih, sum_indicator]
      _ = ((v :: values).map fun v => categories.countP (· == v)).sum := by
          rw [List.map_cons, List.sum_cons, Nat.add_comm]

/-- **`sum_countAll`**: the counts of distinct categories add up to the number of values that have a
category. -/
theorem sum_countAll (distinct : Value.Distinct categories) (values : List Value) :
    (countAll categories values).sum = values.countP fun v => categories.any (· == v) := by
  rw [countAll_eq distinct, sum_countP, ← sum_indicator]
  congr 1
  refine List.map_congr_left fun v _ => ?_
  have most := distinct.countP_le_one v
  by_cases has : categories.any (· == v) = true
  · have least : 0 < categories.countP (· == v) := by
      simpa [List.countP_pos_iff] using has
    rw [if_pos has]
    omega
  · have none : categories.countP (· == v) = 0 := by
      simpa [List.countP_eq_zero] using has
    rw [if_neg has, none]

/-! ## Frames -/

/-- Numbers that count the rows of a frame by the categories that their cells in a column have. -/
structure CountsBy (column : String) (categories : List Value) (frame : Frame) (counts : List ℕ) :
    Prop where
  each : counts = categories.map fun k =>
    frame.rows.countP fun row => k == cellNamed frame.header row column
  once : ∀ row, categories.countP (· == cellNamed frame.header row column) ≤ 1
  total : counts.sum =
    frame.rows.countP fun row => categories.any (· == cellNamed frame.header row column)
  /-- The words of the outcome hold the numbers. -/
  held : Word.InRange frame.rows.length → ∀ n ∈ counts, (tally n).toInt = n

/-- **`apply_countBy`**: on a frame that has the column, an aggregation by distinct categories counts
the rows by them. -/
theorem apply_countBy (distinct : Value.Distinct categories) {column : String} {frame : Frame}
    (own : column ∈ frame.header) :
    ∃ counts, CountsBy column categories frame counts ∧
      (countBy column categories).apply frame = .ok (.counts (counts.map tally)) := by
  have each := countAll_eq distinct (frame.rows.map fun row => cellNamed frame.header row column)
  have total := sum_countAll distinct (frame.rows.map fun row => cellNamed frame.header row column)
  simp only [List.countP_map, Function.comp_def] at each total
  refine ⟨_, ⟨each, fun row => distinct.countP_le_one _, total, ?_⟩, ?_⟩
  · rintro ⟨-, most⟩ n mem
    rw [each] at mem
    obtain ⟨k, -, rfl⟩ := List.mem_map.1 mem
    have fewer := List.countP_le_length (l := frame.rows)
      (p := fun row => k == cellNamed frame.header row column)
    rw [tally, Word.toInt_clamp]
    omega
  · simp only [apply, Transformation.column, Frame.column_eq own, applyTo, Except.map]

theorem apply_of_missing {t : Transformation} {frame : Frame} (missing : t.column ∉ frame.header) :
    t.apply frame = .error (.missingColumn t.column) := by
  have none : frame.header.findIdx? (· == t.column) = none := by
    refine List.findIdx?_eq_none_iff.2 fun name mem => ?_
    rw [beq_eq_false_iff_ne]
    rintro rfl
    exact missing mem
  simp [apply, Frame.column, Frame.position, none, Except.map]

end PrivateQuery.Transformation
