import PrivateQuery.Proofs.Pipeline.Agreement
import PrivateQuery.Proofs.Privacy.Affordability

/-!
# Checks that promise too much

The check refuses a sum whose noise would be far too large for its budget and nothing else of that
kind, so it accepts some measures that no scale can pay for (`count_without_scale`). With the library
of this project and standard parameters it agrees with the compiler on just those queries whose
budget affords every measure that the check lets through (`passes_agree_iff`).
-/
namespace PrivateQuery

open Assembly Binary64

/-! ## How far one row moves a measure -/

/-- The most that one row moves a sum of a column, exactly. -/
noncomputable def ColumnType.reach : ColumnType → ℝ
  | .int low high => (max low.toInt.natAbs high.toInt.natAbs : ℕ)
  | .double low high => max |place low| |place high|
  | _ => 0

/-- The most that one row moves the measure of a step: a count by one. -/
noncomputable def Step.reach (schema : Schema) : Step → ℝ
  | .sum measure =>
    match schema.typeOf measure.column with
    | .ok type => type.reach
    | .error _ => 0
  | _ => 1

theorem Step.reach_sum {schema : Schema} {measure : Measure} {type : ColumnType}
    (typed : schema.typeOf measure.column = .ok type) :
    (Step.sum measure).reach schema = type.reach := by
  simp [Step.reach, typed]

theorem maxSumScale_lt : place maxSumScale < 2 ^ (1000 : ℤ) := by
  have reading : read maxSumScale = .finite false 6724873095247260 944 := by decide +kernel
  rw [place, reading, Reading.place, signum_false, one_mul]
  have bits : ((6724873095247260 : ℕ) : ℝ) < 2 ^ (53 : ℤ) := by norm_num
  calc ((6724873095247260 : ℕ) : ℝ) * 2 ^ (944 : ℤ) < 2 ^ (53 : ℤ) * 2 ^ (944 : ℤ) :=
        mul_lt_mul_of_pos_right bits (two_zpow_pos _)
    _ = 2 ^ (997 : ℤ) := (zpow_add₀ (by norm_num) _ _).symm
    _ ≤ 2 ^ (1000 : ℤ) := zpow_le_zpow_right₀ (by norm_num) (by norm_num)

theorem guarded {b epsilon : Float} (nonneg : 0 ≤ place b) (finite : IsFinite epsilon)
    (pos : 0 < place epsilon) (guard : b / epsilon ≤ maxSumScale) :
    IsFinite b ∧ place b ≤ 2 ^ 1000 * place epsilon := by
  obtain ⟨number, -, le⟩ := le_iff.1 guard
  have most := maxSumScale_lt
  have finiteB : IsFinite b := by
    refine (isNumber_of_div number).isFinite ?_
    rw [abs_of_nonneg nonneg]
    refine lt_of_le_of_ne (grid_place b).le_limit fun edge => ?_
    have infinite := div_infinite (read_eq_infinite (isNumber_of_div number) edge) finite pos
    rw [place, infinite, Reading.place, signum_false, one_mul] at le
    have wide : (2 : ℝ) ^ (1000 : ℤ) ≤ limit := zpow_le_zpow_right₀ (by norm_num) (by norm_num)
    linarith
  refine ⟨finiteB, ?_⟩
  have ratio := rounds_div finiteB finite pos.ne'
  by_contra! more
  have above := ratio.ge (grid_zpow (k := 1000) (by norm_num) (by norm_num)) <| by
    rw [le_div_iff₀ pos]
    exact_mod_cast more.le
  linarith

theorem place_sumBound_int (low high : Int64) : place (Transition.sumBound (.int low high)) =
    place (ofNat (max low.toInt.natAbs high.toInt.natAbs)) := by
  obtain ⟨numberL, sameL⟩ := abs_ofInt low.toInt
  obtain ⟨numberH, sameH⟩ := abs_ofInt high.toInt
  rw [Transition.sumBound, place_maximum numberL numberH, sameL, sameH, place_ofNat_max]

/-- A budget affords whatever is not far too large for it and has the size of a word. -/
theorem affords_of_word {budget : Budget} {move : ℝ} (pos : 0 < place budget.epsilon)
    (nonneg : 0 ≤ move) (word : move ≤ 2 ^ 64)
    (guarded : move ≤ 2 ^ 1001 * place budget.epsilon) (mechanism : Mechanism) :
    budget.Affords mechanism move := by
  cases mechanism with
  | laplace =>
    refine .laplace (guarded.trans (mul_le_mul_of_nonneg_right ?_ pos.le))
    exact pow_le_pow_right₀ (by norm_num) (by norm_num)
  | gaussian =>
    refine .gaussian (.inr ?_)
    have room : (2 : ℝ) ^ 128 < 2 ^ 971 := pow_lt_pow_right₀ (by norm_num) (by norm_num)
    calc move ^ 2 ≤ (2 ^ 64) ^ 2 := pow_le_pow_left₀ nonneg word 2
      _ = 2 ^ 128 := by rw [← pow_mul]
      _ < 2 ^ 971 := room
      _ ≤ 3 * 2 ^ 971 := le_mul_of_one_le_left (by positivity) (by norm_num)

/-- So it affords an integer sum that its guard lets through, by its double and by its exact bound. -/
theorem affords_of_integer {budget : Budget} {n : ℕ} (pos : 0 < place budget.epsilon)
    (small : n ≤ 2 ^ 63) (guarded : place (ofNat n) ≤ 2 ^ 1000 * place budget.epsilon)
    (mechanism : Mechanism) :
    budget.Affords mechanism (place (ofNat n)) ∧ budget.Affords mechanism n := by
  have rounds := rounds_ofNat n
  have nonneg := rounds.nonneg (Nat.cast_nonneg _)
  have twice := le_two_mul_ofNat small
  have word : place (ofNat n) ≤ 2 ^ 63 := by
    exact_mod_cast rounds.le (grid_zpow (k := 63) (by norm_num) (by norm_num))
      (by exact_mod_cast small)
  have wider : 2 * (2 ^ 1000 * place budget.epsilon) = 2 ^ 1001 * place budget.epsilon := by
    rw [← mul_assoc, ← pow_succ']
  have double : 2 * place (ofNat n) ≤ 2 ^ 1001 * place budget.epsilon :=
    wider ▸ mul_le_mul_of_nonneg_left guarded zero_le_two
  refine ⟨affords_of_word pos nonneg ?_ (le_trans ?_ double) mechanism,
    affords_of_word pos (Nat.cast_nonneg n) ?_ (twice.trans double) mechanism⟩
  · exact word.trans (by norm_num)
  · linarith only [nonneg]
  · exact twice.trans (by linarith only [word])

/-- One move of a bound that a guard lets through is a moderate sensitivity. -/
theorem moderate_one_mul {budget : Budget} {bound : Float} (finite : IsFinite bound)
    (nonneg : 0 ≤ place bound) (guarded : place bound ≤ 2 ^ 1000 * place budget.epsilon) :
    budget.Moderate (1 * bound) ∧ place (1 * bound) = place bound := by
  obtain ⟨finite', same⟩ := place_one_mul finite
  exact ⟨⟨finite', by rwa [same], .inr (by rwa [same])⟩, same⟩

/-- What is pending moves by a moderate sensitivity, which the budget affords if and only if it
affords the exact reach of the step. -/
theorem Due.moves {terms : Terms} {schema : Schema} {step : Step} {measure : Measure}
    {pending : Pending} (due : Due terms schema step measure pending) :
    terms.budget.Moderate (pending.transformation.stability 1) ∧
      ∀ mechanism, terms.budget.Affords mechanism (place (pending.transformation.stability 1)) ↔
        terms.budget.Affords mechanism (step.reach schema) := by
  obtain ⟨finite, pos⟩ := finite_epsilon due.compatible
  have pos' : 0 < terms.budget.epsilon :=
    lt_iff.2 ⟨isFinite_zero.isNumber, finite.isNumber, by simpa using pos⟩
  have unit : terms.budget.Moderate 1 := ⟨isFinite_one, by simp, by simp⟩
  cases due.awaits with
  | @count measure type typed =>
    have stable : (Transformation.count measure.column).stability 1 = 1 := rfl
    rw [stable, place_one]
    exact ⟨unit, fun _ => Iff.rfl⟩
  | @histogram measure type b categories typed binned distinct checked listed =>
    have stable : (Transformation.countBy measure.column categories).stability 1 = 1 := rfl
    rw [stable, place_one]
    exact ⟨unit, fun _ => Iff.rfl⟩
  | @integerSum measure low high typed bounded =>
    have size : max low.toInt.natAbs high.toInt.natAbs ≤ 2 ^ 63 := by
      have := low.toInt_lt
      have := low.le_toInt
      have := high.toInt_lt
      have := high.le_toInt
      omega
    have nonneg := (rounds_ofNat (max low.toInt.natAbs high.toInt.natAbs)).nonneg (Nat.cast_nonneg _)
    obtain ⟨-, small⟩ := guarded (by rw [place_sumBound_int]; exact nonneg) finite pos
      (bounded pos')
    rw [place_sumBound_int] at small
    have stable : (Transformation.integerSum measure.column low high).stability 1 =
      1 * ofNat (max low.toInt.natAbs high.toInt.natAbs) := rfl
    rw [stable, Step.reach_sum typed, ColumnType.reach]
    generalize max low.toInt.natAbs high.toInt.natAbs = n at size nonneg small ⊢
    obtain ⟨moderate, same⟩ := moderate_one_mul (isFinite_ofNat size) nonneg small
    refine ⟨moderate, fun mechanism => ?_⟩
    obtain ⟨rounded, exact⟩ := affords_of_integer pos size small mechanism
    rw [same]
    exact ⟨fun _ => exact, fun _ => rounded⟩
  | @floatSum measure low high typed bounded =>
    have exact : place (Transition.sumBound (.double low high)) = max |place low| |place high| :=
      place_maximum_abs low high
    have nonneg : 0 ≤ max |place low| |place high| := le_max_of_le_left (abs_nonneg _)
    obtain ⟨finiteB, below⟩ := guarded (by rw [exact]; exact nonneg) finite pos (bounded pos')
    obtain ⟨moderate, same⟩ := moderate_one_mul finiteB (by rw [exact]; exact nonneg) below
    have stable : (Transformation.floatSum measure.column low high).stability 1 =
      1 * Transition.sumBound (.double low high) := rfl
    rw [exact] at same
    rw [stable, same, Step.reach_sum typed]
    exact ⟨moderate, fun _ => Iff.rfl⟩

/-- **`calibrated_iff`**: a measure that is due can be calibrated if and only if the budget affords
its reach, and otherwise no finite scale will do. -/
theorem calibrated_iff {terms : Terms} {schema : Schema} {step : Step} {measure : Measure}
    {pending : Pending} (due : Due terms schema step measure pending) :
    ((∃ measurement, calibrated (.standard .standard) terms.budget terms.notion measure.mechanism
        pending = .ok measurement) ↔ terms.budget.Affords measure.mechanism (step.reach schema)) ∧
      ∀ cause, calibrated (.standard .standard) terms.budget terms.notion measure.mechanism
        pending = .error cause → cause = .raised .noFiniteScale := by
  obtain ⟨moderate, same⟩ := due.moves
  rw [← same]
  by_cases affords : terms.budget.Affords measure.mechanism
      (place (pending.transformation.stability 1))
  · obtain ⟨measurement, found⟩ := calibrated_of_affords due.compatible moderate affords
    exact ⟨⟨fun _ => affords, fun _ => ⟨measurement, found⟩⟩, by simp [found]⟩
  · have none := calibrated_of_not_affords due.compatible moderate affords
    exact ⟨⟨by simp [none], fun h => absurd h affords⟩, by simp [none, eq_comm]⟩

/-! ## Queries -/

/-- The budget affords every measure up to which the check accepts the query. -/
def Affordable (terms : Terms) (schema : Schema) (steps : List Step) : Prop :=
  ∀ before step rest here next measure, steps = before ++ step :: rest →
    Course.run Pass.silent terms before (.start schema ()) = .ok here →
    Course.run Pass.silent terms (before ++ [step]) (.start schema ()) = .ok next →
    step.measure? = some measure →
    terms.budget.Affords measure.mechanism (step.reach here.standing.schema)

/-- The error of a query that no finite scale can pay for. -/
def noScale : QueryError := .execution (.mechanism .noFiniteScale)

section
variable {terms : Terms} {schema : Schema} {steps : List Step}

/-- What is affordable gets stuck nowhere. -/
theorem Affordable.not_stuck (affordable : Affordable terms schema steps)
    (cause : Fault MechanismError) :
    ¬ Stuck (.standard .standard) terms (.start schema) steps cause := by
  rintro ⟨before, step, rest, here, next, measure, pending, same, ran, taken, due, failed⟩
  obtain ⟨measurement, found⟩ := (calibrated_iff due).1.2
    (affordable before step rest ⟨here, ()⟩ ⟨next, ()⟩ measure same ran taken due.taken)
  simp [found] at failed

/-- What is not affordable fails at the first measure that is not. -/
theorem run_of_not_affordable (parameters : Parameters)
    (unaffordable : ¬ Affordable terms schema steps) :
    Course.run (pass (.standard .standard) parameters) terms steps (.start schema .empty) =
      .error (.raised noScale) := by
  simp only [Affordable, not_forall] at unaffordable
  obtain ⟨before, step, rest, here, next, measure, rfl, ran, taken, measured, refused⟩ :=
    unaffordable
  have start := start_fits (.standard .standard) terms schema
  rw [Course.run_append]
  rcases run_agrees parameters before start with
    ⟨c, assembled, silent, fits⟩ | ⟨e, -, silent⟩ | ⟨cause, assembled, stuck⟩
  · obtain rfl : here = ⟨c.standing, ()⟩ := Except.ok.inj (ran.symm.trans silent)
    rw [Course.run_append, ran] at taken
    cases step_agrees parameters step fits with
    | taken c' stepped silentStep fits' calibrates =>
      obtain ⟨pending, measurement, due, found⟩ := calibrates measure measured
      exact absurd ((calibrated_iff due).1.1 ⟨measurement, found⟩) refused
    | refused e c' s' stepped silentStep =>
      simp [Course.run, silentStep, bind, Except.bind] at taken
    | uncalibrated c' next' measure' pending cause stepped silentStep due failed =>
      rw [(calibrated_iff due).2 cause failed] at stepped
      simp [assembled, Course.run, stepped, bind, Except.bind, calibrationFault, Fault.map, noScale]
  · exact absurd (ran.symm.trans silent) (by simp)
  · obtain ⟨_, _, _, _, _, _, _, _, _, _, due, failed⟩ := stuck
    rw [(calibrated_iff due).2 cause failed] at assembled
    simp [assembled, bind, Except.bind, calibrationFault, Fault.map, noScale]

/-- Where a query ends, building its pipeline fails as finishing the check does. -/
theorem build_agrees {library : Library} {source : Schema} {measured : List Step}
    {c : Course Assembly} (fits : Fits library terms source measured c.standing c.state) :
    (∃ p, c.build = .ok p ∧ c.standing.finish = .ok ()) ∨
      ∃ e, c.build = .error e ∧ c.standing.finish = .error e := by
  obtain ⟨s, a⟩ := c
  cases fits with
  | noised projects due calibrated => exact .inl ⟨_, rfl, rfl⟩
  | _ => exact .inr ⟨_, rfl, rfl⟩

end

/-! ## Agreement -/

/-- The built pipeline of a query, compiled with the library of this project. -/
def assemble (budget : Budget) (notion : Notion) (schema : Schema) (steps : List Step) :
    Attempt QueryError Pipeline := do
  let c ← compile (.standard .standard) .standard budget notion schema steps
  Attempt.ofExcept c.build

/-- Both succeed, or both fail with errors of the same kind. -/
def Agree {α β : Type} (checked : Except QueryError α) (built : Attempt QueryError β) : Prop :=
  ((∃ a, checked = .ok a) ∧ ∃ b, built = .ok b) ∨
    ∃ e e', checked = .error e ∧ built = .error (.raised e') ∧ e.kind = e'.kind

/-- An error that comes again is not of the kind of a failed calibration. -/
theorem kind_ne_noScale {e : QueryError} (settled : e.isRetryable = false) :
    e.kind ≠ noScale.kind := by
  cases e with
  | execution cause => simp [QueryError.isRetryable] at settled
  | _ => simp [QueryError.kind, noScale]

/-- **`passes_agree_iff`**: checking a query and building its pipeline agree if and only if the
budget affords every measure that the check lets through. Where it does not, building fails for want
of a finite scale. -/
theorem passes_agree_iff (budget : Budget) (notion : Notion) (schema : Schema) (steps : List Step) :
    (Agree (typecheck (.of budget notion .standard) schema steps)
        (assemble budget notion schema steps) ↔
      Affordable (.of budget notion .standard) schema steps) ∧
      (¬ Affordable (.of budget notion .standard) schema steps →
        assemble budget notion schema steps = .error (.raised noScale)) := by
  have fails (unaffordable : ¬ Affordable (.of budget notion .standard) schema steps) :
      assemble budget notion schema steps = .error (.raised noScale) := by
    rw [assemble, compile, run_of_not_affordable _ unaffordable]
    rfl
  refine ⟨⟨fun agree => ?_, fun affordable => ?_⟩, fails⟩
  · by_contra unaffordable
    rw [fails unaffordable] at agree
    rcases agree with ⟨-, b, built⟩ | ⟨e, e', checked, built, kinds⟩
    · simp at built
    · obtain rfl : noScale = e' := by simpa using built
      exact kind_ne_noScale (settled_typecheck _ _ _ e checked) kinds
  · have start := start_fits (.standard .standard) (.of budget notion .standard) schema
    rcases run_agrees .standard steps start with
      ⟨c, assembled, silent, fits⟩ | ⟨e, assembled, silent⟩ | ⟨cause, -, stuck⟩
    · change Course.run Pass.silent _ steps (.start schema ()) = _ at silent
      rcases build_agrees fits with ⟨p, built, finished⟩ | ⟨e, built, finished⟩
      · refine .inl ⟨⟨c.standing.schema, ?_⟩, p, ?_⟩
        · simp [typecheck, silent, finished, bind, Except.bind, pure, Except.pure]
        · simp [assemble, compile, assembled, built, bind, Except.bind, Attempt.ofExcept]
      · refine .inr ⟨e, e, ?_, ?_, rfl⟩
        · simp [typecheck, silent, finished, bind, Except.bind]
        · simp [assemble, compile, assembled, built, bind, Except.bind, Attempt.ofExcept,
            Attempt.raise]
    · change Course.run Pass.silent _ steps (.start schema ()) = _ at silent
      refine .inr ⟨e, e, ?_, ?_, rfl⟩
      · simp [typecheck, silent, bind, Except.bind]
      · simp [assemble, compile, assembled, bind, Except.bind]
    · exact absurd stuck (affordable.not_stuck cause)

/-- A count that is checked with success under an `ε` that no finite scale can keep to. -/
theorem count_without_scale :
    (∃ released, typecheck (.of ⟨1e-310, none⟩ .pureDP .standard)
        ⟨[⟨"age", .int 0 100⟩], by decide⟩ [.count ⟨"age", .laplace⟩] = .ok released) ∧
      assemble ⟨1e-310, none⟩ .pureDP ⟨[⟨"age", .int 0 100⟩], by decide⟩
        [.count ⟨"age", .laplace⟩] = .error (.raised noScale) := by
  have passes : (typecheck (.of ⟨1e-310, none⟩ .pureDP .standard)
      ⟨[⟨"age", .int 0 100⟩], by decide⟩ [.count ⟨"age", .laplace⟩]).toOption.isSome = true := by
    decide +kernel
  obtain ⟨released, checked⟩ := Option.isSome_iff_exists.1 passes
  rw [toOption_eq_some] at checked
  refine ⟨⟨released, checked⟩, ?_⟩
  obtain ⟨c, ran, -⟩ := bind_eq_ok.1 checked
  rw [assemble, compile, run_of_not_affordable]
  · rfl
  · intro affordable
    have affords : (⟨1e-310, none⟩ : Budget).Affords .laplace 1 :=
      affordable [] _ [] _ c ⟨"age", .laplace⟩ rfl rfl ran rfl
    rw [affords_laplace] at affords
    dsimp only at affords
    have reading : read 1e-310 = .finite false 20240225330731 (-1074) := by decide +kernel
    have units : (2 : ℝ) ^ 1023 * 2 ^ (-1074 : ℤ) = 2 ^ (-51 : ℤ) := by
      rw [← zpow_natCast, ← zpow_add₀ (by norm_num)]
      norm_num
    rw [place, reading, Reading.place, signum_false, one_mul, mul_left_comm, units] at affords
    norm_num at affords

end PrivateQuery
