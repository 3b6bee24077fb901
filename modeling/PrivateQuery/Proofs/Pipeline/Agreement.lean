import PrivateQuery.Proofs.Pipeline.Construction
import PrivateQuery.Proofs.Privacy.Search

/-!
# Checking and compiling agree

A query is checked by a run that observes nothing and compiled by one that assembles a pipeline. Side
by side the two runs stand at the same place, refuse the same steps for the same reason, and differ
only where a legal noise cannot be calibrated (`step_agrees`, `run_agrees`). So a query that compiles
passes its check and stands where the check ends, and one that does not is refused by the check with
the same error, or the library failed to calibrate a step that the check accepts (`compile_agrees`).
-/
namespace PrivateQuery

open Assembly

/-- The error of a query whose noise cannot be calibrated. -/
def calibrationFault (cause : Fault MechanismError) : Fault QueryError :=
  cause.map fun e => .execution (.mechanism e)

variable {library : Library} {terms : Terms} {source : Schema} {measured : List Step}

/-! ## Operations -/

/-- The two runs do the same where an operation other than noise is next. -/
theorem operate_agrees (parameters : Parameters) {c : Course Assembly} {op : Operation}
    (fits : Fits library terms source measured c.standing c.state) (other : op ≠ .noise) :
    (∃ move a, Accepted terms c.standing op move ∧
        c.operate (pass library parameters) terms op = (.ok (), ⟨move.next, a⟩) ∧
        (Course.mk c.standing ()).operate Pass.silent terms op = (.ok (), ⟨move.next, ()⟩) ∧
        Fits library terms source (measured ++ op.measuring) move.next a) ∨
      ∃ e, c.operate (pass library parameters) terms op = (.error (.raised e), c) ∧
        (Course.mk c.standing ()).operate Pass.silent terms op =
          (.error e, ⟨c.standing, ()⟩) := by
  cases outcome : transition terms c.standing op with
  | ok move =>
    have accepted := transition_eq_ok_iff.1 outcome
    obtain ⟨a, observed, fits'⟩ := observe_fits parameters fits accepted other
    refine .inl ⟨move, a, accepted, Course.operate_ok outcome observed, ?_, fits'⟩
    rw [Course.operate_silent, outcome]
  | error e =>
    refine .inr ⟨e, Course.operate_refused outcome, ?_⟩
    rw [Course.operate_silent, outcome]

/-- Where noise is next, the assembling run alone may fail to calibrate. -/
theorem noise_agrees (parameters : Parameters) {c : Course Assembly}
    (fits : Fits library terms source measured c.standing c.state) :
    (∃ next step measure pending, measured = [step] ∧
        Due terms c.standing.schema step measure pending ∧
        (Course.mk c.standing ()).operate Pass.silent terms .noise = (.ok (), ⟨next, ()⟩) ∧
        ((∃ measurement a,
            calibrated library terms.budget terms.notion measure.mechanism pending
              = .ok measurement ∧
            c.operate (pass library parameters) terms .noise = (.ok (), ⟨next, a⟩) ∧
            Fits library terms source measured next a) ∨
          ∃ cause,
            calibrated library terms.budget terms.notion measure.mechanism pending
              = .error cause ∧
            c.operate (pass library parameters) terms .noise =
              (.error (calibrationFault cause), c))) ∨
      ∃ e, c.operate (pass library parameters) terms .noise = (.error (.raised e), c) ∧
        (Course.mk c.standing ()).operate Pass.silent terms .noise =
          (.error e, ⟨c.standing, ()⟩) := by
  cases outcome : transition terms c.standing .noise with
  | error e =>
    refine .inr ⟨e, Course.operate_refused outcome, ?_⟩
    rw [Course.operate_silent, outcome]
  | ok move =>
    obtain ⟨step, measure, pending, only, due, result⟩ :=
      observe_noise parameters fits (transition_eq_ok_iff.1 outcome)
    refine .inl ⟨move.next, step, measure, pending, only, due, ?_, ?_⟩
    · rw [Course.operate_silent, outcome]
    · rcases result with ⟨measurement, a, found, observed, fits'⟩ | ⟨cause, failed, objected⟩
      · exact .inl ⟨measurement, a, found, Course.operate_ok outcome observed, fits'⟩
      · refine .inr ⟨cause, failed, ?_⟩
        simp only [Course.operate, outcome, objected, calibrationFault]

/-! ## Steps -/

/-- What a step comes to in the run that assembles and in the one that does not. -/
inductive StepAgrees (library : Library) (parameters : Parameters) (terms : Terms)
    (source : Schema) (measured : List Step) (c : Course Assembly) (step : Step) : Prop where
  /-- Both runs take the step, and its measure, if it takes one, is calibrated. -/
  | taken (c' : Course Assembly)
      (assembled : c.step (pass library parameters) terms step = (.ok (), c'))
      (silent : (Course.mk c.standing ()).step Pass.silent terms step = (.ok (), ⟨c'.standing, ()⟩))
      (fits : Fits library terms source (measured ++ measuring [step]) c'.standing c'.state)
      (calibrates : ∀ measure, step.measure? = some measure → ∃ pending measurement,
        Due terms c.standing.schema step measure pending ∧
        calibrated library terms.budget terms.notion measure.mechanism pending = .ok measurement)
  /-- Both runs refuse the step for the same reason. -/
  | refused (e : QueryError) (c' : Course Assembly) (s' : Course Unit)
      (assembled : c.step (pass library parameters) terms step = (.error (.raised e), c'))
      (silent : (Course.mk c.standing ()).step Pass.silent terms step = (.error e, s'))
  /-- The step is legal and its measure cannot be calibrated. -/
  | uncalibrated (c' : Course Assembly) (next : Standing) (measure : Measure) (pending : Pending)
      (cause : Fault MechanismError)
      (assembled : c.step (pass library parameters) terms step =
        (.error (calibrationFault cause), c'))
      (silent : (Course.mk c.standing ()).step Pass.silent terms step = (.ok (), ⟨next, ()⟩))
      (due : Due terms c.standing.schema step measure pending)
      (failed : calibrated library terms.budget terms.notion measure.mechanism pending =
        .error cause)

/-- A step of one operation that is no measure. -/
theorem step_agrees_of_single {parameters : Parameters} {c : Course Assembly} {step : Step}
    {op : Operation}
    (fits : Fits library terms source measured c.standing c.state)
    (single : step.operations = [op]) (other : op ≠ .noise) (none : step.measure? = none)
    (same : op.measuring = measuring [step]) :
    StepAgrees library parameters terms source measured c step := by
  rcases operate_agrees parameters fits other with
    ⟨move, a, -, assembled, silent, fits'⟩ | ⟨e, assembled, silent⟩
  · rw [same] at fits'
    refine .taken ⟨move.next, a⟩ ?_ ?_ fits' ?_
    · simp [Course.step, single, Course.operateAll, assembled]
    · simp [Course.step, single, Course.operateAll, silent]
    · simp [none]
  · refine .refused e c ⟨c.standing, ()⟩ ?_ ?_
    · simp [Course.step, single, Course.operateAll, assembled]
    · simp [Course.step, single, Course.operateAll, silent]

/-- A step of a measure and its noise. -/
theorem step_agrees_of_measure {parameters : Parameters} {c : Course Assembly} {step : Step}
    {op : Operation}
    (fits : Fits library terms source measured c.standing c.state)
    (both : step.operations = [op, .noise]) (other : op ≠ .noise)
    (same : op.measuring = [step]) (taken : step.measure?.isSome = true)
    (keeps : ∀ {s move}, Accepted terms s op move → move.next.schema = s.schema) :
    StepAgrees library parameters terms source measured c step := by
  rcases operate_agrees parameters fits other with
    ⟨move, a, accepted, assembled, silent, fits'⟩ | ⟨e, assembled, silent⟩
  · rw [same] at fits'
    rcases noise_agrees parameters (c := ⟨move.next, a⟩) fits' with
      ⟨next, step', measure, pending, only, due, silent', result⟩ | ⟨e, assembled', silent'⟩
    · obtain ⟨rfl, rfl⟩ : measured = [] ∧ step = step' := by
        simpa [List.append_eq_cons_iff] using only
      rw [keeps accepted] at due
      have stepped : (Course.mk c.standing ()).step Pass.silent terms step =
          (.ok (), ⟨next, ()⟩) := by
        simp [Course.step, both, Course.operateAll, silent, silent']
      rcases result with ⟨measurement, a', found, noised, fits''⟩ | ⟨cause, failed, noised⟩
      · refine .taken ⟨next, a'⟩ ?_ stepped ?_ ?_
        · simp [Course.step, both, Course.operateAll, assembled, noised]
        · simpa [measuring, taken] using fits''
        · intro other same
          obtain rfl : other = measure := by simpa [due.taken, eq_comm] using same
          exact ⟨pending, measurement, due, found⟩
      · refine .uncalibrated ⟨move.next, a⟩ next measure pending cause ?_ stepped due failed
        simp [Course.step, both, Course.operateAll, assembled, noised]
    · refine .refused e ⟨move.next, a⟩ ⟨move.next, ()⟩ ?_ ?_
      · simp [Course.step, both, Course.operateAll, assembled, assembled']
      · simp [Course.step, both, Course.operateAll, silent, silent']
  · refine .refused e c ⟨c.standing, ()⟩ ?_ ?_
    · simp [Course.step, both, Course.operateAll, assembled]
    · simp [Course.step, both, Course.operateAll, silent]

/-- The two runs agree on every step. -/
theorem step_agrees (parameters : Parameters) {c : Course Assembly} (step : Step)
    (fits : Fits library terms source measured c.standing c.state) :
    StepAgrees library parameters terms source measured c step := by
  cases step with
  | count measure =>
    refine step_agrees_of_measure fits rfl (by simp) rfl rfl ?_
    intro s move accepted
    cases accepted <;> rfl
  | sum measure =>
    refine step_agrees_of_measure fits rfl (by simp) rfl rfl ?_
    intro s move accepted
    cases accepted
    rfl
  | select columns => exact step_agrees_of_single fits rfl (by simp) rfl rfl
  | filter texts => exact step_agrees_of_single fits rfl (by simp) rfl rfl
  | rename mapping => exact step_agrees_of_single fits rfl (by simp) rfl rfl
  | bin b => exact step_agrees_of_single fits rfl (by simp) rfl rfl

/-! ## Runs -/

/-- Some step is legal after the steps before it and takes a measure that the library fails to
calibrate. -/
def Stuck (library : Library) (terms : Terms) (s : Standing) (steps : List Step)
    (cause : Fault MechanismError) : Prop :=
  ∃ before step rest here next measure pending, steps = before ++ step :: rest ∧
    Course.run Pass.silent terms before ⟨s, ()⟩ = .ok ⟨here, ()⟩ ∧
    Course.run Pass.silent terms (before ++ [step]) ⟨s, ()⟩ = .ok ⟨next, ()⟩ ∧
    Due terms here.schema step measure pending ∧
    calibrated library terms.budget terms.notion measure.mechanism pending = .error cause

/-- A step that both runs take leaves what is stuck later stuck. -/
theorem Stuck.cons {s next : Standing} {step : Step} {steps : List Step}
    {cause : Fault MechanismError}
    (silent : (Course.mk s ()).step Pass.silent terms step = (.ok (), ⟨next, ()⟩))
    (h : Stuck library terms next steps cause) : Stuck library terms s (step :: steps) cause := by
  obtain ⟨before, last, rest, here, final, measure, pending, rfl, ran, taken, due, failed⟩ := h
  refine ⟨step :: before, last, rest, here, final, measure, pending, rfl, ?_, ?_, due, failed⟩
  · simpa [Course.run, silent] using ran
  · simpa [Course.run, silent] using taken

/-- **`run_agrees`**: the two runs take the same steps and stand at the same place, or refuse for the
same reason, or the assembling run stops at a measure that cannot be calibrated. -/
theorem run_agrees (parameters : Parameters) {c : Course Assembly} (steps : List Step)
    (fits : Fits library terms source measured c.standing c.state) :
    (∃ c', Course.run (pass library parameters) terms steps c = .ok c' ∧
        Course.run Pass.silent terms steps ⟨c.standing, ()⟩ = .ok ⟨c'.standing, ()⟩ ∧
        Fits library terms source (measured ++ measuring steps) c'.standing c'.state) ∨
      (∃ e, Course.run (pass library parameters) terms steps c = .error (.raised e) ∧
        Course.run Pass.silent terms steps ⟨c.standing, ()⟩ = .error e) ∨
      ∃ cause, Course.run (pass library parameters) terms steps c =
          .error (calibrationFault cause) ∧ Stuck library terms c.standing steps cause := by
  induction steps generalizing measured c with
  | nil => exact .inl ⟨c, rfl, rfl, by simpa [measuring] using fits⟩
  | cons step steps ih =>
    cases step_agrees parameters step fits with
    | taken c' assembled silent fits' _ =>
      have split : measured ++ measuring (step :: steps) =
          measured ++ measuring [step] ++ measuring steps := by
        simp [measuring, List.filter_cons]
        split <;> simp
      rw [split]
      simp only [Course.run, assembled, silent]
      rcases ih fits' with done | refused | ⟨cause, failed, stuck⟩
      · exact .inl done
      · exact .inr (.inl refused)
      · exact .inr (.inr ⟨cause, failed, stuck.cons silent⟩)
    | refused e c' s' assembled silent =>
      exact .inr (.inl ⟨e, by simp [Course.run, assembled], by simp [Course.run, silent]⟩)
    | uncalibrated c' next measure pending cause assembled silent due failed =>
      refine .inr (.inr ⟨cause, by simp [Course.run, assembled], ?_⟩)
      refine ⟨[], step, steps, c.standing, next, measure, pending, rfl, rfl, ?_, due, failed⟩
      simp [Course.run, silent]

/-! ## Queries -/

/-- The assembly of a query that has only its schema. -/
theorem start_fits (library : Library) (terms : Terms) (schema : Schema) : Fits library terms schema []
    (Course.start schema Assembly.empty).standing (Course.start schema Assembly.empty).state :=
  .transforming .done

theorem compile_fits {parameters : Parameters} {budget : Budget} {notion : Notion} {schema : Schema} {steps : List Step}
    {c : Course Assembly} (h : compile library parameters budget notion schema steps = .ok c) :
    Fits library (.of budget notion parameters) schema (measuring steps) c.standing c.state := by
  rw [compile] at h
  rcases run_agrees parameters steps (start_fits library _ schema) with
    ⟨c', assembled, -, fits⟩ | ⟨e, assembled, -⟩ | ⟨cause, assembled, -⟩
  · rw [h, Except.ok.injEq] at assembled
    rwa [assembled]
  · simp [h] at assembled
  · simp [h] at assembled

/-- A pipeline carries out a projection of the schema and then one measure, whose noise has been
calibrated. -/
theorem pipeline_due {parameters : Parameters} {budget : Budget} {notion : Notion} {schema : Schema}
    {steps : List Step} {c : Course Assembly} {pipeline : Pipeline}
    (compiled : compile library parameters budget notion schema steps = .ok c)
    (built : c.pipeline = .ok pipeline) :
    ∃ working step measure pending, Projects schema pipeline.projection working ∧
      Due (.of budget notion parameters) working step measure pending ∧
      calibrated library budget notion measure.mechanism pending = .ok pipeline.measurement := by
  obtain ⟨s, a⟩ := c
  have fits := compile_fits compiled
  dsimp only at fits
  generalize measuring steps = taken at fits
  cases fits with
  | noised projects due found =>
    cases built
    exact ⟨_, _, _, _, projects, due, found⟩
  | _ => simp [Course.pipeline] at built

theorem calibrated_returns (returns : library.Returns) (budget : Budget) (notion : Notion)
    (mechanism : Mechanism) (pending : Pending) :
    (calibrated library budget notion mechanism pending).Returns := by
  have measures (scale : Float) :
      (measurementAt library budget notion mechanism pending scale).Returns := by
    refine (returns.addNoise _ _ _ scale).bind fun measurement _ => ?_
    split
    · exact Attempt.returns_ofExcept _
    · exact Attempt.returns_ok measurement
  exact (returns.calibrate _ _ _ measures).bind fun scale _ => measures scale

theorem pipeline_ok_iff {c : Course Assembly}
    (fits : Fits library terms source measured c.standing c.state) :
    (∃ p, c.pipeline = .ok p) ↔ c.standing.finish = .ok () := by
  obtain ⟨s, a⟩ := c
  cases fits <;> simp [Course.pipeline, Standing.finish]

/-- **`compile_agrees`**: with a library that answers every call, a query that compiles passes the
same steps of its check and stands where the check does, with a pipeline exactly when it is complete.
A query that does not compile is refused by its check with the same error, or the library refuses to
calibrate a step up to which the check accepts the query. -/
theorem compile_agrees (returns : library.Returns) (parameters : Parameters) (budget : Budget)
    (notion : Notion) (schema : Schema) (steps : List Step) :
    match compile library parameters budget notion schema steps with
    | .ok c =>
      Course.run Pass.silent (.of budget notion parameters) steps (.start schema ()) =
          .ok ⟨c.standing, ()⟩ ∧
        ((∃ p, c.pipeline = .ok p) ↔ c.standing.finish = .ok ())
    | .error fault => ∃ e, fault = .raised e ∧
        (Course.run Pass.silent (.of budget notion parameters) steps (.start schema ()) =
            .error e ∨
          ∃ cause, e = .execution (.mechanism cause) ∧
            Stuck library (.of budget notion parameters) (.start schema) steps
              (.raised cause)) := by
  rcases run_agrees parameters steps (start_fits library _ schema) with
    ⟨c, assembled, silent, fits'⟩ | ⟨e, assembled, silent⟩ | ⟨cause, assembled, stuck⟩
  · rw [compile, assembled]
    exact ⟨silent, pipeline_ok_iff fits'⟩
  · rw [compile, assembled]
    exact ⟨e, rfl, .inl silent⟩
  · rw [compile, assembled]
    obtain ⟨_, _, _, _, _, measure, pending, _, _, _, _, failed⟩ := id stuck
    obtain ⟨e, rfl⟩ := (calibrated_returns returns _ _ _ _).raised failed
    exact ⟨_, rfl, .inr ⟨e, rfl, stuck⟩⟩

/-- A count of adults compiles, and passes its check; under a budget that no scale within twelve steps
meets the check accepts it still, and the compiler stops at the noise. -/
theorem compile_agrees_adults :
    (Library.standard ⟨1e-9, 12, 65536, none⟩).Returns ∧
      (∃ c, compile (.standard ⟨1e-9, 12, 65536, none⟩) .standard ⟨1, none⟩ .pureDP
          ⟨[⟨"age", .int 0 100⟩], by decide⟩ [.filter ["age > 18"], .count ⟨"age", .laplace⟩] =
            .ok c ∧
        Course.run Pass.silent (.of ⟨1, none⟩ .pureDP .standard)
          [.filter ["age > 18"], .count ⟨"age", .laplace⟩]
          (.start ⟨[⟨"age", .int 0 100⟩], by decide⟩ ()) = .ok ⟨c.standing, ()⟩ ∧
        ((∃ p, c.pipeline = .ok p) ↔ c.standing.finish = .ok ())) ∧
      ∃ cause, compile (.standard ⟨1e-9, 12, 65536, none⟩) .standard ⟨1e-9, none⟩ .pureDP
          ⟨[⟨"age", .int 0 100⟩], by decide⟩ [.filter ["age > 18"], .count ⟨"age", .laplace⟩] =
            .error (.raised (.execution (.mechanism cause))) ∧
        Stuck (.standard ⟨1e-9, 12, 65536, none⟩) (.of ⟨1e-9, none⟩ .pureDP .standard)
          (.start ⟨[⟨"age", .int 0 100⟩], by decide⟩)
          [.filter ["age > 18"], .count ⟨"age", .laplace⟩] (.raised cause) := by
  have returns := Library.standard_returns ⟨1e-9, 12, 65536, none⟩
  refine ⟨returns, ?_, ?_⟩
  · have compiles : (compile (.standard ⟨1e-9, 12, 65536, none⟩) .standard ⟨1, none⟩ .pureDP
        ⟨[⟨"age", .int 0 100⟩], by decide⟩
        [.filter ["age > 18"], .count ⟨"age", .laplace⟩]).toOption.isSome = true := by
      decide +kernel
    obtain ⟨c, compiled⟩ := Option.isSome_iff_exists.1 compiles
    rw [toOption_eq_some] at compiled
    have agrees := compile_agrees returns .standard ⟨1, none⟩ .pureDP
      ⟨[⟨"age", .int 0 100⟩], by decide⟩ [.filter ["age > 18"], .count ⟨"age", .laplace⟩]
    rw [compiled] at agrees
    exact ⟨c, compiled, agrees⟩
  · have stops : (compile (.standard ⟨1e-9, 12, 65536, none⟩) .standard ⟨1e-9, none⟩ .pureDP
        ⟨[⟨"age", .int 0 100⟩], by decide⟩
        [.filter ["age > 18"], .count ⟨"age", .laplace⟩]).toOption.isSome = false := by
      decide +kernel
    have accepts : (Course.run Pass.silent (.of ⟨1e-9, none⟩ .pureDP .standard)
        [.filter ["age > 18"], .count ⟨"age", .laplace⟩]
        (.start ⟨[⟨"age", .int 0 100⟩], by decide⟩ ())).toOption.isSome = true := by
      decide +kernel
    have agrees := compile_agrees returns .standard ⟨1e-9, none⟩ .pureDP
      ⟨[⟨"age", .int 0 100⟩], by decide⟩ [.filter ["age > 18"], .count ⟨"age", .laplace⟩]
    generalize compile (.standard ⟨1e-9, 12, 65536, none⟩) .standard ⟨1e-9, none⟩ .pureDP
      ⟨[⟨"age", .int 0 100⟩], by decide⟩ [.filter ["age > 18"], .count ⟨"age", .laplace⟩] =
        compiled at stops agrees
    cases compiled with
    | ok c => simp [Except.toOption] at stops
    | error fault =>
      obtain ⟨e, rfl, refused | ⟨cause, rfl, stuck⟩⟩ := agrees
      · rw [refused] at accepts
        simp [Except.toOption] at accepts
      · exact ⟨cause, rfl, stuck⟩

end PrivateQuery
