import PrivateQuery.Proofs.Machine.Runs
import PrivateQuery.Proofs.Pipeline.Agreement

/-!
# The measure of a query

What a query asks of a library is read off its check: the measure that is noted there with its
mechanism (`measured?`). Whatever the library, compiling a query that passes its check comes down to
calibrating that measure (`assemble_measured`): the pipeline holds the measurement that is
calibrated, and the fault of the calibration is the fault of the query. The run that assembles and
the one that notes go through the same events, side by side (`Noted`).
-/
namespace PrivateQuery

open Assembly

/-! ## Notes of the measure -/

/-- The measure that an event leaves pending, with the mechanism of its noise. -/
def Event.pending? : Event → Option (Mechanism × Pending)
  | .count column type bin? mechanism =>
    (pendingCount column type bin?).toOption.map fun pending => (mechanism, pending)
  | .sum column type mechanism =>
    (pendingSum column type).toOption.map fun pending => (mechanism, pending)
  | _ => none

/-- The pass that notes the last measure and objects to nothing. -/
def Pass.measure : Pass (Option (Mechanism × Pending)) QueryError :=
  ⟨fun event noted? => (.ok (), event.pending?.or noted?), id⟩

/-- The measure of a query that can be checked, with its mechanism. -/
def measured? (terms : Terms) (schema : Schema) (steps : List Step) :
    Option (Mechanism × Pending) :=
  match Course.run Pass.measure terms steps (.start schema none) with
  | .ok c => c.state
  | .error _ => none

/-- What is noted after some more events. -/
def noteAll (noted? : Option (Mechanism × Pending)) (events : List Event) :
    Option (Mechanism × Pending) :=
  events.foldl (fun noted? event => event.pending?.or noted?) noted?

theorem noteAll_append (noted? : Option (Mechanism × Pending)) (events more : List Event) :
    noteAll noted? (events ++ more) = noteAll (noteAll noted? events) more :=
  List.foldl_append

theorem noteAll_of_none {events : List Event} (none : ∀ event ∈ events, event.pending? = none)
    (noted? : Option (Mechanism × Pending)) : noteAll noted? events = noted? := by
  induction events generalizing noted? with
  | nil => rfl
  | cons event events ih =>
    obtain ⟨first, rest⟩ := List.forall_mem_cons.1 none
    rw [noteAll, List.foldl_cons, first]
    exact ih rest noted?

theorem measure_observeAll (events : List Event) (noted? : Option (Mechanism × Pending)) :
    Pass.measure.observeAll events noted? = (.ok (), noteAll noted? events) := by
  induction events generalizing noted? with
  | nil => rfl
  | cons event events ih => exact ih _

variable {library : Library} {terms : Terms} {source : Schema}

/-- No event of an operation but a count or a sum leaves a measure pending. -/
theorem noteAll_of_measuring {s : Standing} {op : Operation} {move : Move}
    (accepted : Accepted terms s op move) (none : op.measuring = [])
    (noted? : Option (Mechanism × Pending)) : noteAll noted? move.events = noted? := by
  refine noteAll_of_none ?_ noted?
  intro event member
  cases accepted with
  | count | countBinned | sum => simp [Operation.measuring] at none
  | filter =>
    obtain ⟨p, -, rfl⟩ := List.mem_map.1 member
    rfl
  | rename =>
    obtain ⟨e, -, rfl⟩ := List.mem_map.1 member
    rfl
  | select | bin | noise =>
    obtain rfl := List.mem_singleton.1 member
    rfl

/-! ## The two runs -/

/-- What is due for some step of some schema, with its mechanism. -/
def Owed (terms : Terms) (mechanism : Mechanism) (pending : Pending) : Prop :=
  ∃ schema step measure, Due terms schema step measure pending ∧ measure.mechanism = mechanism

theorem Owed.intro {schema : Schema} {step : Step} {measure : Measure} {pending : Pending}
    (taken : step.measure? = some measure) (awaits : Awaits terms schema step pending)
    (compatible : checkCompatibility terms.budget terms.notion measure.mechanism = .ok ()) :
    Owed terms measure.mechanism pending :=
  ⟨schema, step, measure, ⟨taken, awaits, compatible⟩, rfl⟩

/-- Go on with more events, unless there has been an objection. -/
def Pass.resume {σ ε : Type} (pass : Pass σ ε) (events : List Event) :
    Except ε Unit × σ → Except ε Unit × σ
  | (.ok (), state) => pass.observeAll events state
  | (.error e, state) => (.error e, state)

/-- How the run that assembles, which may have ended with an objection, goes with what has been
noted. -/
inductive Noted (library : Library) (terms : Terms) (source : Schema) :
    Standing → Except (Fault QueryError) Unit × Assembly → Option (Mechanism × Pending) → Prop where
  | awaiting {s : Standing} {a : Assembly} (fits : Fits library terms source [] s a) :
      Noted library terms source s (.ok (), a) none
  | measuring {schema : Schema} {mechanism : Mechanism} {pending : Pending} {step : Step}
      {a : Assembly} (fits : Fits library terms source [step] ⟨schema, .measuring mechanism⟩ a)
      (waits : a.pending? = some pending) :
      Noted library terms source ⟨schema, .measuring mechanism⟩ (.ok (), a)
        (some (mechanism, pending))
  | noised {released : Schema} {mechanism : Mechanism} {pending : Pending} {a : Assembly}
      {pipeline : Pipeline} (owed : Owed terms mechanism pending)
      (made : a.pipeline? = some pipeline)
      (found : calibrated library terms.budget terms.notion mechanism pending =
        .ok pipeline.measurement) :
      Noted library terms source ⟨released, .noiseAdded⟩ (.ok (), a) (some (mechanism, pending))
  | failed {released : Schema} {mechanism : Mechanism} {pending : Pending} {a : Assembly}
      {cause : Fault MechanismError} (owed : Owed terms mechanism pending)
      (failed : calibrated library terms.budget terms.notion mechanism pending = .error cause) :
      Noted library terms source ⟨released, .noiseAdded⟩ (.error (calibrationFault cause), a)
        (some (mechanism, pending))

/-- New names leave the measurement of a pipeline as it is. -/
theorem observeAll_renamed (parameters : Parameters) (entries : List (String × String))
    {a : Assembly} {pipeline : Pipeline} (made : a.pipeline? = some pipeline) :
    ∃ a' pipeline', (pass library parameters).observeAll
        (entries.map fun e => .rename e.1 e.2 .noiseAdded) a = (.ok (), a') ∧
      a'.pipeline? = some pipeline' ∧ pipeline'.measurement = pipeline.measurement := by
  induction entries generalizing a pipeline with
  | nil => exact ⟨a, pipeline, rfl, made, rfl⟩
  | cons e entries ih =>
    have kept : (pipeline.relabel e.1 e.2).measurement = pipeline.measurement := by
      unfold Pipeline.relabel
      split <;> rfl
    obtain ⟨a', pipeline', observed, made', same⟩ :=
      ih (a := { a with pipeline? := some (pipeline.relabel e.1 e.2) }) rfl
    refine ⟨a', pipeline', ?_, made', same.trans kept⟩
    simpa [Pass.observeAll, Assembly.pass, after, made] using observed

/-- An accepted operation takes both runs on. -/
theorem Noted.move (parameters : Parameters) {s : Standing} {op : Operation} {move : Move}
    {o : Except (Fault QueryError) Unit × Assembly} {noted? : Option (Mechanism × Pending)}
    (noted : Noted library terms source s o noted?) (accepted : Accepted terms s op move) :
    Noted library terms source move.next ((pass library parameters).resume move.events o)
      (noteAll noted? move.events) := by
  cases noted with
  | @awaiting _ a fits =>
    have other : op ≠ .noise := by
      rintro rfl
      cases accepted
      cases fits
    obtain ⟨a', observed, fits'⟩ := observe_fits parameters fits accepted other
    rw [List.nil_append] at fits'
    rw [Pass.resume, observed]
    by_cases measures : op.measuring = []
    · rw [noteAll_of_measuring accepted measures]
      rw [measures] at fits'
      exact .awaiting fits'
    · cases accepted with
      | count =>
        obtain ⟨pending, made, waits⟩ := observeAll_count observed
        have noted := Noted.measuring fits' waits
        simpa [noteAll, Event.pending?, made, Except.toOption] using noted
      | countBinned =>
        obtain ⟨pending, made, waits⟩ := observeAll_count observed
        have noted := Noted.measuring fits' waits
        simpa [noteAll, Event.pending?, made, Except.toOption] using noted
      | sum =>
        obtain ⟨pending, made, waits⟩ := observeAll_sum observed
        have noted := Noted.measuring fits' waits
        simpa [noteAll, Event.pending?, made, Except.toOption] using noted
      | _ => exact absurd rfl measures
  | measuring fits waits =>
    cases accepted with
    | rename due => simp at due
    | noise compatible =>
      cases fits with
      | measuring projects taken awaits =>
        cases waits
        have owed := Owed.intro taken awaits compatible
        rw [Pass.resume, observeAll_noise, noteAll_of_none (by simp [Event.pending?])]
        split
        · rename_i measurement found
          exact .noised owed rfl found
        · rename_i cause failed
          exact .failed owed failed
  | noised owed made found =>
    rw [noteAll_of_measuring accepted (by cases accepted; rfl)]
    cases accepted with
    | @rename _ _ _ mapping =>
      obtain ⟨a', pipeline', observed, made', same⟩ :=
        observeAll_renamed parameters mapping.entries made
      rw [Pass.resume, observed]
      exact .noised owed made' (same ▸ found)
  | failed owed failed =>
    rw [noteAll_of_measuring accepted (by cases accepted; rfl)]
    cases accepted
    exact .failed owed failed

theorem resume_append {σ ε : Type} (pass : Pass σ ε) (events more : List Event)
    (o : Except ε Unit × σ) :
    pass.resume (events ++ more) o = pass.resume more (pass.resume events o) := by
  obtain ⟨outcome, state⟩ := o
  cases outcome with
  | error e => rfl
  | ok u =>
    rw [Pass.resume, Pass.observeAll_append, Pass.resume]
    split
    · rename_i middle seen
      rw [seen, Pass.resume]
    · rename_i e middle seen
      rw [seen, Pass.resume]

theorem Noted.moves (parameters : Parameters) {s s' : Standing} {ops : List Operation}
    {events : List Event} {o : Except (Fault QueryError) Unit × Assembly}
    {noted? : Option (Mechanism × Pending)} (noted : Noted library terms source s o noted?)
    (moves : Moves terms s ops events s') :
    Noted library terms source s' ((pass library parameters).resume events o)
      (noteAll noted? events) := by
  induction moves generalizing o noted? with
  | nil =>
    obtain ⟨outcome, a⟩ := o
    cases outcome <;> exact noted
  | cons accepted rest ih =>
    rw [resume_append, noteAll_append]
    exact ih (noted.move parameters accepted)

/-- The built pipeline of a query, compiled with a library. -/
def assembleWith (library : Library) (parameters : Parameters) (budget : Budget) (notion : Notion)
    (schema : Schema) (steps : List Step) : Attempt QueryError Pipeline := do
  let c ← compile library parameters budget notion schema steps
  Attempt.ofExcept c.build

/-- **`assemble_measured`**: a query that passes its check has a measure that may be noised. Its
pipeline holds what the library calibrates for this measure, and there is none if and only if that
fails. -/
theorem assemble_measured {parameters : Parameters} {budget : Budget} {notion : Notion}
    {schema released : Schema} {steps : List Step}
    (checked : typecheck (.of budget notion parameters) schema steps = .ok released)
    (library : Library) :
    ∃ mechanism pending,
      measured? (.of budget notion parameters) schema steps = some (mechanism, pending) ∧
      Owed (.of budget notion parameters) mechanism pending ∧
      ((∃ pipeline, assembleWith library parameters budget notion schema steps = .ok pipeline ∧
          calibrated library budget notion mechanism pending = .ok pipeline.measurement) ∨
        ∃ cause, assembleWith library parameters budget notion schema steps =
            .error (calibrationFault cause) ∧
          calibrated library budget notion mechanism pending = .error cause) := by
  obtain ⟨c, ran, checked⟩ := bind_eq_ok.1 checked
  obtain ⟨u, finished, -⟩ := bind_eq_ok.1 checked
  obtain ⟨events, moves, -⟩ := Course.run_eq_ok_iff.1 ran
  have measured : measured? (.of budget notion parameters) schema steps = noteAll none events := by
    have noting : Course.run Pass.measure (.of budget notion parameters) steps (.start schema none) =
        .ok ⟨c.standing, noteAll none events⟩ :=
      Course.run_eq_ok_iff.2 ⟨events, moves, measure_observeAll events none⟩
    simp only [measured?, noting]
  have start : Noted library (.of budget notion parameters) schema (.start schema)
      (.ok (), .empty) none := .awaiting (start_fits library _ schema)
  have noted := start.moves parameters moves
  rw [← measured] at noted
  generalize measured? (.of budget notion parameters) schema steps = noted? at noted ⊢
  obtain ⟨standing, state⟩ := c
  generalize seen : (pass library parameters).resume events (.ok (), .empty) = o at noted
  cases noted with
  | awaiting fits =>
    cases fits <;> exact nomatch finished
  | measuring fits waits => exact nomatch finished
  | @noised final mechanism pending a pipeline owed made found =>
    refine ⟨mechanism, pending, rfl, owed, .inl ⟨pipeline, ?_, found⟩⟩
    have compiled : compile library parameters budget notion schema steps =
        .ok ⟨⟨final, .noiseAdded⟩, a⟩ := Course.run_eq_ok_iff.2 ⟨events, moves, seen⟩
    have built : (Course.mk ⟨final, .noiseAdded⟩ a).build = .ok pipeline := by
      simp only [Course.build, made]
      rfl
    exact bind_eq_ok.2 ⟨_, compiled, Attempt.ofExcept_eq_ok.2 built⟩
  | @failed _ mechanism pending a cause owed failed =>
    refine ⟨mechanism, pending, rfl, owed, .inr ⟨cause, ?_, failed⟩⟩
    have refused : compile library parameters budget notion schema steps =
        .error (calibrationFault cause) := Course.run_objected moves seen
    rw [assembleWith, refused]
    rfl

end PrivateQuery
