import PrivateQuery.Proofs.Machine.Runs
import PrivateQuery.Proofs.Pipeline.Agreement
import PrivateQuery.Proofs.Privacy.Budget

/-!
# Histograms

A query is compiled to a histogram exactly when it has a bin (`pipeline_histogram_iff`). What has been
binned so far can be told from where the query stands and from what is pending (`Binned`), and every
legal operation keeps that up (`Binned.operation`).
-/
namespace PrivateQuery

open Assembly

/-- Whether a bin has been taken so far, by the stage and by what is pending. -/
inductive Binned : Stage → Option Pending → Bool → Prop where
  | transforming : Binned .awaitingTransform none false
  | binned {b : Bin} : Binned (.awaitingCount b) none true
  | measuring {mechanism : Mechanism} {pending : Pending} {taken : Bool}
      (categories : pending.categories?.isSome = taken) :
      Binned (.measuring mechanism) (some pending) taken
  | noised {pending : Pending} {taken : Bool} (categories : pending.categories?.isSome = taken) :
      Binned .noiseAdded (some pending) taken

def Operation.isBin : Operation → Bool
  | bin _ => true
  | _ => false

def Step.isBin : Step → Bool
  | bin _ => true
  | _ => false

theorem Step.any_isBin (step : Step) : step.operations.any Operation.isBin = step.isBin := by
  cases step <;> rfl

def Event.isMeasure : Event → Bool
  | count .. | sum .. => true
  | _ => false

variable {library : Library} {parameters : Parameters} {terms : Terms}

/-! ## What events leave pending -/

/-- Only a measure changes what is pending. -/
theorem after_pending {event : Event} {a a' : Assembly} (other : event.isMeasure = false)
    (h : after library parameters a event = .ok a') : a'.pending? = a.pending? := by
  cases event with
  | select columns =>
    cases h
    rfl
  | filter p =>
    cases h
    rfl
  | bin b type =>
    cases h
    rfl
  | rename old new stage =>
    simp only [after] at h
    split at h
    · split at h
      · cases h
        rfl
      · simp [Attempt.raise] at h
    · cases h
      rfl
  | noise budget notion mechanism =>
    simp only [after] at h
    split at h
    · simp [Attempt.raise] at h
    · obtain ⟨measurement, -, rest⟩ := bind_eq_ok.1 h
      cases rest
      rfl
  | _ => simp [Event.isMeasure] at other

theorem observeAll_pending {events : List Event} {a a' : Assembly}
    (others : ∀ event ∈ events, event.isMeasure = false)
    (h : (pass library parameters).observeAll events a = (.ok (), a')) :
    a'.pending? = a.pending? := by
  induction events generalizing a with
  | nil =>
    cases h
    rfl
  | cons event events ih =>
    obtain ⟨middle, first, rest⟩ := observeAll_cons_eq_ok h
    have same := ih (fun other mem => others other (List.mem_cons_of_mem event mem)) rest
    rw [same, after_pending (others event List.mem_cons_self) first]

theorem categories_of_pendingCount {column : String} {type : ColumnType} {bin? : Option Bin}
    {pending : Pending} (made : pendingCount column type bin? = .ok pending) :
    pending.categories?.isSome = bin?.isSome := by
  cases bin? with
  | none =>
    cases made
    rfl
  | some b =>
    obtain ⟨values, -, same⟩ := bind_eq_ok.1 made
    cases same
    rfl

/-- A sum has no categories. -/
theorem categories_of_pendingSum {column : String} {type : ColumnType} {pending : Pending}
    (made : pendingSum column type = .ok pending) : pending.categories?.isSome = false := by
  cases type with
  | int low high =>
    cases made
    rfl
  | double low high =>
    cases made
    rfl
  | _ => simp [pendingSum] at made

/-! ## Operations and runs -/

/-- **`Binned.operation`**: a legal operation keeps the account of the bins. -/
theorem Binned.operation {s : Standing} {op : Operation} {move : Move} {a a' : Assembly}
    {taken : Bool} (binned : Binned s.stage a.pending? taken) (accepted : Accepted terms s op move)
    (observed : (pass library parameters).observeAll move.events a = (.ok (), a')) :
    Binned move.next.stage a'.pending? (taken || op.isBin) := by
  have keeps (others : ∀ event ∈ move.events, event.isMeasure = false) :=
    observeAll_pending others observed
  cases accepted with
  | select kept =>
    rw [keeps (by simp [Event.isMeasure])]
    simpa [Operation.isBin] using binned
  | filter parsed own =>
    rw [keeps fun event mem => ?_]
    · simpa [Operation.isBin] using binned
    · obtain ⟨p, -, rfl⟩ := List.mem_map.1 mem
      rfl
  | rename due renamed =>
    rw [keeps fun event mem => ?_]
    · simpa [Operation.isBin] using binned
    · obtain ⟨e, -, rfl⟩ := List.mem_map.1 mem
      rfl
  | bin typed distinct checked =>
    rw [keeps (by simp [Event.isMeasure])]
    generalize a.pending? = pending? at binned
    cases binned
    exact .binned
  | count typed =>
    obtain ⟨pending, made, held⟩ := observeAll_count observed
    rw [held]
    generalize a.pending? = pending? at binned
    cases binned
    exact .measuring (categories_of_pendingCount made)
  | countBinned typed binned' =>
    obtain ⟨pending, made, held⟩ := observeAll_count observed
    rw [held]
    generalize a.pending? = pending? at binned
    cases binned
    exact .measuring (categories_of_pendingCount made)
  | sum typed numeric bounded =>
    obtain ⟨pending, made, held⟩ := observeAll_sum observed
    rw [held]
    generalize a.pending? = pending? at binned
    cases binned
    exact .measuring (categories_of_pendingSum made)
  | noise compatible =>
    rw [keeps (by simp [Event.isMeasure])]
    generalize a.pending? = pending? at binned
    cases binned with
    | measuring categories => exact .noised (by simpa [Operation.isBin] using categories)

/-- Legal operations one after the other keep the account of the bins. -/
theorem Binned.operations {s s' : Standing} {operations : List Operation} {events : List Event}
    {a a' : Assembly} {taken : Bool} (binned : Binned s.stage a.pending? taken)
    (moves : Moves terms s operations events s')
    (observed : (pass library parameters).observeAll events a = (.ok (), a')) :
    Binned s'.stage a'.pending? (taken || operations.any Operation.isBin) := by
  induction moves generalizing a taken with
  | nil =>
    cases observed
    simpa using binned
  | cons accepted rest ih =>
    obtain ⟨middle, first, last⟩ := Pass.observeAll_append_eq_ok_iff.1 observed
    simpa [Bool.or_assoc] using ih (binned.operation accepted first) last

/-! ## Queries -/

variable {budget : Budget} {notion : Notion} {schema : Schema} {steps : List Step}
variable {c : Course Assembly} {pipeline : Pipeline}

/-- The categories of an aggregation. -/
def Transformation.categories? : Transformation → Option (List Value)
  | countBy _ categories => some categories
  | _ => none

/-- **`pipeline_histogram_iff`**: the pipeline of a query has the categories that it counts by, and
there are some exactly when the query has a bin. -/
theorem pipeline_histogram_iff {calibration : Parameters}
    (compiled : compile (.standard calibration) parameters budget notion schema steps = .ok c)
    (built : c.pipeline = .ok pipeline) :
    pipeline.categories? = pipeline.measurement.transformation.categories? ∧
      pipeline.categories?.isSome = steps.any Step.isBin := by
  have fits := compile_fits compiled
  obtain ⟨events, moves, observed⟩ := Course.run_eq_ok_iff.1 compiled
  have start : Binned (Course.start schema Assembly.empty).standing.stage
      (Course.start schema Assembly.empty).state.pending? false := .transforming
  have binned := start.operations moves observed
  have same : (steps.flatMap Step.operations).any Operation.isBin = steps.any Step.isBin := by
    simp [List.any_flatMap, Step.any_isBin]
  rw [same, Bool.false_or] at binned
  obtain ⟨s, a⟩ := c
  dsimp only at fits binned
  generalize measuring steps = taken at fits
  cases fits with
  | noised projects due found =>
    cases built
    cases binned with
    | noised categories =>
      refine ⟨?_, categories⟩
      obtain ⟨scale, -, made⟩ := bind_eq_ok.1 found
      obtain ⟨transformation, -⟩ := measurementAt_standard_eq_ok made
      dsimp only
      rw [transformation]
      cases due.awaits <;> rfl
  | _ => simp [Course.pipeline] at built

end PrivateQuery
