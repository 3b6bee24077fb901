import PrivateQuery.Proofs.Machine.Runs

/-!
# The shape of queries

A complete query is transforms, then one measure, then new names, and its noise is added once, with
the mechanism of that measure (`run_shape`). This holds of every pass that observes the query. It
rests on what the steps so far say of the stage and of the noises among their events (`Shape`), which
every step keeps (`Shape.step`).
-/
namespace PrivateQuery

namespace Step

/-- Whether a step transforms the working columns. -/
def isTransform : Step → Bool
  | select _ | filter _ | rename _ => true
  | _ => false

def isRename : Step → Bool
  | rename _ => true
  | _ => false

end Step

def Event.isNoise : Event → Bool
  | noise .. => true
  | _ => false

/-- The steps that take a measure: a count or a sum of it, or a bin of its column and its count. -/
inductive Measures (measure : Measure) : List Step → Prop where
  | count : Measures measure [.count measure]
  | sum : Measures measure [.sum measure]
  | histogram {b : Bin} (binned : b.column = measure.column) :
      Measures measure [.bin b, .count measure]

/-- The steps after which a query stands at a stage, with the noises among their events. No step ends
while a measure waits for its noise. -/
inductive Shape (terms : Terms) : List Step → Stage → List Event → Prop where
  | transforming {steps : List Step} (transforms : ∀ step ∈ steps, step.isTransform = true) :
      Shape terms steps .awaitingTransform []
  | binned {steps : List Step} {b : Bin} (transforms : ∀ step ∈ steps, step.isTransform = true) :
      Shape terms (steps ++ [.bin b]) (.awaitingCount b) []
  | noised {before measured after : List Step} {measure : Measure}
      (transforms : ∀ step ∈ before, step.isTransform = true) (measures : Measures measure measured)
      (renames : ∀ step ∈ after, step.isRename = true) :
      Shape terms (before ++ measured ++ after) .noiseAdded
        [.noise terms.budget terms.notion measure.mechanism]

variable {terms : Terms}

theorem forall_mem_snoc {α : Type} {p : α → Prop} {items : List α} {item : α}
    (all : ∀ a ∈ items, p a) (last : p item) : ∀ a ∈ items ++ [item], p a := by
  rw [List.forall_mem_append, List.forall_mem_singleton]
  exact ⟨all, last⟩

theorem filter_isNoise_filters (predicates : List Predicate) :
    (predicates.map Event.filter).filter Event.isNoise = [] := by
  rw [List.filter_eq_nil_iff]
  intro event mem
  obtain ⟨p, -, rfl⟩ := List.mem_map.1 mem
  simp [Event.isNoise]

theorem filter_isNoise_renames (entries : List (String × String)) (stage : Stage) :
    (entries.map fun e => Event.rename e.1 e.2 stage).filter Event.isNoise = [] := by
  rw [List.filter_eq_nil_iff]
  intro event mem
  obtain ⟨e, -, rfl⟩ := List.mem_map.1 mem
  simp [Event.isNoise]

/-- Once a measure has been taken, its noise follows in the same step. -/
theorem moves_noise {schema : Schema} {mechanism : Mechanism} {next : Standing} {events : List Event}
    (moves : Moves terms ⟨schema, .measuring mechanism⟩ [.noise] events next) :
    events = [.noise terms.budget terms.notion mechanism] ∧ next = ⟨schema, .noiseAdded⟩ := by
  cases moves_single_iff.1 moves
  exact ⟨rfl, rfl⟩

/-- No new name has been given yet right after the measure. -/
theorem Shape.measured {before measured : List Step} {measure : Measure}
    (transforms : ∀ step ∈ before, step.isTransform = true) (measures : Measures measure measured) :
    Shape terms (before ++ measured) .noiseAdded
      [.noise terms.budget terms.notion measure.mechanism] := by
  have shape : Shape terms (before ++ measured ++ []) .noiseAdded
      [.noise terms.budget terms.notion measure.mechanism] :=
    .noised transforms measures (by simp)
  rwa [List.append_nil] at shape

/-- **`Shape.step`**: a step that is taken keeps the shape. -/
theorem Shape.step {steps : List Step} {schema : Schema} {stage : Stage} {noises events : List Event}
    {step : Step} {next : Standing} (shape : Shape terms steps stage noises)
    (moves : Moves terms ⟨schema, stage⟩ step.operations events next) :
    Shape terms (steps ++ [step]) next.stage (noises ++ events.filter Event.isNoise) := by
  cases step with
  | select columns =>
    cases moves_single_iff.1 moves with
    | select kept =>
      cases shape with
      | transforming transforms => exact .transforming (forall_mem_snoc transforms rfl)
  | filter texts =>
    cases moves_single_iff.1 moves with
    | filter parsed own =>
      rw [filter_isNoise_filters]
      cases shape with
      | transforming transforms => exact .transforming (forall_mem_snoc transforms rfl)
  | rename mapping =>
    cases moves_single_iff.1 moves with
    | rename due renamed =>
      rw [filter_isNoise_renames, List.append_nil]
      cases shape with
      | transforming transforms => exact .transforming (forall_mem_snoc transforms rfl)
      | binned => simp at due
      | noised transforms measures renames =>
        rw [List.append_assoc]
        exact .noised transforms measures (forall_mem_snoc renames rfl)
  | bin b =>
    cases moves_single_iff.1 moves with
    | bin typed distinct checked =>
      cases shape with
      | transforming transforms => exact .binned transforms
  | count measure =>
    cases moves with
    | cons accepted rest =>
      cases accepted with
      | count typed =>
        obtain ⟨rfl, rfl⟩ := moves_noise rest
        cases shape with
        | transforming transforms =>
          exact .measured transforms .count
      | @countBinned _ b _ _ typed binned =>
        obtain ⟨rfl, rfl⟩ := moves_noise rest
        cases shape with
        | binned transforms =>
          rw [List.append_assoc]
          exact .measured transforms (.histogram binned)
  | sum measure =>
    cases moves with
    | cons accepted rest =>
      cases accepted with
      | sum typed numeric bounded =>
        obtain ⟨rfl, rfl⟩ := moves_noise rest
        cases shape with
        | transforming transforms =>
          exact .measured transforms .sum

/-- Steps that are taken one after the other keep the shape. -/
theorem Shape.steps {before steps : List Step} {s next : Standing} {noises events : List Event}
    (shape : Shape terms before s.stage noises)
    (moves : Moves terms s (steps.flatMap Step.operations) events next) :
    Shape terms (before ++ steps) next.stage (noises ++ events.filter Event.isNoise) := by
  induction steps generalizing before s noises events with
  | nil =>
    cases moves
    simpa using shape
  | cons step steps ih =>
    rw [List.flatMap_cons, moves_append_iff] at moves
    obtain ⟨middle, first, last, moves, moves', rfl⟩ := moves
    have rest := ih (shape.step moves) moves'
    simpa using rest

/-! ## Complete queries -/

/-- The steps of a complete query are transforms, the steps of one measure and new names, in this order,
and the noise among their events is the one of the measure. -/
theorem shape_of_moves {schema : Schema} {steps : List Step} {s : Standing} {events : List Event}
    (moves : Moves terms (.start schema) (steps.flatMap Step.operations) events s)
    (finished : s.finish = .ok ()) :
    ∃ before measured after measure,
      steps = before ++ measured ++ after ∧ (∀ step ∈ before, step.isTransform = true) ∧
      Measures measure measured ∧ (∀ step ∈ after, step.isRename = true) ∧
      events.filter Event.isNoise = [.noise terms.budget terms.notion measure.mechanism] := by
  have start : Shape terms [] (Standing.start schema).stage [] := .transforming (by simp)
  have shape := start.steps moves
  rw [List.nil_append, List.nil_append] at shape
  obtain ⟨working, stage⟩ := s
  generalize events.filter Event.isNoise = calls at shape ⊢
  dsimp only at shape finished
  cases shape with
  | transforming => simp [Standing.finish] at finished
  | binned => simp [Standing.finish] at finished
  | @noised before measured after measure transforms measures renames =>
    exact ⟨before, measured, after, measure, rfl, transforms, measures, renames, rfl⟩

/-- **`run_shape`**: the steps of a complete query are transforms, the steps of one measure and new
names, in this order, and the pass has been called for noise once, with the mechanism of the
measure. -/
theorem run_shape {σ ε : Type} (pass : Pass σ ε) (terms : Terms) (schema : Schema) (state : σ)
    (steps : List Step) (c : Course σ)
    (ran : Course.run pass terms steps (.start schema state) = .ok c)
    (finished : c.standing.finish = .ok ()) :
    ∃ before measured after measure calls,
      steps = before ++ measured ++ after ∧ (∀ step ∈ before, step.isTransform = true) ∧
      Measures measure measured ∧ (∀ step ∈ after, step.isRename = true) ∧
      Course.run pass.recording terms steps (.start schema (state, [])) =
        .ok ⟨c.standing, (c.state, calls)⟩ ∧
      calls.filter Event.isNoise = [.noise terms.budget terms.notion measure.mechanism] := by
  obtain ⟨events, moves, observed⟩ := Course.run_eq_ok_iff.1 ran
  have recorded : Course.run pass.recording terms steps (.start schema (state, [])) =
      .ok ⟨c.standing, (c.state, events)⟩ :=
    Course.run_eq_ok_iff.2 ⟨events, moves, Pass.recording_observeAll_eq_ok observed []⟩
  obtain ⟨before, measured, after, measure, split, transforms, measures, renames, noises⟩ :=
    shape_of_moves moves finished
  exact ⟨before, measured, after, measure, events, split, transforms, measures, renames, recorded,
    noises⟩

/-- A histogram of the ages above a bound, whose result gets another name. -/
theorem run_shape_histogram :
    ∃ c, Course.run Pass.silent ⟨⟨1, none⟩, .pureDP, 65536⟩
        [.filter ["age > 18"], .bin ⟨"age", [.integer 20, .integer 30]⟩, .count ⟨"age", .laplace⟩,
          .rename (.ofList [("age", "years")])]
        (.start ⟨[⟨"age", .int 0 100⟩], by decide⟩ ()) = .ok c ∧
      c.standing.finish = .ok () ∧
      ∃ before measured after measure calls,
        [.filter ["age > 18"], .bin ⟨"age", [.integer 20, .integer 30]⟩, .count ⟨"age", .laplace⟩,
          .rename (.ofList [("age", "years")])] = before ++ measured ++ after ∧
        (∀ step ∈ before, step.isTransform = true) ∧ Measures measure measured ∧
        (∀ step ∈ after, step.isRename = true) ∧
        Course.run Pass.silent.recording ⟨⟨1, none⟩, .pureDP, 65536⟩
            [.filter ["age > 18"], .bin ⟨"age", [.integer 20, .integer 30]⟩,
              .count ⟨"age", .laplace⟩, .rename (.ofList [("age", "years")])]
            (.start ⟨[⟨"age", .int 0 100⟩], by decide⟩ ((), [])) =
          .ok ⟨c.standing, (c.state, calls)⟩ ∧
        calls.filter Event.isNoise = [.noise ⟨1, none⟩ .pureDP measure.mechanism] := by
  have parsed : ["age > 18"].mapM Predicate.parse =
      .ok [.binary .gt (.column "age") (.literal (.integer 18))] := by
    rw [← toOption_eq_some]
    decide +kernel
  have typed : Schema.typeOf ⟨[⟨"age", .int 0 100⟩], by decide⟩ "age" = .ok (.int 0 100) := by
    rw [← toOption_eq_some]
    decide +kernel
  -- The kernel does not compute hashes, so the bins are told apart by rewriting.
  have distinct : Value.allDistinct [.integer 20, .integer 30] = true := by
    simp [Value.allDistinct, Value.allNew]
    decide
  have checked : Transition.checkBins 65536 ⟨"age", [.integer 20, .integer 30]⟩ (.int 0 100) =
      .ok () := by
    rw [← toOption_eq_some]
    decide +kernel
  have compatible : checkCompatibility ⟨1, none⟩ .pureDP .laplace = .ok () := by
    rw [← toOption_eq_some]
    decide +kernel
  have replaced : (Transition.renameAll .noiseAdded (Dictionary.ofList [("age", "years")]).entries
      ⟨[⟨"age", .int 0 100⟩], by decide⟩).toOption.isSome = true := by decide +kernel
  obtain ⟨released, renamed⟩ := Option.isSome_iff_exists.1 replaced
  rw [toOption_eq_some] at renamed
  have moves : ∃ events, Moves ⟨⟨1, none⟩, .pureDP, 65536⟩
      (Standing.start ⟨[⟨"age", .int 0 100⟩], by decide⟩)
      ([.filter ["age > 18"], .bin ⟨"age", [.integer 20, .integer 30]⟩, .count ⟨"age", .laplace⟩,
        .rename (.ofList [("age", "years")])].flatMap Step.operations) events
      ⟨released, .noiseAdded⟩ :=
    ⟨_, .cons (.filter parsed (by decide +kernel)) (.cons (.bin typed distinct checked)
      (.cons (.countBinned typed rfl) (.cons (.noise compatible)
        (.cons (.rename (.inr rfl) renamed) .nil))))⟩
  obtain ⟨events, moves⟩ := moves
  have ran : Course.run Pass.silent ⟨⟨1, none⟩, .pureDP, 65536⟩
      [.filter ["age > 18"], .bin ⟨"age", [.integer 20, .integer 30]⟩, .count ⟨"age", .laplace⟩,
        .rename (.ofList [("age", "years")])]
      (.start ⟨[⟨"age", .int 0 100⟩], by decide⟩ ()) = .ok ⟨⟨released, .noiseAdded⟩, ()⟩ :=
    Course.run_eq_ok_iff.2 ⟨events, moves, Pass.silent_observeAll _ _⟩
  exact ⟨_, ran, rfl, run_shape _ _ _ _ _ _ ran rfl⟩

end PrivateQuery
