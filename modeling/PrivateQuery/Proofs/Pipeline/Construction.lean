import PrivateQuery.Pipeline.Assembly
import PrivateQuery.Proofs.Machine.Moves

/-!
# What an assembly holds

At every point of a query the assembly fits where the query stands (`Fits`): its projection leads
from the schema of the query to the working schema, a measure is pending when noise is due, and there is
a calibrated pipeline once noise has been added. Legal moves keep the fit (`observe_fits`), and the
only event that is ever objected to is a noise that cannot be calibrated (`observe_noise`).
-/
namespace PrivateQuery

/-- The measure that a step takes, if it takes one. -/
def Step.measure? : Step → Option Measure
  | .count measure | .sum measure => some measure
  | _ => none

/-- The steps of a query that take a measure. -/
def measuring (steps : List Step) : List Step := steps.filter fun step => step.measure?.isSome

/-- The step whose measure an operation takes. -/
def Operation.measuring : Operation → List Step
  | .count measure => [.count measure]
  | .sum measure => [.sum measure]
  | _ => []

/-- The operations on a frame that take a schema to another, each legal on the schema before it. -/
inductive Projects (source : Schema) : List FrameOperation → Schema → Prop where
  | done : Projects source [] source
  | select {ops : List FrameOperation} {schema schema' : Schema} {columns : List String}
      (before : Projects source ops schema) (kept : schema.select columns = .ok schema') :
      Projects source (ops ++ [.select columns]) schema'
  | filter {ops : List FrameOperation} {schema : Schema} {p : Predicate}
      (before : Projects source ops schema)
      (own : ∀ column ∈ p.columns, schema.contains column = true) :
      Projects source (ops ++ [.filter p]) schema
  | rename {ops : List FrameOperation} {schema schema' : Schema} {old new : String}
      (before : Projects source ops schema) (renamed : schema.rename old new = .ok schema') :
      Projects source (ops ++ [.rename old new]) schema'

namespace Projects

variable {source schema : Schema} {ops : List FrameOperation}

theorem filters {predicates : List Predicate} (before : Projects source ops schema)
    (own : ∀ p ∈ predicates, ∀ column ∈ p.columns, schema.contains column = true) :
    Projects source (ops ++ predicates.map .filter) schema := by
  induction predicates generalizing ops with
  | nil => simpa using before
  | cons p predicates ih =>
    have first := before.filter (own p List.mem_cons_self)
    simpa using ih first fun q mem => own q (List.mem_cons_of_mem p mem)

theorem renames {entries : List (String × String)} {schema' : Schema}
    (before : Projects source ops schema)
    (renamed : Transition.renameAll .awaitingTransform entries schema = .ok schema') :
    Projects source (ops ++ entries.map fun e => .rename e.1 e.2) schema' := by
  induction entries generalizing ops schema with
  | nil =>
    cases renamed
    simpa using before
  | cons e entries ih =>
    simp only [Transition.renameAll, List.foldlM_cons, bind_eq_ok] at renamed
    obtain ⟨next, first, rest⟩ := renamed
    simpa using ih (before.rename (by simpa using first)) rest

end Projects

/-- What is pending after a count or a sum of a column of a schema. -/
inductive Awaits (terms : Terms) (schema : Schema) : Step → Pending → Prop where
  | count {measure : Measure} {type : ColumnType}
      (typed : schema.typeOf measure.column = .ok type) :
      Awaits terms schema (.count measure) ⟨.count measure.column, true, measure.column, none⟩
  | histogram {measure : Measure} {type : ColumnType} {b : Bin} {categories : List Value}
      (typed : schema.typeOf measure.column = .ok type) (binned : b.column = measure.column)
      (distinct : Value.allDistinct b.values = true)
      (checked : Transition.checkBins terms.maxCategories b type = .ok ())
      (listed : Assembly.categories b type = .ok categories) :
      Awaits terms schema (.count measure)
        ⟨.countBy measure.column categories, true, measure.column, some categories⟩
  | integerSum {measure : Measure} {low high : Int64}
      (typed : schema.typeOf measure.column = .ok (.int low high))
      (bounded : 0 < terms.budget.epsilon →
        Transition.sumBound (.int low high) / terms.budget.epsilon ≤ maxSumScale) :
      Awaits terms schema (.sum measure)
        ⟨.integerSum measure.column low high, true, measure.column, none⟩
  | floatSum {measure : Measure} {low high : Float}
      (typed : schema.typeOf measure.column = .ok (.double low high))
      (bounded : 0 < terms.budget.epsilon →
        Transition.sumBound (.double low high) / terms.budget.epsilon ≤ maxSumScale) :
      Awaits terms schema (.sum measure)
        ⟨.floatSum measure.column low high, false, measure.column, none⟩

/-- A step that takes a measure of a schema, which is then pending and may be noised. -/
structure Due (terms : Terms) (schema : Schema) (step : Step) (measure : Measure)
    (pending : Pending) : Prop where
  taken : step.measure? = some measure
  awaits : Awaits terms schema step pending
  compatible : checkCompatibility terms.budget terms.notion measure.mechanism = .ok ()

/-- How an assembly fits where a query stands, given the steps so far that take a measure. -/
inductive Fits (library : Library) (terms : Terms) (source : Schema) :
    List Step → Standing → Assembly → Prop where
  | transforming {schema : Schema} {ops : List FrameOperation}
      (projects : Projects source ops schema) :
      Fits library terms source [] ⟨schema, .awaitingTransform⟩ ⟨ops, none, none⟩
  | binned {schema : Schema} {ops : List FrameOperation} {b : Bin} {type : ColumnType}
      (projects : Projects source ops schema) (typed : schema.typeOf b.column = .ok type)
      (distinct : Value.allDistinct b.values = true)
      (checked : Transition.checkBins terms.maxCategories b type = .ok ()) :
      Fits library terms source [] ⟨schema, .awaitingCount b⟩ ⟨ops, none, none⟩
  | measuring {schema : Schema} {ops : List FrameOperation} {step : Step} {measure : Measure}
      {pending : Pending} (projects : Projects source ops schema)
      (taken : step.measure? = some measure) (awaits : Awaits terms schema step pending) :
      Fits library terms source [step] ⟨schema, .measuring measure.mechanism⟩
        ⟨ops, some pending, none⟩
  | noised {schema released : Schema} {ops : List FrameOperation} {step : Step} {measure : Measure}
      {pending : Pending} {measurement : Measurement} {label : String} {seed? : Option Nat}
      (projects : Projects source ops schema) (due : Due terms schema step measure pending)
      (calibrated : Assembly.calibrated library terms.budget terms.notion measure.mechanism
        pending = .ok measurement) :
      Fits library terms source [step] ⟨released, .noiseAdded⟩
        ⟨ops, some pending, some ⟨ops, measurement, label, pending.categories?, seed?⟩⟩

/-! ## No event but noise is objected to -/

theorem filterMap_of_integers {values : List Value} {words : List Int64}
    (h : Transition.integers values = .ok words) : values.filterMap Value.toInt64? = words := by
  induction values generalizing words with
  | nil =>
    cases h
    rfl
  | cons v values ih =>
    cases v with
    | integer i =>
      obtain ⟨rest, read, rfl⟩ := map_eq_ok.1 h
      simp [Value.toInt64?, ih read]
    | _ => simp [Transition.integers] at h

theorem length_of_integers {values : List Value} {words : List Int64}
    (h : Transition.integers values = .ok words) : words.length = values.length := by
  induction values generalizing words with
  | nil =>
    cases h
    rfl
  | cons v values ih =>
    cases v with
    | integer i =>
      obtain ⟨rest, read, rfl⟩ := map_eq_ok.1 h
      simp [ih read]
    | _ => simp [Transition.integers] at h

namespace Assembly

/-- The categories of a bin that fits the type of its column. -/
theorem categories_of_checkBins {most : Nat} {b : Bin} {type : ColumnType}
    (checked : Transition.checkBins most b type = .ok ()) :
    ∃ values, categories b type = .ok values := by
  cases type with
  | int low high =>
    change Transition.checkIntegerBins most b = .ok () at checked
    unfold Transition.checkIntegerBins at checked
    split at checked
    · simp at checked
    · rename_i several
      split at checked
      · simp at checked
      · rename_i words read
        have length := length_of_integers read
        obtain ⟨word, rest, rfl⟩ : ∃ word rest, words = word :: rest :=
          List.exists_cons_of_length_pos (by omega)
        simp only [categories, filterMap_of_integers read]
        exact ⟨_, rfl⟩
  | double low high =>
    change Except.error (QueryError.scope (.doubleBins b.column)) = .ok () at checked
    simp at checked
  | labelled labels => exact ⟨b.values, rfl⟩
  | bool => exact ⟨b.values, rfl⟩
  | text => exact ⟨b.values, rfl⟩

variable {library : Library} {parameters : Parameters} {terms : Terms} {source : Schema}

theorem observeAll_cons_eq_ok {event : Event} {events : List Event} {a a' : Assembly}
    (h : (pass library parameters).observeAll (event :: events) a = (.ok (), a')) :
    ∃ middle, after library parameters a event = .ok middle ∧
      (pass library parameters).observeAll events middle = (.ok (), a') := by
  simp only [Pass.observeAll, Assembly.pass] at h
  cases outcome : after library parameters a event with
  | ok middle =>
    rw [outcome] at h
    exact ⟨middle, rfl, h⟩
  | error fault =>
    rw [outcome] at h
    simp at h

theorem observeAll_count {column : String} {type : ColumnType} {bin? : Option Bin}
    {mechanism : Mechanism} {a a' : Assembly}
    (h : (pass library parameters).observeAll [.count column type bin? mechanism] a = (.ok (), a')) :
    ∃ pending, pendingCount column type bin? = .ok pending ∧ a'.pending? = some pending := by
  obtain ⟨middle, first, rest⟩ := observeAll_cons_eq_ok h
  cases rest
  obtain ⟨pending, made, same⟩ := bind_eq_ok.1 first
  cases same
  exact ⟨pending, Attempt.ofExcept_eq_ok.1 made, rfl⟩

theorem observeAll_sum {column : String} {type : ColumnType} {mechanism : Mechanism}
    {a a' : Assembly}
    (h : (pass library parameters).observeAll [.sum column type mechanism] a = (.ok (), a')) :
    ∃ pending, pendingSum column type = .ok pending ∧ a'.pending? = some pending := by
  obtain ⟨middle, first, rest⟩ := observeAll_cons_eq_ok h
  cases rest
  obtain ⟨pending, made, same⟩ := bind_eq_ok.1 first
  cases same
  exact ⟨pending, Attempt.ofExcept_eq_ok.1 made, rfl⟩

theorem observeAll_filter (predicates : List Predicate) (ops : List FrameOperation) :
    (pass library parameters).observeAll (predicates.map .filter) ⟨ops, none, none⟩ =
      (.ok (), ⟨ops ++ predicates.map .filter, none, none⟩) := by
  induction predicates generalizing ops with
  | nil => simp [Pass.observeAll]
  | cons p predicates ih =>
    have rest := ih (ops ++ [.filter p])
    rw [List.append_assoc] at rest
    exact rest

theorem observeAll_rename (entries : List (String × String)) (ops : List FrameOperation) :
    (pass library parameters).observeAll
        (entries.map fun e => .rename e.1 e.2 .awaitingTransform) ⟨ops, none, none⟩ =
      (.ok (), ⟨ops ++ entries.map fun e => .rename e.1 e.2, none, none⟩) := by
  induction entries generalizing ops with
  | nil => simp [Pass.observeAll]
  | cons e entries ih =>
    have rest := ih (ops ++ [.rename e.1 e.2])
    rw [List.append_assoc] at rest
    exact rest

/-- Once there is a pipeline, new names change its label at most. -/
theorem observeAll_relabel {entries : List (String × String)} {ops : List FrameOperation}
    {pending? : Option Pending} {measurement : Measurement} {label : String}
    {categories? : Option (List Value)} {seed? : Option Nat} :
    ∃ label', (pass library parameters).observeAll
        (entries.map fun e => .rename e.1 e.2 .noiseAdded)
        ⟨ops, pending?, some ⟨ops, measurement, label, categories?, seed?⟩⟩ =
      (.ok (), ⟨ops, pending?, some ⟨ops, measurement, label', categories?, seed?⟩⟩) := by
  induction entries generalizing label with
  | nil => exact ⟨label, rfl⟩
  | cons e entries ih =>
    by_cases same : label = e.1
    · simpa [Pass.observeAll, Assembly.pass, after, Pipeline.relabel, same] using @ih e.2
    · simpa [Pass.observeAll, Assembly.pass, after, Pipeline.relabel, same] using @ih label

/-- Where a noise is due, the assembly waits for its calibration. -/
theorem observeAll_noise {ops : List FrameOperation} {pending : Pending} {mechanism : Mechanism} :
    (pass library parameters).observeAll [.noise terms.budget terms.notion mechanism]
        ⟨ops, some pending, none⟩ =
      match calibrated library terms.budget terms.notion mechanism pending with
      | .ok measurement => (.ok (), ⟨ops, some pending, some ⟨ops, measurement, pending.label,
          pending.categories?, parameters.seed?⟩⟩)
      | .error fault =>
        (.error (fault.map fun e => .execution (.mechanism e)), ⟨ops, some pending, none⟩) := by
  cases h : calibrated library terms.budget terms.notion mechanism pending <;>
    simp [Pass.observeAll, Assembly.pass, after, ofMechanism, Attempt.mapError, h, bind, Except.bind, pure,
      Except.pure]

end Assembly

open Assembly

variable {library : Library} {terms : Terms} {source : Schema}

/-- The events of a legal move other than noise are observed, and the assembly fits where the query
then stands. -/
theorem observe_fits (parameters : Parameters) {measured : List Step} {s : Standing}
    {a : Assembly} {op : Operation} {move : Move}
    (fits : Fits library terms source measured s a)
    (accepted : Accepted terms s op move) (other : op ≠ .noise) :
    ∃ a', (pass library parameters).observeAll move.events a = (.ok (), a') ∧
      Fits library terms source (measured ++ op.measuring) move.next a' := by
  cases accepted with
  | select kept =>
    cases fits with
    | transforming projects => exact ⟨_, rfl, .transforming (projects.select kept)⟩
  | filter parsed own =>
    cases fits with
    | transforming projects =>
      exact ⟨_, observeAll_filter _ _, .transforming (projects.filters own)⟩
  | rename due renamed =>
    cases fits with
    | transforming projects =>
      exact ⟨_, observeAll_rename _ _, .transforming (projects.renames renamed)⟩
    | binned => simp at due
    | measuring => simp at due
    | noised projects owed calibrated =>
      obtain ⟨label', observed⟩ := observeAll_relabel
      exact ⟨_, observed, .noised projects owed calibrated⟩
  | bin typed distinct checked =>
    cases fits with
    | transforming projects => exact ⟨_, rfl, .binned projects typed distinct checked⟩
  | @count schema measure type typed =>
    cases fits with
    | transforming projects =>
      exact ⟨_, rfl, .measuring projects rfl (.count typed)⟩
  | @countBinned schema b measure type typed binned =>
    cases fits with
    | binned projects typed' distinct checked =>
      rw [binned, typed] at typed'
      cases typed'
      obtain ⟨values, listed⟩ := categories_of_checkBins checked
      refine ⟨⟨_, some ⟨.countBy measure.column values, true, measure.column, some values⟩,
        none⟩, ?_, .measuring projects rfl
          (.histogram typed binned distinct checked listed)⟩
      simp [Pass.observeAll, Assembly.pass, after, pendingCount, listed, Attempt.ofExcept, bind,
        Except.bind, pure, Except.pure]
  | @sum schema measure type typed numeric bounded =>
    cases fits with
    | transforming projects =>
      cases type with
      | int low high =>
        exact ⟨_, rfl,
          .measuring projects rfl (.integerSum typed bounded)⟩
      | double low high =>
        exact ⟨_, rfl,
          .measuring projects rfl (.floatSum typed bounded)⟩
      | _ => simp [ColumnType.isNumeric] at numeric
  | noise => exact absurd rfl other

/-- Where noise is legal a measure is pending, and the noise is observed exactly when the measure
can be calibrated. -/
theorem observe_noise (parameters : Parameters) {measured : List Step} {s : Standing}
    {a : Assembly} {move : Move} (fits : Fits library terms source measured s a) (accepted : Accepted terms s .noise move) :
    ∃ step measure pending, measured = [step] ∧ Due terms s.schema step measure pending ∧
      ((∃ measurement a',
          calibrated library terms.budget terms.notion measure.mechanism pending
            = .ok measurement ∧
          (pass library parameters).observeAll move.events a = (.ok (), a') ∧
          Fits library terms source measured move.next a') ∨
        ∃ fault,
          calibrated library terms.budget terms.notion measure.mechanism pending
            = .error fault ∧
          (pass library parameters).observeAll move.events a =
            (.error (fault.map fun e => .execution (.mechanism e)), a)) := by
  cases accepted with
  | noise compatible =>
    cases fits with
    | @measuring _ ops step measure pending projects taken awaits =>
      have due : Due terms _ step measure pending := ⟨taken, awaits, compatible⟩
      refine ⟨step, measure, pending, rfl, due, ?_⟩
      rw [observeAll_noise]
      cases outcome : calibrated library terms.budget terms.notion measure.mechanism pending with
      | ok measurement =>
        exact .inl ⟨measurement, _, rfl, rfl, .noised projects due outcome⟩
      | error fault => exact .inr ⟨fault, rfl, rfl⟩

end PrivateQuery
