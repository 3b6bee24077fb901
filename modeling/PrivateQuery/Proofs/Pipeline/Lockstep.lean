import PrivateQuery.Proofs.Frame.Lockstep
import PrivateQuery.Proofs.Machine.Shape
import PrivateQuery.Proofs.Pipeline.Agreement
import Mathlib.Data.List.Forall2

/-!
# Transforms keep schema and frame in step

Transforms act twice: on the schema when they are accepted, and on the frame when the operations that
were noted for them are carried out (`Step.deferred`). The two agree (`transforms_in_step`): on
every frame that has the columns of the schema, in whatever order, the operations leave a frame that
has those of the working schema, with the cells of the rows that pass all filters.
-/
namespace PrivateQuery

/-! ## Typed cells -/

namespace ColumnType

/-- Whether a value may stand in a column of a type: a missing one, or one of its kind. -/
def admits : ColumnType → Value → Bool
  | _, .null => true
  | int .., .integer _ => true
  | double .., .real _ => true
  | bool, .boolean _ => true
  | labelled _, .text _ => true
  | text, .text _ => true
  | _, _ => false

theorem admits_read (type : ColumnType) (cell : String) : type.admits (type.read cell) = true := by
  cases type with
  | int low high =>
    simp only [read]
    split
    · rfl
    · cases readInt? (Text.trim cell) <;> rfl
  | double low high =>
    simp only [read]
    split
    · rfl
    · cases Decimal.readFloat? (Text.trim cell) <;> rfl
  | bool =>
    simp only [read]
    split
    · rfl
    · cases readBool? (Text.trim cell) <;> rfl
  | labelled labels =>
    simp only [read]
    split <;> rfl
  | text =>
    simp only [read]
    split <;> rfl

end ColumnType

/-! ## Operations noted for transforms -/

/-- The operations on the frame that a transform stands for. A mapping gives one new name after the
other, in the order of its keys. -/
def Step.deferred : Step → List FrameOperation
  | select columns => [.select columns]
  | filter texts => (texts.filterMap fun text => (Predicate.parse text).toOption).map .filter
  | rename mapping => mapping.entries.map fun e => .rename e.1 e.2
  | _ => []

theorem filterMap_of_mapM {α β ε : Type} {f : α → Except ε β} {items : List α} {results : List β}
    (h : items.mapM f = .ok results) : (items.filterMap fun a => (f a).toOption) = results := by
  induction items generalizing results with
  | nil =>
    cases h
    rfl
  | cons item items ih =>
    obtain ⟨result, rest, first, others, rfl⟩ := mapM_cons_eq_ok.1 h
    simp [toOption_eq_some.2 first, ih others]

variable {library : Library} {parameters : Parameters} {terms : Terms}

/-- The events of a transform have its operations noted. -/
theorem observe_transform {step : Step} {schema : Schema} {events : List Event} {next : Standing}
    (moves : Moves terms ⟨schema, .awaitingTransform⟩ step.operations events next)
    (transforms : step.isTransform = true) (ops : List FrameOperation) :
    next.stage = .awaitingTransform ∧
      (Assembly.pass library parameters).observeAll events ⟨ops, none, none⟩ =
        (.ok (), ⟨ops ++ step.deferred, none, none⟩) := by
  cases step with
  | select columns =>
    cases moves_single_iff.1 moves with
    | select kept => exact ⟨rfl, rfl⟩
  | filter texts =>
    cases moves_single_iff.1 moves with
    | filter parsed own =>
      rw [Step.deferred, filterMap_of_mapM parsed]
      exact ⟨rfl, Assembly.observeAll_filter _ ops⟩
  | rename mapping =>
    cases moves_single_iff.1 moves with
    | rename due renamed => exact ⟨rfl, Assembly.observeAll_rename _ ops⟩
  | _ => simp [Step.isTransform] at transforms

/-- The events of transforms have their operations noted, in order. -/
theorem observe_transforms {steps : List Step} {s next : Standing} {events : List Event}
    (moves : Moves terms s (steps.flatMap Step.operations) events next)
    (stage : s.stage = .awaitingTransform) (transforms : ∀ step ∈ steps, step.isTransform = true)
    (ops : List FrameOperation) :
    next.stage = .awaitingTransform ∧
      (Assembly.pass library parameters).observeAll events ⟨ops, none, none⟩ =
        (.ok (), ⟨ops ++ steps.flatMap Step.deferred, none, none⟩) := by
  induction steps generalizing s events ops with
  | nil =>
    cases moves
    exact ⟨stage, by simp [Pass.observeAll]⟩
  | cons step steps ih =>
    rw [List.flatMap_cons, moves_append_iff] at moves
    obtain ⟨middle, first, rest, moves, moves', rfl⟩ := moves
    obtain ⟨schema, _⟩ := s
    cases stage
    obtain ⟨stage', noted⟩ := observe_transform moves (transforms step List.mem_cons_self) ops
    obtain ⟨stage, noted'⟩ := ih moves' stage'
      (fun other mem => transforms other (List.mem_cons_of_mem step mem)) (ops ++ step.deferred)
    refine ⟨stage, Pass.observeAll_append_eq_ok_iff.2 ⟨_, noted, ?_⟩⟩
    rw [noted', List.flatMap_cons, List.append_assoc]

/-! ## Schema and frame -/

/-- How the frame that operations leave stands to the one before them, as the working schema stands
to the schema of the query. -/
structure InStep (source working : Schema) (ops : List FrameOperation) (frame frame' : Frame) :
    Prop where
  header : frame'.header.Perm working.names
  distinct : frame'.header.Nodup
  wide : ∀ row ∈ frame'.rows, row.length = frame'.header.length
  /-- A column comes from a column of its type. -/
  source : ∀ column ∈ working.columns,
    column.origin ops ∈ source.columns ∧ (column.origin ops).type = column.type
  /-- Two columns do not come from one. -/
  injective : ∀ a ∈ working.columns, ∀ b ∈ working.columns, a.origin ops = b.origin ops → a = b
  /-- The rows left are those that pass all filters, each with its cells under the columns they come
  from. -/
  rows : List.Forall₂
    (fun row row' => ∀ column ∈ working.columns, ∃ v,
      Predicate.cell? frame.header row (column.origin ops).name = some v ∧
        Predicate.cell? frame'.header row' column.name = some v)
    (frame.rows.filter (survives ops frame.header)) frame'.rows
  typed : ∀ row ∈ frame'.rows, ∀ column ∈ working.columns,
    column.type.admits (cellNamed frame'.header row column.name) = true

/-- A frame to which operations are carried is in step. -/
theorem Carried.inStep {source working : Schema} {ops : List FrameOperation} {frame frame' : Frame}
    (carried : Carried ops working frame frame') (projects : Projects source ops working)
    (own : frame.header.Perm source.names)
    (typed : ∀ row ∈ frame.rows, ∀ column ∈ source.columns,
      column.type.admits (cellNamed frame.header row column.name) = true) :
    InStep source working ops frame frame' := by
  have has {column : Column} (mem : column ∈ working.columns) : column.name ∈ frame'.header :=
    carried.header.mem_iff.2 (List.mem_map_of_mem mem)
  have cell {column : Column} (mem : column ∈ working.columns) (row : List Value) :
      cellNamed frame'.header (carry ops frame.header frame'.header row) column.name =
        cellNamed frame.header row (column.origin ops).name :=
    cellNamed_map (has mem) _
  refine ⟨carried.header, carried.header.nodup_iff.2 working.distinct, frame'.rectangular, ?_,
    origin_injective projects, ?_, ?_⟩
  · intro column mem
    exact ⟨origin_mem projects column mem, rfl⟩
  · rw [carried.rows, List.forall₂_map_right_iff, List.forall₂_same]
    intro row mem column mem'
    have before : (column.origin ops).name ∈ frame.header :=
      own.mem_iff.2 (List.mem_map_of_mem (origin_mem projects column mem'))
    refine ⟨_, Frame.cell?_of_mem (frame.rectangular row (List.mem_filter.1 mem).1) before, ?_⟩
    rw [← cell mem' row]
    exact Frame.cell?_of_mem (by simp [carry]) (has mem')
  · intro row' mem' column mem
    rw [carried.rows] at mem'
    obtain ⟨row, kept, rfl⟩ := List.mem_map.1 mem'
    rw [cell mem]
    exact typed row (List.mem_filter.1 kept).1 (column.origin ops) (origin_mem projects column mem)

/-- **`transforms_in_step`**: transforms that are accepted can be carried out on every frame that
has the columns of the schema with cells of their types, and leave it in step with the working
schema. -/
theorem transforms_in_step (library : Library) (parameters : Parameters) (budget : Budget)
    (notion : Notion) (schema : Schema) (steps : List Step) (c : Course Assembly) (frame : Frame)
    (transforms : ∀ step ∈ steps, step.isTransform = true)
    (compiled : compile library parameters budget notion schema steps = .ok c)
    (own : frame.header.Perm schema.names)
    (typed : ∀ row ∈ frame.rows, ∀ column ∈ schema.columns,
      column.type.admits (cellNamed frame.header row column.name) = true) :
    c.standing.stage = .awaitingTransform ∧
      c.state.projection = steps.flatMap Step.deferred ∧
      ∃ frame', c.state.projection.foldlM FrameOperation.apply frame = .ok frame' ∧
        InStep schema c.standing.schema c.state.projection frame frame' := by
  obtain ⟨events, moves, observed⟩ := Course.run_eq_ok_iff.1 compiled
  obtain ⟨stage, noted⟩ := observe_transforms moves rfl transforms []
  have fits := compile_fits compiled
  generalize measuring steps = taken at fits
  obtain ⟨⟨working, _⟩, a⟩ := c
  cases stage
  obtain rfl : a = ⟨steps.flatMap Step.deferred, none, none⟩ :=
    congrArg Prod.snd (observed.symm.trans noted)
  cases fits with
  | transforming projects =>
    obtain ⟨frame', carried⟩ := carried_of_projects projects own
    exact ⟨rfl, rfl, frame', carried.done, carried.inStep projects own typed⟩

/-- Adults by age and name, of a frame that has the columns the other way round. A name that the
mapping gives up is taken by its next entry. -/
theorem transforms_in_step_adults :
    ∃ c, compile (.standard .standard) .standard ⟨1, none⟩ .pureDP
        ⟨[⟨"name", .text⟩, ⟨"age", .int 0 100⟩], by decide⟩
        [.filter ["age > 18"], .rename (.ofList [("age", "years"), ("name", "age")]),
          .select ["years", "age"]] = .ok c ∧
      (∀ row ∈ [[Value.integer 20, .text "ann"], [.integer 9, .null]],
        ∀ column ∈ [(⟨"name", .text⟩ : Column), ⟨"age", .int 0 100⟩],
          column.type.admits (cellNamed ["age", "name"] row column.name) = true) ∧
      c.standing.stage = .awaitingTransform ∧
      c.state.projection =
        [Step.filter ["age > 18"], .rename (.ofList [("age", "years"), ("name", "age")]),
          .select ["years", "age"]].flatMap Step.deferred ∧
      ∃ frame', c.state.projection.foldlM FrameOperation.apply
          ⟨["age", "name"], [[.integer 20, .text "ann"], [.integer 9, .null]], by decide⟩ =
            .ok frame' ∧
        InStep ⟨[⟨"name", .text⟩, ⟨"age", .int 0 100⟩], by decide⟩ c.standing.schema
          c.state.projection
          ⟨["age", "name"], [[.integer 20, .text "ann"], [.integer 9, .null]], by decide⟩ frame' := by
  have accepted : (compile (.standard .standard) .standard ⟨1, none⟩ .pureDP
      ⟨[⟨"name", .text⟩, ⟨"age", .int 0 100⟩], by decide⟩
      [.filter ["age > 18"], .rename (.ofList [("age", "years"), ("name", "age")]),
        .select ["years", "age"]]).toOption.isSome = true := by decide +kernel
  obtain ⟨c, compiled⟩ := Option.isSome_iff_exists.1 accepted
  rw [toOption_eq_some] at compiled
  have typed : ∀ row ∈ [[Value.integer 20, .text "ann"], [.integer 9, .null]],
      ∀ column ∈ [(⟨"name", .text⟩ : Column), ⟨"age", .int 0 100⟩],
        column.type.admits (cellNamed ["age", "name"] row column.name) = true := by decide
  have reordered : ["age", "name"].Perm ["name", "age"] := .swap "name" "age" []
  exact ⟨c, compiled, typed, transforms_in_step _ _ _ _ _ _ c
    ⟨["age", "name"], [[.integer 20, .text "ann"], [.integer 9, .null]], by decide⟩
    (by simp [Step.isTransform]) compiled reordered typed⟩

end PrivateQuery
