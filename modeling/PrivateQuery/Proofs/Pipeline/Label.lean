import PrivateQuery.Proofs.Pipeline.Lockstep
import PrivateQuery.Proofs.Pipeline.Phases

/-!
# The column under the label

Once its noise has been added a query only takes new names, which act twice: on the working schema,
where the new name may be one that another column has, and on the label of the pipeline. The label
always names a column of the working schema. It is the column that was measured exactly as long as no
new name that another column is given is the label at that time (`released_column_iff`); nothing
refuses such a name, and the column that takes it is then released in name only
(`label_overtaken`).
-/
namespace PrivateQuery

open Assembly

/-! ## Names that are taken over -/

namespace Schema

variable {s s' : Schema} {old new : String}

/-- A replacement is of a column of the schema; of the others it keeps those that do not have the new
name. -/
theorem columns_of_replace (h : s.replace old new = .ok s') :
    old ∈ s.names ∧ s'.columns =
      (s.columns.filter fun column => column.name == old || column.name != new).map
        (renamed old new) := by
  unfold replace at h
  split at h
  · simp at h
  · rename_i own
    cases h
    exact ⟨contains_iff.1 (by simpa using own), rfl⟩

theorem mem_of_replace (h : s.replace old new = .ok s') {column : Column}
    (mem : column ∈ s'.columns) :
    ∃ former ∈ s.columns, column = renamed old new former ∧
      (former.name = new → former.name = old) := by
  rw [(columns_of_replace h).2, List.mem_map] at mem
  obtain ⟨former, kept, rfl⟩ := mem
  obtain ⟨own, other⟩ := List.mem_filter.1 kept
  refine ⟨former, own, rfl, fun taken => ?_⟩
  simpa [taken] using other

/-- A name goes on to be the name of a column, whatever another column is called. -/
theorem newName_mem_of_replace (h : s.replace old new = .ok s') {name : String}
    (own : name ∈ s.names) : newName old new name ∈ s'.names := by
  have kept {other : String} (own : other ∈ s.names) (apart : other = new → other = old) :
      newName old new other ∈ s'.names := by
    obtain ⟨column, mem, rfl⟩ := List.mem_map.1 own
    refine List.mem_map.2 ⟨renamed old new column, ?_, by rw [renamed_eq]⟩
    rw [(columns_of_replace h).2]
    refine List.mem_map_of_mem (List.mem_filter.2 ⟨mem, ?_⟩)
    by_cases taken : column.name = new
    · simp [apart taken]
    · simp [taken]
  by_cases given : name = old
  · exact kept own fun _ => given
  · by_cases taken : name = new
    · -- The column that had the name is dropped, and the renamed one has it now.
      have first := kept (columns_of_replace h).1 fun _ => rfl
      simpa [newName, given, taken] using first
    · exact kept own fun same => absurd same taken

/-- A name that is given up is not a name any more. -/
theorem not_mem_of_replace (h : s.replace old new = .ok s') (ne : old ≠ new) :
    old ∉ s'.names := by
  intro mem
  obtain ⟨column, mem, same⟩ := List.mem_map.1 mem
  obtain ⟨former, -, rfl, -⟩ := mem_of_replace h mem
  rw [renamed_eq] at same
  dsimp only [newName] at same
  split at same
  · exact ne same.symm
  · rename_i other
    exact other same

end Schema

/-- What a name becomes when columns are given new names one after the other. -/
def laterName (entries : List (String × String)) (name : String) : String :=
  entries.foldl (fun name e => newName e.1 e.2 name) name

/-- New names as operations on columns. -/
def renames (entries : List (String × String)) : List FrameOperation :=
  entries.map fun e => .rename e.1 e.2

/-- Of the new names one is given to another column although it is what the label has become by
then. -/
inductive Overtaken : List (String × String) → String → Prop where
  | now {old label : String} {entries : List (String × String)} (other : old ≠ label) :
      Overtaken ((old, label) :: entries) label
  | later {old new label : String} {entries : List (String × String)}
      (rest : Overtaken entries (newName old new label)) : Overtaken ((old, new) :: entries) label

theorem overtaken_cons_iff {old new label : String} {entries : List (String × String)}
    (own : new = label → old = label) :
    Overtaken ((old, new) :: entries) label ↔ Overtaken entries (newName old new label) := by
  constructor
  · intro overtaken
    cases overtaken with
    | now other => exact absurd (own rfl) other
    | later rest => exact rest
  · exact .later

section
variable {s s' : Schema} {entries : List (String × String)} {label : String}

theorem renameAll_cons {e : String × String}
    (h : Transition.renameAll .noiseAdded (e :: entries) s = .ok s') :
    ∃ middle, s.replace e.1 e.2 = .ok middle ∧
      Transition.renameAll .noiseAdded entries middle = .ok s' := by
  simp only [Transition.renameAll, List.foldlM_cons, bind_eq_ok] at h
  obtain ⟨middle, first, rest⟩ := h
  exact ⟨middle, by simpa using first, rest⟩

/-- A column after new names comes from a column before them, with its type. -/
theorem origin_mem_of_renameAll (renamed : Transition.renameAll .noiseAdded entries s = .ok s') :
    ∀ column ∈ s'.columns, column.origin (renames entries) ∈ s.columns := by
  induction entries generalizing s with
  | nil =>
    cases renamed
    intro column mem
    exact mem
  | cons e entries ih =>
    intro column mem
    obtain ⟨middle, first, rest⟩ := renameAll_cons renamed
    obtain ⟨former, own, same, free⟩ := Schema.mem_of_replace first (ih rest column mem)
    have back : column.origin (renames (e :: entries)) =
        (column.origin (renames entries)).origin [.rename e.1 e.2] := rfl
    have here : (Schema.renamed e.1 e.2 former).origin ([] ++ [.rename e.1 e.2]) =
        former.origin [] := Column.origin_renamed free
    rw [List.nil_append] at here
    rw [back, same, here]
    exact own

/-- The label keeps naming a column. -/
theorem laterName_mem (renamed : Transition.renameAll .noiseAdded entries s = .ok s')
    (own : label ∈ s.names) : laterName entries label ∈ s'.names := by
  induction entries generalizing s label with
  | nil =>
    cases renamed
    exact own
  | cons e entries ih =>
    obtain ⟨middle, first, rest⟩ := renameAll_cons renamed
    exact ih rest (Schema.newName_mem_of_replace first own)

/-- **`origin_laterName_iff`**: the column under the label is the one that was under it before,
unless another column was given its name. -/
theorem origin_laterName_iff (renamed : Transition.renameAll .noiseAdded entries s = .ok s')
    (own : label ∈ s.names) :
    origin (renames entries) (laterName entries label) = label ↔ ¬ Overtaken entries label := by
  induction entries generalizing s label with
  | nil =>
    refine ⟨fun _ overtaken => ?_, fun _ => rfl⟩
    cases overtaken
  | cons e entries ih =>
    obtain ⟨old, new⟩ := e
    obtain ⟨middle, first, rest⟩ := renameAll_cons renamed
    have own' := Schema.newName_mem_of_replace first own
    have step := ih rest own'
    obtain ⟨column, mem, named⟩ := List.mem_map.1 (laterName_mem rest own')
    have former : origin (renames entries) column.name ∈ middle.names :=
      List.mem_map_of_mem (origin_mem_of_renameAll rest column mem)
    rw [named] at former
    -- `former` is where the column under the last label stood after the first new name.
    change (FrameOperation.rename old new).before
      (origin (renames entries) (laterName entries (newName old new label))) = label ↔ _
    generalize origin (renames entries) (laterName entries (newName old new label)) = name
      at step former ⊢
    by_cases taken : new = label ∧ old ≠ label
    · obtain ⟨rfl, other⟩ := taken
      refine ⟨fun back => ?_, fun free => absurd (.now other) free⟩
      by_cases here : name = new
      · rw [FrameOperation.before, if_pos here] at back
        exact absurd back other
      · rw [FrameOperation.before, if_neg here] at back
        exact absurd back here
    · have free : new = label → old = label := by
        intro same
        by_cases other : old = label
        · exact other
        · exact absurd ⟨same, other⟩ taken
      rw [overtaken_cons_iff free, ← step]
      constructor
      · intro back
        by_cases here : name = new
        · rw [FrameOperation.before, if_pos here] at back
          rw [here, newName, if_pos back.symm]
        · rw [FrameOperation.before, if_neg here] at back
          subst back
          have kept : name ≠ old := by
            rintro rfl
            exact Schema.not_mem_of_replace first here former
          rw [newName, if_neg kept]
      · rintro rfl
        exact FrameOperation.before_newName fun same => (free same.symm).symm

end

/-! ## Runs -/

/-- The new names that steps give, in the order in which they are given. -/
def newNames (steps : List Step) : List (String × String) :=
  steps.flatMap fun
    | .rename mapping => mapping.entries
    | _ => []

variable {library : Library} {parameters : Parameters} {terms : Terms}

theorem label_of_pendingCount {column : String} {type : ColumnType} {bin? : Option Bin}
    {pending : Pending} (made : pendingCount column type bin? = .ok pending) :
    pending.label = column := by
  cases bin? with
  | none =>
    cases made
    rfl
  | some b =>
    obtain ⟨values, -, same⟩ := bind_eq_ok.1 made
    cases same
    rfl

theorem label_of_pendingSum {column : String} {type : ColumnType} {pending : Pending}
    (made : pendingSum column type = .ok pending) : pending.label = column := by
  cases type with
  | int low high =>
    cases made
    rfl
  | double low high =>
    cases made
    rfl
  | _ => simp [pendingSum] at made

theorem observeAll_noise_label {budget : Budget} {notion : Notion} {mechanism : Mechanism}
    {a a' : Assembly} {pending : Pending} (held : a.pending? = some pending)
    (h : (pass library parameters).observeAll [.noise budget notion mechanism] a = (.ok (), a')) :
    ∃ p, a'.pipeline? = some p ∧ p.label = pending.label := by
  obtain ⟨middle, first, rest⟩ := observeAll_cons_eq_ok h
  cases rest
  simp only [after, held] at first
  obtain ⟨measurement, -, same⟩ := bind_eq_ok.1 first
  cases same
  exact ⟨_, rfl, rfl⟩

/-- The operations of a measure and its noise release the column of the measure under its name. -/
theorem observe_measure {op : Operation} {measure : Measure} {s s' : Standing} {events : List Event}
    {a a' : Assembly} (takes : op = .count measure ∨ op = .sum measure)
    (moves : Moves terms s [op, .noise] events s')
    (observed : (pass library parameters).observeAll events a = (.ok (), a')) :
    ∃ type p, s.schema.typeOf measure.column = .ok type ∧ s' = ⟨s.schema, .noiseAdded⟩ ∧
      a'.pipeline? = some p ∧ p.label = measure.column := by
  cases moves with
  | cons accepted rest =>
    obtain ⟨middle, first, last⟩ := Pass.observeAll_append_eq_ok_iff.1 observed
    rcases takes with rfl | rfl
    · cases accepted with
      | count typed =>
        obtain ⟨rfl, rfl⟩ := moves_noise rest
        obtain ⟨pending, made, held⟩ := observeAll_count first
        obtain ⟨p, released, label⟩ := observeAll_noise_label held last
        exact ⟨_, p, typed, rfl, released, label.trans (label_of_pendingCount made)⟩
      | countBinned typed binned =>
        obtain ⟨rfl, rfl⟩ := moves_noise rest
        obtain ⟨pending, made, held⟩ := observeAll_count first
        obtain ⟨p, released, label⟩ := observeAll_noise_label held last
        exact ⟨_, p, typed, rfl, released, label.trans (label_of_pendingCount made)⟩
    · cases accepted with
      | sum typed numeric bounded =>
        obtain ⟨rfl, rfl⟩ := moves_noise rest
        obtain ⟨pending, made, held⟩ := observeAll_sum first
        obtain ⟨p, released, label⟩ := observeAll_noise_label held last
        exact ⟨_, p, typed, rfl, released, label.trans (label_of_pendingSum made)⟩

theorem observe_measured {measured : List Step} {measure : Measure} {s s' : Standing}
    {events : List Event} {a a' : Assembly} (measures : Measures measure measured)
    (moves : Moves terms s (measured.flatMap Step.operations) events s')
    (observed : (pass library parameters).observeAll events a = (.ok (), a')) :
    ∃ type p, s.schema.typeOf measure.column = .ok type ∧ s' = ⟨s.schema, .noiseAdded⟩ ∧
      a'.pipeline? = some p ∧ p.label = measure.column := by
  cases measures with
  | count => exact observe_measure (.inl rfl) moves observed
  | sum => exact observe_measure (.inr rfl) moves observed
  | histogram binned =>
    cases moves with
    | cons accepted rest =>
      obtain ⟨middle, -, last⟩ := Pass.observeAll_append_eq_ok_iff.1 observed
      cases accepted with
      | bin typed distinct checked =>
        have released := observe_measure (.inl rfl) rest last
        exact released

theorem observeAll_label {entries : List (String × String)} {a a' : Assembly} {p : Pipeline}
    (held : a.pipeline? = some p)
    (h : (pass library parameters).observeAll
      (entries.map fun e => .rename e.1 e.2 .noiseAdded) a = (.ok (), a')) :
    a'.pipeline? = some { p with label := laterName entries p.label } := by
  induction entries generalizing a p with
  | nil =>
    cases h
    exact held
  | cons e entries ih =>
    obtain ⟨middle, first, rest⟩ := observeAll_cons_eq_ok h
    simp only [after, held, if_pos] at first
    cases first
    have last := ih rfl rest
    rw [last]
    unfold Pipeline.relabel
    by_cases own : p.label = e.1
    · simp [laterName, newName, own]
    · simp [laterName, newName, own]

/-- Steps that give new names give them to the schema and to the label. -/
theorem observe_newNames {steps : List Step} {s s' : Standing} {events : List Event}
    {a a' : Assembly} {p : Pipeline} (moves : Moves terms s (steps.flatMap Step.operations) events s')
    (stage : s.stage = .noiseAdded) (renames : ∀ step ∈ steps, step.isRename = true)
    (held : a.pipeline? = some p)
    (observed : (pass library parameters).observeAll events a = (.ok (), a')) :
    Transition.renameAll .noiseAdded (newNames steps) s.schema = .ok s'.schema ∧
      a'.pipeline? = some { p with label := laterName (newNames steps) p.label } := by
  induction steps generalizing s a events p with
  | nil =>
    cases moves
    cases observed
    exact ⟨rfl, held⟩
  | cons step steps ih =>
    rw [List.flatMap_cons, moves_append_iff] at moves
    obtain ⟨next, first, rest, moves, moves', rfl⟩ := moves
    obtain ⟨middle, observed, observed'⟩ := Pass.observeAll_append_eq_ok_iff.1 observed
    cases step with
    | rename mapping =>
      cases moves_single_iff.1 moves with
      | rename due renamed =>
        cases stage
        obtain ⟨last, label⟩ := ih moves' rfl
          (fun other mem => renames other (List.mem_cons_of_mem _ mem))
          (observeAll_label held observed) observed'
        refine ⟨?_, ?_⟩
        · have both : newNames (.rename mapping :: steps) = mapping.entries ++ newNames steps := rfl
          rw [both, Transition.renameAll, List.foldlM_append]
          exact bind_eq_ok.2 ⟨_, renamed, last⟩
        · rw [label]
          simp [laterName, newNames]
    | _ => simp [Step.isRename] at renames

/-! ## Queries -/

/-- **`released_column_iff`**: once noise has been added there is a pipeline whose label names a
column of the working schema. The steps before the measure lead to a schema that has the measured
column, and the trailing names lead from there to the working schema and from the name of the measured
column to the label. The column under the label is then the measured one, of the type that it had when
it was measured, if and only if no trailing name given to another column was the label at that
time. -/
theorem released_column_iff (library : Library) (parameters : Parameters) (budget : Budget)
    (notion : Notion) (schema : Schema) (steps : List Step) (c : Course Assembly)
    (compiled : compile library parameters budget notion schema steps = .ok c)
    (noised : c.standing.stage = .noiseAdded) :
    ∃ before measured after measure type released pipeline column,
      steps = before ++ measured ++ after ∧ (∀ step ∈ before, step.isTransform = true) ∧
      Measures measure measured ∧ (∀ step ∈ after, step.isRename = true) ∧
      compile library parameters budget notion schema before = .ok released ∧
      released.standing.schema.typeOf measure.column = .ok type ∧
      c.pipeline = .ok pipeline ∧
      pipeline.label = laterName (newNames after) measure.column ∧
      c.standing.schema.column pipeline.label = .ok column ∧
      column.origin (renames (newNames after)) ∈ released.standing.schema.columns ∧
      (column.origin (renames (newNames after)) = ⟨measure.column, type⟩ ↔
        ¬ Overtaken (newNames after) measure.column) := by
  have finished : c.standing.finish = .ok () := by rw [Standing.finish, noised]
  obtain ⟨before, measured, after, measure, ⟨working, assembled⟩, ⟨noised', middle⟩, split, transforms,
    measures, names, prepared, measuring, trailing⟩ := compile_phases compiled finished
  subst split
  obtain ⟨second, moves', observed'⟩ := Course.run_eq_ok_iff.1 measuring
  obtain ⟨third, moves'', observed''⟩ := Course.run_eq_ok_iff.1 trailing
  dsimp only at moves' observed' moves'' observed''
  obtain ⟨type, p, typed, rfl, held, named⟩ := observe_measured measures moves' observed'
  obtain ⟨renamed, label⟩ := observe_newNames moves'' rfl names held observed''
  have own : measure.column ∈ working.schema.names := Schema.mem_names_of_typeOf typed
  obtain ⟨column, mem, under⟩ := List.mem_map.1 (laterName_mem renamed own)
  have origin := origin_mem_of_renameAll renamed column mem
  rw [named] at label
  refine ⟨before, measured, after, measure, type, ⟨working, assembled⟩,
    { p with label := laterName (newNames after) measure.column }, column, rfl, transforms,
    measures, names, prepared, typed, ?_, rfl, Schema.column_eq_ok_iff.2 ⟨mem, under⟩, origin, ?_⟩
  · simp [Course.pipeline, noised, label]
  · rw [← origin_laterName_iff renamed own, ← under]
    constructor
    · intro same
      exact congrArg Column.name same
    · intro same
      have measured := Schema.typeOf_eq_ok_iff.1 typed
      exact List.inj_on_of_nodup_map working.schema.distinct origin measured same

/-- A count of years by another name: the name that it had at first is given to the jobs, and the
label takes the second of the trailing names. -/
theorem released_column_iff_years :
    ∃ c, compile (.standard .standard) .standard ⟨0.5, none⟩ .pureDP
        ⟨[⟨"age", .int 18 90⟩, ⟨"job", .text⟩], by decide⟩
        [.rename (.ofList [("age", "years")]), .count ⟨"years", .laplace⟩,
          .rename (.ofList [("job", "age"), ("years", "n")])] = .ok c ∧
      c.standing.stage = .noiseAdded ∧
      ∃ before measured after measure type released pipeline column,
        [.rename (.ofList [("age", "years")]), .count ⟨"years", .laplace⟩,
          .rename (.ofList [("job", "age"), ("years", "n")])] = before ++ measured ++ after ∧
        (∀ step ∈ before, step.isTransform = true) ∧
        Measures measure measured ∧ (∀ step ∈ after, step.isRename = true) ∧
        compile (.standard .standard) .standard ⟨0.5, none⟩ .pureDP
          ⟨[⟨"age", .int 18 90⟩, ⟨"job", .text⟩], by decide⟩ before = .ok released ∧
        released.standing.schema.typeOf measure.column = .ok type ∧
        c.pipeline = .ok pipeline ∧
        pipeline.label = laterName (newNames after) measure.column ∧
        c.standing.schema.column pipeline.label = .ok column ∧
        column.origin (renames (newNames after)) ∈ released.standing.schema.columns ∧
        (column.origin (renames (newNames after)) = ⟨measure.column, type⟩ ↔
          ¬ Overtaken (newNames after) measure.column) := by
  have ran : ((compile (.standard .standard) .standard ⟨0.5, none⟩ .pureDP
      ⟨[⟨"age", .int 18 90⟩, ⟨"job", .text⟩], by decide⟩
      [.rename (.ofList [("age", "years")]), .count ⟨"years", .laplace⟩,
        .rename (.ofList [("job", "age"), ("years", "n")])]).toOption.map fun c =>
          c.standing.stage) = some .noiseAdded := by decide +kernel
  simp only [Option.map_eq_some_iff, toOption_eq_some] at ran
  obtain ⟨c, compiled, noised⟩ := ran
  exact ⟨c, compiled, noised, released_column_iff _ _ _ _ _ _ c compiled noised⟩

/-- After a count of ages the jobs are called ages. The release goes on to be labelled as one of ages,
which the working schema now says are text. -/
theorem label_overtaken :
    ∃ c p, compile (.standard .standard) .standard ⟨0.5, none⟩ .pureDP
        ⟨[⟨"age", .int 18 90⟩, ⟨"job", .text⟩], by decide⟩
        [.count ⟨"age", .laplace⟩, .rename (.ofList [("job", "age")])] = .ok c ∧
      c.standing.stage = .noiseAdded ∧ c.pipeline = .ok p ∧
      p.measurement.transformation = .count "age" ∧ p.label = "age" ∧
      c.standing.schema.typeOf p.label = .ok .text := by
  have ran : ((compile (.standard .standard) .standard ⟨0.5, none⟩ .pureDP
      ⟨[⟨"age", .int 18 90⟩, ⟨"job", .text⟩], by decide⟩
      [.count ⟨"age", .laplace⟩, .rename (.ofList [("job", "age")])]).toOption.map fun c =>
        (c.standing.stage, c.pipeline.toOption.map fun p =>
          (p.measurement.transformation, p.label, (c.standing.schema.typeOf p.label).toOption))) =
      some (.noiseAdded, some (.count "age", "age", some .text)) := by decide +kernel
  simp only [Option.map_eq_some_iff, toOption_eq_some, Prod.mk.injEq] at ran
  obtain ⟨c, compiled, noised, p, built, counted, label, typed⟩ := ran
  exact ⟨c, p, compiled, noised, built, counted, label, typed⟩

end PrivateQuery
