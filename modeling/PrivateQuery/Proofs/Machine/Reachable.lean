import PrivateQuery.Proofs.Machine.Failures
import PrivateQuery.Proofs.Schema.Descent

/-!
# Working schemas

A query may be taken on by any steps, on terms and under a pass that differ from step to step, and after
steps that failed (`Course.Reachable`). What an operation leaves of the working schema stems from what it
finds (`Accepted.stems`), so wherever a query comes to, the names of its working columns are distinct,
each column is found where it stands, and the columns stem from different columns of the schema that the
query began with (`working_schema_wellFormed`).
-/
namespace PrivateQuery

variable {σ ε : Type} {pass : Pass σ ε} {terms : Terms}

/-- An accepted operation leaves columns that stem from the ones before it. -/
theorem Accepted.stems {s : Standing} {op : Operation} {move : Move}
    (accepted : Accepted terms s op move) : Stems move.next.schema.columns s.schema.columns := by
  cases accepted with
  | select kept => exact Schema.stems_of_select kept
  | rename due renamed => exact Schema.stems_of_renameAll renamed
  | filter => exact .refl _
  | bin => exact .refl _
  | count => exact .refl _
  | countBinned => exact .refl _
  | sum => exact .refl _
  | noise => exact .refl _

namespace Course

/-- The courses of queries on a schema. A step is taken whether or not the ones before it failed, and
between steps the state of the pass may be set. -/
inductive Reachable (schema : Schema) : Course σ → Prop where
  | start (state : σ) : Reachable schema (.start schema state)
  | step {ε : Type} {c : Course σ} (reached : Reachable schema c) (pass : Pass σ ε) (terms : Terms)
      (step : Step) : Reachable schema (c.step pass terms step).2
  | set {c : Course σ} (reached : Reachable schema c) (state : σ) : Reachable schema { c with state }

theorem Reachable.run {schema : Schema} {steps : List Step} {c c' : Course σ}
    (reached : Reachable schema c) (ran : Course.run pass terms steps c = .ok c') :
    Reachable schema c' := by
  induction steps generalizing c with
  | nil =>
    cases ran
    exact reached
  | cons step steps ih =>
    have next := reached.step pass terms step
    unfold Course.run at ran
    split at ran
    · rename_i middle taken
      rw [taken] at next
      exact ih next ran
    · simp at ran

/-! ## What the working columns stem from -/

theorem stems_of_operate (pass : Pass σ ε) (terms : Terms) (c : Course σ) (op : Operation) :
    Stems (c.operate pass terms op).2.standing.schema.columns c.standing.schema.columns := by
  unfold operate
  split
  · exact .refl _
  · rename_i move accepted
    split
    · exact .refl _
    · exact (transition_eq_ok_iff.1 accepted).stems

/-- A step stops at the first operation that fails, so it leaves what the operations before it have. -/
theorem stems_of_operateAll (pass : Pass σ ε) (terms : Terms) (operations : List Operation)
    (c : Course σ) : Stems (operateAll pass terms operations c).2.standing.schema.columns
    c.standing.schema.columns := by
  induction operations generalizing c with
  | nil => exact .refl _
  | cons op operations ih =>
    have first := stems_of_operate pass terms c op
    unfold operateAll
    split
    · rename_i middle taken
      rw [taken] at first
      exact (ih middle).trans first
    · rename_i e middle failed
      rw [failed] at first
      exact first

theorem Reachable.stems {schema : Schema} {c : Course σ} (reached : Reachable schema c) :
    Stems c.standing.schema.columns schema.columns := by
  induction reached with
  | start state => exact .refl _
  | step reached pass terms step ih =>
    exact (stems_of_operateAll pass terms step.operations _).trans ih
  | set reached state ih => exact ih

end Course

/-- **`working_schema_wellFormed`**: wherever a query on a schema comes to, the names of its working
columns are distinct, so that the columns would make up a schema again, each column is found where it
stands, and the columns stem from different columns of the schema, with their types. A replacement does
what a rename does where that is accepted, is refused only where no column has the old name, and
otherwise drops just the one other column that has the new name. -/
theorem working_schema_wellFormed (schema : Schema) :
    (∀ (σ : Type) (c : Course σ), Course.Reachable schema c →
      c.standing.schema.names.Nodup ∧
      Schema.ofColumns c.standing.schema.columns = .ok c.standing.schema ∧
      (∀ (i : ℕ) (h : i < c.standing.schema.columns.length),
        c.standing.schema.position c.standing.schema.columns[i].name = .ok i) ∧
      Stems c.standing.schema.columns schema.columns) ∧
    ∀ (s : Schema) (old new : String),
      (∀ s', s.rename old new = .ok s' → s.replace old new = .ok s' ∧
        ∃ (i : ℕ) (type : ColumnType), s.columns[i]? = some ⟨old, type⟩ ∧
          s'.columns = s.columns.set i ⟨new, type⟩) ∧
      (∀ e, s.replace old new = .error e ↔ old ∉ s.names ∧ e = .unknownColumn old) ∧
      ∀ s', s.replace old new = .ok s' → (∀ renamed, s.rename old new ≠ .ok renamed) →
        ∃ (i j : ℕ) (type other : ColumnType), i ≠ j ∧ s.columns[i]? = some ⟨old, type⟩ ∧
          s.columns[j]? = some ⟨new, other⟩ ∧
          s'.columns = (s.columns.set i ⟨new, type⟩).eraseIdx j := by
  refine ⟨fun σ c reached => ?_, fun s old new => ⟨fun s' renamed => ?_, fun e => ?_, ?_⟩⟩
  · exact ⟨c.standing.schema.distinct, Schema.ofColumns_of_distinct _,
      fun i h => Schema.position_name _ h, reached.stems⟩
  · exact ⟨Schema.replace_of_rename renamed, Schema.columns_of_rename renamed⟩
  · exact Schema.replace_eq_error_iff
  · exact fun s' replaced refused => Schema.columns_of_taken replaced refused

/-- A count of the ages whose result takes over the name of the jobs, which are dropped. -/
theorem working_schema_replaced :
    ∃ c, Course.run Pass.silent ⟨⟨1, none⟩, .pureDP, 65536⟩
        [.select ["job", "age"], .rename (.ofList [("age", "years")]), .count ⟨"years", .laplace⟩,
          .rename (.ofList [("years", "job")])]
        (.start ⟨[⟨"age", .int 0 100⟩, ⟨"sex", .bool⟩, ⟨"job", .text⟩], by decide⟩ ()) = .ok c ∧
      c.standing.stage = .noiseAdded ∧ c.standing.schema.columns = [⟨"job", .int 0 100⟩] ∧
      c.standing.schema.names.Nodup ∧
      Schema.ofColumns c.standing.schema.columns = .ok c.standing.schema ∧
      c.standing.schema.position "job" = .ok 0 ∧
      Stems c.standing.schema.columns [⟨"age", .int 0 100⟩, ⟨"sex", .bool⟩, ⟨"job", .text⟩] ∧
      ∃ (i j : ℕ) (type other : ColumnType), i ≠ j ∧
        [⟨"job", .text⟩, ⟨"years", .int 0 100⟩][i]? = some (⟨"years", type⟩ : Column) ∧
        [⟨"job", .text⟩, ⟨"years", .int 0 100⟩][j]? = some (⟨"job", other⟩ : Column) ∧
        c.standing.schema.columns =
          ([⟨"job", .text⟩, ⟨"years", .int 0 100⟩].set i ⟨"job", type⟩).eraseIdx j := by
  have selected : Schema.select ⟨[⟨"age", .int 0 100⟩, ⟨"sex", .bool⟩, ⟨"job", .text⟩], by decide⟩
      ["job", "age"] = .ok ⟨[⟨"job", .text⟩, ⟨"age", .int 0 100⟩], by decide⟩ := rfl
  have renamed : Transition.renameAll .awaitingTransform (Dictionary.ofList [("age", "years")]).entries
      ⟨[⟨"job", .text⟩, ⟨"age", .int 0 100⟩], by decide⟩ =
        .ok ⟨[⟨"job", .text⟩, ⟨"years", .int 0 100⟩], by decide⟩ := rfl
  have typed : Schema.typeOf ⟨[⟨"job", .text⟩, ⟨"years", .int 0 100⟩], by decide⟩ "years" =
      .ok (.int 0 100) := rfl
  have compatible : checkCompatibility ⟨1, none⟩ .pureDP .laplace = .ok () := by
    rw [← toOption_eq_some]
    decide +kernel
  have replaced : Schema.replace ⟨[⟨"job", .text⟩, ⟨"years", .int 0 100⟩], by decide⟩ "years" "job" =
      .ok ⟨[⟨"job", .int 0 100⟩], by decide⟩ := rfl
  have refused (s : Schema) : Schema.rename ⟨[⟨"job", .text⟩, ⟨"years", .int 0 100⟩], by decide⟩
      "years" "job" ≠ .ok s := nofun
  have taken : Transition.renameAll .noiseAdded (Dictionary.ofList [("years", "job")]).entries
      ⟨[⟨"job", .text⟩, ⟨"years", .int 0 100⟩], by decide⟩ =
        .ok ⟨[⟨"job", .int 0 100⟩], by decide⟩ := rfl
  have moves : ∃ events, Moves ⟨⟨1, none⟩, .pureDP, 65536⟩
      (Standing.start ⟨[⟨"age", .int 0 100⟩, ⟨"sex", .bool⟩, ⟨"job", .text⟩], by decide⟩)
      ([.select ["job", "age"], .rename (.ofList [("age", "years")]), .count ⟨"years", .laplace⟩,
        .rename (.ofList [("years", "job")])].flatMap Step.operations) events
      ⟨⟨[⟨"job", .int 0 100⟩], by decide⟩, .noiseAdded⟩ :=
    ⟨_, .cons (.select selected) (.cons (.rename (.inl rfl) renamed) (.cons (.count typed)
      (.cons (.noise compatible) (.cons (.rename (.inr rfl) taken) .nil))))⟩
  obtain ⟨events, moves⟩ := moves
  have ran : Course.run Pass.silent ⟨⟨1, none⟩, .pureDP, 65536⟩
      [.select ["job", "age"], .rename (.ofList [("age", "years")]), .count ⟨"years", .laplace⟩,
        .rename (.ofList [("years", "job")])]
      (.start ⟨[⟨"age", .int 0 100⟩, ⟨"sex", .bool⟩, ⟨"job", .text⟩], by decide⟩ ()) =
        .ok ⟨⟨⟨[⟨"job", .int 0 100⟩], by decide⟩, .noiseAdded⟩, ()⟩ :=
    Course.run_eq_ok_iff.2 ⟨events, moves, Pass.silent_observeAll _ _⟩
  obtain ⟨kept, new⟩ := working_schema_wellFormed
    ⟨[⟨"age", .int 0 100⟩, ⟨"sex", .bool⟩, ⟨"job", .text⟩], by decide⟩
  obtain ⟨distinct, anew, found, stems⟩ := kept Unit _ (Course.Reachable.run (.start ()) ran)
  obtain ⟨-, -, dropped⟩ := new ⟨[⟨"job", .text⟩, ⟨"years", .int 0 100⟩], by decide⟩ "years" "job"
  exact ⟨_, ran, rfl, rfl, distinct, anew, found 0 (by decide), stems, dropped _ replaced refused⟩

end PrivateQuery
