import PrivateQuery.Proofs.Frame.Csv
import PrivateQuery.Proofs.Service.Validation

/-!
# Direct answers to invalid queries

An evaluation of an invalid query reports what is wrong with the query, whatever the payload. An
accuracy does so only when the payload can be read, because it reads the payload first
(`direct_of_refused`). That is a defect: an invalid query on a payload that cannot be read is reported
as a failure that may not come again (`direct_missing_column`).
-/
namespace PrivateQuery

variable {budget : Budget} {notion : Notion} {schema : Schema} {steps : List Step} {e : QueryError}

/-- The payload is not even looked at when the check refuses a query that is to be evaluated. -/
theorem compileAndEvaluate_of_refused
    (refused : typecheck (.of budget notion .standard) schema steps = .error e)
    (attempts : Nat) (generator : Option Nat → Generator) (payload : String) :
    compileAndEvaluate attempts generator budget notion schema steps payload =
      Attempt.raise e := by
  rw [compileAndEvaluate, checkAndCompile_of_refused refused]
  rfl

/-- What an accuracy reports of a query that the check refuses is up to the payload. -/
theorem compileAndAccuracy_of_refused
    (refused : typecheck (.of budget notion .standard) schema steps = .error e)
    (payload : String) (confidence : Float) :
    compileAndAccuracy budget notion schema steps payload confidence =
      match Frame.ofCsv payload schema with
      | .ok _ => Attempt.raise e
      | .error cause => Attempt.raise (.execution (.frame cause)) := by
  rw [compileAndAccuracy, readPayload]
  cases Frame.ofCsv payload schema with
  | ok frame =>
    simp only [mapError_ok, Attempt.ofExcept, checkAndCompile_of_refused refused]
    rfl
  | error cause => rfl

/-- **`direct_of_refused`**: an evaluation returns the error of a query that the check refuses, which
does not go away, whatever the payload. An accuracy returns it on every payload that can be read, and
the error of the payload, which may not come again, on every other. -/
theorem direct_of_refused
    (refused : typecheck (.of budget notion .standard) schema steps = .error e)
    (attempts : Nat) (generator : Option Nat → Generator) (payload : String) (confidence : Float) :
    e.isRetryable = false ∧
      compileAndEvaluate attempts generator budget notion schema steps payload = Attempt.raise e ∧
      (∀ frame, Frame.ofCsv payload schema = .ok frame →
        compileAndAccuracy budget notion schema steps payload confidence = Attempt.raise e) ∧
      ∀ cause, Frame.ofCsv payload schema = .error cause →
        compileAndAccuracy budget notion schema steps payload confidence =
          Attempt.raise (.execution (.frame cause)) := by
  refine ⟨settled_typecheck _ _ _ e refused,
    compileAndEvaluate_of_refused refused attempts generator payload, ?_, ?_⟩
  · intro frame read
    rw [compileAndAccuracy_of_refused refused, read]
  · intro cause unreadable
    rw [compileAndAccuracy_of_refused refused, unreadable]

/-- A sum of jobs under another name is refused by the evaluation and by the accuracy. -/
theorem direct_of_refused_jobs :
    typecheck (.of ⟨1, none⟩ .pureDP .standard) ⟨[⟨"age", .int 18 90⟩, ⟨"job", .text⟩], by decide⟩
        [.rename (.ofList [("job", "work")]), .sum ⟨"work", .laplace⟩] =
      .error (.typing (.notNumeric "work" .text)) ∧
    (∀ attempts, compileAndEvaluate attempts (fun _ => .ofSeed 1) ⟨1, none⟩ .pureDP
        ⟨[⟨"age", .int 18 90⟩, ⟨"job", .text⟩], by decide⟩
        [.rename (.ofList [("job", "work")]), .sum ⟨"work", .laplace⟩] "age,job\n20,Baker\n" =
      Attempt.raise (.typing (.notNumeric "work" .text))) ∧
    compileAndAccuracy ⟨1, none⟩ .pureDP ⟨[⟨"age", .int 18 90⟩, ⟨"job", .text⟩], by decide⟩
        [.rename (.ofList [("job", "work")]), .sum ⟨"work", .laplace⟩] "age,job\n20,Baker\n" 0.95 =
      Attempt.raise (.typing (.notNumeric "work" .text)) := by
  have refused : typecheck (.of ⟨1, none⟩ .pureDP .standard)
      ⟨[⟨"age", .int 18 90⟩, ⟨"job", .text⟩], by decide⟩
      [.rename (.ofList [("job", "work")]), .sum ⟨"work", .laplace⟩] =
        .error (.typing (.notNumeric "work" .text)) := rfl
  have covers : ∀ name ∈ ["age", "job"], name ∈ Csv.header "age,job\n20,Baker\n" := by
    decide +kernel
  have even : ∀ line ∈ (Csv.lines "age,job\n20,Baker\n").tail,
      line.length = (Csv.header "age,job\n20,Baker\n").length := by decide +kernel
  obtain ⟨frame, read⟩ : ∃ frame, Frame.ofCsv "age,job\n20,Baker\n"
      ⟨[⟨"age", .int 18 90⟩, ⟨"job", .text⟩], by decide⟩ = .ok frame := by
    rw [Frame.ofCsv_ok_iff]
    exact ⟨covers, even⟩
  have direct (attempts : Nat) :=
    direct_of_refused refused attempts (fun _ => .ofSeed 1) "age,job\n20,Baker\n" 0.95
  exact ⟨refused, fun attempts => (direct attempts).2.1, (direct 0).2.2.1 frame read⟩

/-- A query without a step on a payload that lacks a column: the evaluation refuses the query, the
accuracy reports the payload, as a failure that may not come again. -/
theorem direct_missing_column :
    ∃ reason cause, reason.isRetryable = false ∧ cause.isRetryable = true ∧
      typecheck (.of ⟨1, none⟩ .pureDP .standard) ⟨[⟨"age", .int 18 90⟩], by decide⟩ [] =
        .error reason ∧
      (∀ attempts, compileAndEvaluate attempts (fun _ => .ofSeed 1) ⟨1, none⟩ .pureDP
          ⟨[⟨"age", .int 18 90⟩], by decide⟩ [] "job\nBaker\n" = Attempt.raise reason) ∧
      compileAndAccuracy ⟨1, none⟩ .pureDP ⟨[⟨"age", .int 18 90⟩], by decide⟩ []
          "job\nBaker\n" 0.95 = Attempt.raise cause := by
  have unreadable : Frame.ofCsv "job\nBaker\n" ⟨[⟨"age", .int 18 90⟩], by decide⟩ =
      .error (.missingColumn "age") := Frame.ofCsv_of_missing (by decide +kernel)
  refine ⟨.order (.unfinished .awaitingTransform), .execution (.frame (.missingColumn "age")),
    rfl, rfl, rfl, fun attempts => compileAndEvaluate_of_refused rfl attempts _ _, ?_⟩
  rw [compileAndAccuracy_of_refused rfl, unreadable]

end PrivateQuery
