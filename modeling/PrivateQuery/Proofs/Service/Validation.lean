import PrivateQuery.Proofs.Pipeline.Agreement
import PrivateQuery.Service.Basic

/-!
# What a validation predicts

A service checks a query before it does anything else. A request that is invalid is refused with the
error of its check, whatever the provider, which is not asked (`prepare_of_refused`). A request that
is valid compiles unless the library fails, and what can go wrong after that is the fault of the
library or of the data (`prepare_of_accepted`). So the answer to a validation tells which errors an
evaluation or an accuracy can end with (`validate_predicts`).
-/
namespace PrivateQuery

/-! ## Errors that may not come again -/

/-- Every error of an attempt is a failure of what the query is run on. -/
def FailsUpstream {α : Type} (x : Attempt QueryError α) : Prop :=
  ∀ e, x = .error (.raised e) → e.isRetryable = true

/-- An attempt ends in an answer or in a failure of what the query is run on, if it ends at all. -/
def EndsUpstream {α : Type} (x : Attempt QueryError α) : Prop :=
  ∀ fault, x = .error fault → fault = .stalled ∨
    ∃ e, fault = .raised e ∧ e.kind = "UpstreamError" ∧ e.isRetryable = true ∧ e.status = 500

theorem isRetryable_iff {e : QueryError} : e.isRetryable = true ↔ e.kind = "UpstreamError" := by
  cases e <;> simp [QueryError.isRetryable, QueryError.kind]

section
variable {ε α β : Type}

theorem failsUpstream_ok (a : α) : FailsUpstream (.ok a) := by simp [FailsUpstream]

theorem failsUpstream_fault (f : ε → ExecutionError) (cause : Fault ε) :
    FailsUpstream (.error (cause.map fun e => .execution (f e)) : Attempt QueryError α) := by
  intro e failed
  cases cause with
  | raised error =>
    obtain rfl : .execution (f error) = e := by simpa [Fault.map] using failed
    rfl
  | _ => simp [Fault.map] at failed

theorem failsUpstream_mapError (f : ε → ExecutionError) (x : Attempt ε α) :
    FailsUpstream (Attempt.mapError (fun e => .execution (f e)) x) := by
  cases x with
  | ok a => exact failsUpstream_ok a
  | error cause => exact failsUpstream_fault f cause

theorem failsUpstream_ofExcept (f : ε → ExecutionError) (x : Except ε α) :
    FailsUpstream (Attempt.ofExcept (x.mapError fun e => .execution (f e))) := by
  cases x with
  | ok a => exact failsUpstream_ok a
  | error e => exact failsUpstream_fault f (.raised e)

theorem FailsUpstream.bind {x : Attempt QueryError α} {f : α → Attempt QueryError β}
    (hx : FailsUpstream x) (hf : ∀ a, x = .ok a → FailsUpstream (f a)) :
    FailsUpstream (x >>= f) := by
  intro e failed
  cases x with
  | ok a => exact hf a rfl e failed
  | error fault => exact hx e (by simpa [Bind.bind, Except.bind] using failed)

/-- Once crashes are reported as errors only failures upstream are left, or no end in time. -/
theorem FailsUpstream.recover {x : Attempt QueryError α} (hx : FailsUpstream x)
    (operation : String) : EndsUpstream (Attempt.recover (crashError operation) x) := by
  intro fault failed
  cases x with
  | ok a => simp [Attempt.recover] at failed
  | error cause =>
    cases cause with
    | raised e =>
      obtain rfl : .raised e = fault := by simpa [Attempt.recover] using failed
      have retryable := hx e rfl
      exact .inr ⟨e, rfl, isRetryable_iff.1 retryable, retryable, if_pos retryable⟩
    | crashed =>
      obtain rfl : .raised (crashError operation) = fault := by
        simpa [Attempt.recover, Attempt.raise] using failed
      exact .inr ⟨crashError operation, rfl, rfl, rfl, rfl⟩
    | stalled => exact .inl (by simpa [Attempt.recover, eq_comm] using failed)

end

/-! ## Queries that pass their check -/

/-- A query that is refused by its check is not compiled. -/
theorem checkAndCompile_of_refused {parameters : Parameters} {budget : Budget} {notion : Notion}
    {schema : Schema} {steps : List Step} {e : QueryError}
    (refused : typecheck (.of budget notion parameters) schema steps = .error e)
    (library : Library) :
    checkAndCompile library parameters budget notion schema steps = Attempt.raise e := by
  rw [checkAndCompile, refused]
  rfl

/-- A query that passes its check compiles to a pipeline, unless the library fails. -/
theorem checkAndCompile_of_accepted {parameters : Parameters} {budget : Budget} {notion : Notion}
    {schema final : Schema} {steps : List Step}
    (accepted : typecheck (.of budget notion parameters) schema steps = .ok final)
    (library : Library) :
    FailsUpstream (checkAndCompile library parameters budget notion schema steps) ∧
      ∀ c, checkAndCompile library parameters budget notion schema steps = .ok c →
        ∃ p, c.pipeline = .ok p := by
  have compiled : checkAndCompile library parameters budget notion schema steps =
      compile library parameters budget notion schema steps := by
    rw [checkAndCompile, accepted]
    rfl
  obtain ⟨c, ran, rest⟩ := bind_eq_ok.1 accepted
  obtain ⟨_, finished, -⟩ := bind_eq_ok.1 rest
  rw [compiled, compile]
  rcases run_agrees parameters steps (start_fits library _ schema) with
    ⟨c', assembled, silent, fits⟩ | ⟨e, -, silent⟩ | ⟨cause, assembled, -⟩
  · obtain rfl : ⟨c'.standing, ()⟩ = c := by
      rw [← Except.ok.injEq (ε := QueryError)]
      exact silent.symm.trans ran
    rw [assembled]
    refine ⟨failsUpstream_ok c', fun built same => ?_⟩
    obtain rfl : c' = built := by simpa using same
    exact (pipeline_ok_iff fits).2 finished
  · exact absurd (silent.symm.trans ran) (by simp)
  · rw [assembled]
    exact ⟨failsUpstream_fault .mechanism cause, by simp⟩

namespace Pipeline

/-- What goes wrong on a frame is the fault of the data or of the mechanism. -/
theorem evaluate_failsUpstream (p : Pipeline) (attempts : Nat) (frame : Frame) (g : Generator) :
    FailsUpstream (p.evaluate attempts frame g).1 := by
  have released : FailsUpstream (p.release attempts frame g).1 := by
    unfold release
    cases p.project frame with
    | error e => exact failsUpstream_ofExcept .frame (.error e : Except FrameError Release)
    | ok projected =>
      refine (failsUpstream_mapError .mechanism _).bind fun aggregate _ => ?_
      exact failsUpstream_ofExcept id _
  exact released.bind fun release _ => failsUpstream_ok _

/-- At a confidence between zero and one only the library can fail to bound the noise. -/
theorem accuracy_failsUpstream (p : Pipeline) (library : Library) {confidence : Float}
    (legal : isConfidence confidence = true) :
    FailsUpstream (p.accuracy library confidence) := by
  rw [accuracy, if_pos legal]
  exact failsUpstream_mapError .mechanism _

end Pipeline

/-! ## Requests -/

namespace Service

variable {σ : Type} {s : Service σ} {request : Request}

/-- The check of a request refuses it for a reason that will not go away. -/
theorem settled_check (s : Service σ) (request : Request) : Settled (s.check request) :=
  (settled_mapError fun _ => rfl).bind fun _ _ => settled_typecheck _ _ _

/-- A request that its check refuses is not compiled, and the provider is not asked. -/
theorem prepare_of_refused {e : QueryError} (refused : s.check request = .error e)
    (cache : Cache σ) : s.prepare request cache = (Attempt.raise e, cache) := by
  have stopped : s.compile request = Attempt.raise e := by
    unfold check at refused
    unfold compile
    cases read : request.schema with
    | error cause =>
      rw [read] at refused
      cases refused
      rfl
    | ok schema =>
      rw [read] at refused
      rw [Attempt.ofExcept]
      change (do return (schema, ← checkAndCompile s.library s.parameters request.budget
        request.notion schema request.steps)) = Attempt.raise e
      rw [checkAndCompile_of_refused refused]
      rfl
  rw [prepare, stopped]
  rfl

/-- A request that its check accepts compiles to a query with a pipeline, or the library fails. -/
theorem compile_of_accepted {final : Schema} (accepted : s.check request = .ok final) :
    FailsUpstream (s.compile request) ∧
      ∀ schema course, s.compile request = .ok (schema, course) → ∃ p, course.pipeline = .ok p := by
  obtain ⟨schema, read, passed⟩ := bind_eq_ok.1 accepted
  obtain ⟨upstream, builds⟩ := checkAndCompile_of_accepted passed s.library
  rw [compile, read]
  refine ⟨upstream.bind fun built _ => failsUpstream_ok (schema, built), ?_⟩
  intro schema' course compiled
  obtain ⟨_, same, rest⟩ := bind_eq_ok.1 compiled
  cases same
  obtain ⟨built, found, same⟩ := bind_eq_ok.1 rest
  cases same
  exact builds course found

/-- A request that its check accepts is prepared to a query with a pipeline, unless the library, the
provider or the payload fails. -/
theorem prepare_of_accepted {final : Schema} (accepted : s.check request = .ok final)
    (cache : Cache σ) : FailsUpstream (s.prepare request cache).1 ∧
      ∀ course frame, (s.prepare request cache).1 = .ok (course, frame) →
        ∃ p, course.pipeline = .ok p := by
  obtain ⟨upstream, builds⟩ := compile_of_accepted accepted
  unfold prepare
  cases outcome : s.compile request with
  | error fault =>
    rw [outcome] at upstream
    refine ⟨fun e failed => upstream e ?_, by simp⟩
    simpa using failed
  | ok compiled =>
    obtain ⟨schema, course⟩ := compiled
    refine ⟨?_, fun course' frame ready => ?_⟩
    · refine (failsUpstream_mapError .frame _).bind fun payload _ => ?_
      exact (failsUpstream_ofExcept .frame _).bind fun frame _ => failsUpstream_ok _
    · obtain ⟨payload, -, rest⟩ := bind_eq_ok.1 ready
      obtain ⟨read, -, same⟩ := bind_eq_ok.1 rest
      obtain ⟨rfl, -⟩ : course = course' ∧ read = frame := by simpa [pure_eq_ok] using same
      exact builds schema course outcome

/-- What a query on prepared data ends with, when it goes by the pipeline. -/
theorem answer_failsUpstream {α : Type} {final : Schema} (accepted : s.check request = .ok final)
    (cache : Cache σ) {use : Course Assembly × Frame → Attempt QueryError α}
    (uses : ∀ course frame p, course.pipeline = .ok p → FailsUpstream (use (course, frame))) :
    FailsUpstream ((s.prepare request cache).1 >>= use) := by
  obtain ⟨upstream, builds⟩ := prepare_of_accepted accepted cache
  refine upstream.bind fun ready prepared => ?_
  obtain ⟨course, frame⟩ := ready
  obtain ⟨p, built⟩ := builds course frame prepared
  exact uses course frame p built

/-- **`validate_predicts`**: what a validation says of a request holds of its evaluation and of its
accuracy at every confidence. The error of an invalid request is returned as it is, with the cache
and the state of the provider as they were, and no provider in the place of this one changes that.
A valid request fails only with errors of what it is run on. -/
theorem validate_predicts (s : Service σ) (request : Request) (cache : Cache σ) :
    match s.validate request with
    | .invalid reason =>
      reason.kind ≠ "UpstreamError" ∧ (s.validate request).status = reason.message ∧
        ∀ provider : Provider σ,
          ({ s with provider } : Service σ).evaluate request cache = (Attempt.raise reason, cache) ∧
          ∀ confidence legal, ({ s with provider } : Service σ).accuracy
            ⟨request, confidence, legal⟩ cache = (Attempt.raise reason, cache)
    | .valid =>
      EndsUpstream (s.evaluate request cache).1 ∧
        ∀ confidence legal, EndsUpstream (s.accuracy ⟨request, confidence, legal⟩ cache).1 := by
  unfold validate
  cases checked : s.check request with
  | error reason =>
    have settled : reason.isRetryable ≠ true := by simp [settled_check s request reason checked]
    have refused (provider : Provider σ) :
        ({ s with provider } : Service σ).prepare request cache = (Attempt.raise reason, cache) :=
      prepare_of_refused (s := { s with provider }) checked cache
    refine ⟨fun upstream => settled (isRetryable_iff.2 upstream), rfl, fun provider => ⟨?_, ?_⟩⟩
    · rw [evaluate, refused]
      rfl
    · intro confidence legal
      rw [accuracy, refused]
      rfl
  | ok final =>
    refine ⟨?_, fun confidence legal => ?_⟩
    · apply FailsUpstream.recover
      refine answer_failsUpstream checked cache fun course frame p built => ?_
      simp only [Course.evaluate, built]
      exact p.evaluate_failsUpstream s.attempts frame _
    · apply FailsUpstream.recover
      refine answer_failsUpstream checked cache fun course frame p built => ?_
      simp only [Course.accuracy, built]
      exact p.accuracy_failsUpstream s.library legal

end Service

end PrivateQuery
