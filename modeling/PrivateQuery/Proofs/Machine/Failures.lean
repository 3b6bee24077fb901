import PrivateQuery.Proofs.Machine.Shape

/-!
# Steps that fail

A step may fail at each of its operations, refused or objected to. What an operation does to a query
it does at once or not at all, so a step that fails leaves the working schema as it was, and the stage
too, unless its measure has been taken and only the noise failed (`step_failed`). Such a query is
lost: nothing but the noise is legal while it is due, and no step begins with it.
-/
namespace PrivateQuery

variable {σ ε : Type} {pass : Pass σ ε} {terms : Terms}

/-! ## Operations -/

/-- While a noise is due it is the only legal operation. -/
theorem Accepted.eq_noise {schema : Schema} {mechanism : Mechanism} {op : Operation} {move : Move}
    (accepted : Accepted terms ⟨schema, .measuring mechanism⟩ op move) : op = .noise := by
  cases accepted with
  | rename due renamed => simp at due
  | noise compatible => rfl

/-- A measure that is taken waits for its noise on the same schema. -/
theorem Accepted.measuring {s : Standing} {op : Operation} {measure : Measure} {move : Move}
    (accepted : Accepted terms s op move) (takes : op = .count measure ∨ op = .sum measure) :
    move.next = ⟨s.schema, .measuring measure.mechanism⟩ := by
  rcases takes with rfl | rfl
  · cases accepted <;> rfl
  · cases accepted
    rfl

namespace Course

variable {c c' : Course σ} {e : ε}

/-- An operation that fails leaves the query where it stands. -/
theorem standing_of_operate_error {op : Operation} (failed : c.operate pass terms op = (.error e, c')) :
    c'.standing = c.standing := by
  unfold operate at failed
  split at failed
  · cases failed
    rfl
  · split at failed
    · cases failed
      rfl
    · simp at failed

/-- While a noise is due every other operation is refused, before the pass hears of it. -/
theorem operate_of_measuring {mechanism : Mechanism} {op : Operation} (other : op ≠ .noise)
    (due : c.standing.stage = .measuring mechanism) :
    ∃ e, c.operate pass terms op = (.error e, c) := by
  obtain ⟨⟨schema, stage⟩, state⟩ := c
  cases due
  cases outcome : transition terms ⟨schema, .measuring mechanism⟩ op with
  | error e => exact ⟨pass.ofError e, operate_refused outcome⟩
  | ok move => exact absurd (transition_eq_ok_iff.1 outcome).eq_noise other

/-! ## Steps -/

theorem standing_of_single_error {op : Operation}
    (failed : operateAll pass terms [op] c = (.error e, c')) : c'.standing = c.standing := by
  unfold operateAll at failed
  split at failed
  · simp [operateAll] at failed
  · rename_i operated
    cases failed
    exact standing_of_operate_error operated

theorem standing_of_measure_error {op : Operation} {measure : Measure}
    (takes : op = .count measure ∨ op = .sum measure)
    (failed : operateAll pass terms [op, .noise] c = (.error e, c')) :
    c'.standing = c.standing ∨ c'.standing = ⟨c.standing.schema, .measuring measure.mechanism⟩ := by
  unfold operateAll at failed
  split at failed
  · -- The measure has been taken, so it is the noise that failed.
    rename_i middle operated
    right
    rw [standing_of_single_error failed]
    unfold operate at operated
    split at operated
    · simp at operated
    · rename_i move accepted
      split at operated
      · simp at operated
      · cases operated
        exact (transition_eq_ok_iff.1 accepted).measuring takes
  · rename_i operated
    cases failed
    exact .inl (standing_of_operate_error operated)

/-- A step that fails leaves the query where it stands, or waiting for a noise. -/
theorem standing_of_step_error {step : Step} (failed : c.step pass terms step = (.error e, c')) :
    c'.standing = c.standing ∨ ∃ measure, (step = .count measure ∨ step = .sum measure) ∧
      c'.standing = ⟨c.standing.schema, .measuring measure.mechanism⟩ := by
  cases step with
  | count measure =>
    rcases standing_of_measure_error (.inl rfl) failed with same | due
    · exact .inl same
    · exact .inr ⟨measure, .inl rfl, due⟩
  | sum measure =>
    rcases standing_of_measure_error (.inr rfl) failed with same | due
    · exact .inl same
    · exact .inr ⟨measure, .inr rfl, due⟩
  | select columns => exact .inl (standing_of_single_error failed)
  | filter texts => exact .inl (standing_of_single_error failed)
  | rename mapping => exact .inl (standing_of_single_error failed)
  | bin b => exact .inl (standing_of_single_error failed)

/-- No step begins with a noise, so while one is due every step fails and nothing changes. -/
theorem step_of_measuring {mechanism : Mechanism} (due : c.standing.stage = .measuring mechanism)
    (step : Step) : ∃ e, c.step pass terms step = (.error e, c) := by
  have first {op : Operation} {rest : List Operation} (other : op ≠ .noise) :
      ∃ e, operateAll pass terms (op :: rest) c = (.error e, c) := by
    obtain ⟨e, refused⟩ : ∃ e, c.operate pass terms op = (.error e, c) :=
      operate_of_measuring other due
    exact ⟨e, by simp only [operateAll, refused]⟩
  cases step <;> exact first (by simp)

/-! ## Going on after failures -/

/-- Take steps one after the other, whether they fail or not. -/
def attemptAll (pass : Pass σ ε) (terms : Terms) (steps : List Step) (c : Course σ) : Course σ :=
  steps.foldl (fun c step => (c.step pass terms step).2) c

theorem attemptAll_of_measuring {mechanism : Mechanism}
    (due : c.standing.stage = .measuring mechanism) (steps : List Step) :
    attemptAll pass terms steps c = c := by
  induction steps with
  | nil => rfl
  | cons step steps ih =>
    obtain ⟨e, failed⟩ : ∃ e, c.step pass terms step = (.error e, c) := step_of_measuring due step
    rw [attemptAll, List.foldl_cons, failed]
    exact ih

/-- A query that waits for its noise when a step begins is lost. -/
theorem lost_of_measuring {mechanism : Mechanism} (due : c.standing.stage = .measuring mechanism) :
    (∀ step, ∃ e, c.step pass terms step = (.error e, c)) ∧
      ∀ steps, attemptAll pass terms steps c = c ∧
        (attemptAll pass terms steps c).standing.finish =
          .error (.order (.unfinished (.measuring mechanism))) := by
  refine ⟨step_of_measuring due, fun steps => ?_⟩
  rw [attemptAll_of_measuring due]
  exact ⟨rfl, by rw [Standing.finish, due]⟩

/-- **`step_failed`**: whatever the pass objects to, a step that fails leaves the working schema
unchanged, and the stage unchanged or waiting for the noise of the step's measure. Wherever a query
waits for a noise every step fails and changes nothing, so that it is not complete after any more
steps. -/
theorem step_failed (pass : Pass σ ε) (terms : Terms) (c c' : Course σ) (step : Step) (e : ε)
    (failed : c.step pass terms step = (.error e, c')) :
    c'.standing.schema = c.standing.schema ∧
      (c'.standing.stage = c.standing.stage ∨ ∃ measure,
        (step = .count measure ∨ step = .sum measure) ∧
          c'.standing.stage = .measuring measure.mechanism) ∧
      ∀ (lost : Course σ) (mechanism : Mechanism), lost.standing.stage = .measuring mechanism →
        (∀ next, ∃ e, lost.step pass terms next = (.error e, lost)) ∧
        ∀ steps, attemptAll pass terms steps lost = lost ∧
          (attemptAll pass terms steps lost).standing.finish =
            .error (.order (.unfinished (.measuring mechanism))) := by
  rcases standing_of_step_error failed with same | ⟨measure, takes, due⟩
  · exact ⟨by rw [same], .inl (by rw [same]), fun _ _ => lost_of_measuring⟩
  · exact ⟨by rw [due], .inr ⟨measure, takes, by rw [due]⟩, fun _ _ => lost_of_measuring⟩

/-- A pass that counts its calls and objects to a noise is called twice for a count, whose query is
then lost. -/
theorem step_failed_noise :
    ∃ (pass : Pass Nat String) (e : String) (c' : Course Nat),
      (Course.start ⟨[⟨"age", .int 0 100⟩], by decide⟩ 0).step pass ⟨⟨1, none⟩, .pureDP, 65536⟩
        (.count ⟨"age", .laplace⟩) = (.error e, c') ∧
      c'.state = 2 ∧ c'.standing.schema = ⟨[⟨"age", .int 0 100⟩], by decide⟩ ∧
      c'.standing.stage = .measuring .laplace ∧
      ∀ steps, (attemptAll pass ⟨⟨1, none⟩, .pureDP, 65536⟩ steps c').standing.finish =
        .error (.order (.unfinished (.measuring .laplace))) := by
  refine ⟨⟨fun event calls => (if event.isNoise then .error "no noise" else .ok (), calls + 1),
    QueryError.message⟩, ?_⟩
  generalize counts : (⟨_, _⟩ : Pass Nat String) = pass
  generalize outcome : (Course.start ⟨[⟨"age", .int 0 100⟩], by decide⟩ 0).step pass
    ⟨⟨1, none⟩, .pureDP, 65536⟩ (.count ⟨"age", .laplace⟩) = r
  have ended : (r.1.toOption, r.2.state, r.2.standing.stage) = (none, 2, .measuring .laplace) := by
    subst outcome counts
    decide +kernel
  obtain ⟨_ | _, c'⟩ := r <;> simp only [Prod.mk.injEq] at ended
  · rename_i e
    obtain ⟨-, calls, due⟩ := ended
    obtain ⟨schema, -, lost⟩ := step_failed pass _ _ _ _ e outcome
    exact ⟨e, c', rfl, calls, schema, due, fun steps => ((lost c' _ due).2 steps).2⟩
  · simp [Except.toOption] at ended

end Course

end PrivateQuery
