import PrivateQuery.Pipeline.Release
import PrivateQuery.Proofs.Pipeline.Label

/-!
# After the noise

Once its noise has been added a query can only be given new names (`renames_of_noised`), and these
reach its pipeline in the label alone. An evaluation reads the label after everything else, when it
puts the release under it, so under another label it draws the same words and ends with the same
release or the same fault (`evaluate_relabelled`). What is released is settled with the noise
(`run_relabels`).
-/
namespace PrivateQuery

open Assembly

/-- A query whose noise has been added takes no other steps than new names, and its noise stays. -/
theorem renames_of_noised {terms : Terms} {steps : List Step} {s s' : Standing}
    {events : List Event} (noised : s.stage = .noiseAdded)
    (moves : Moves terms s (steps.flatMap Step.operations) events s') :
    (∀ step ∈ steps, step.isRename = true) ∧ s'.stage = .noiseAdded := by
  induction steps generalizing s events with
  | nil =>
    cases moves
    exact ⟨by simp, noised⟩
  | cons step steps ih =>
    rw [List.flatMap_cons, moves_append_iff] at moves
    obtain ⟨next, first, rest, moves, moves', rfl⟩ := moves
    have taken : step.isRename = true ∧ next.stage = .noiseAdded := by
      cases step with
      | rename mapping =>
        cases moves_single_iff.1 moves with
        | rename due renamed => exact ⟨rfl, noised⟩
      | _ =>
        -- The first operation of any other step is refused at this stage.
        cases moves with
        | cons accepted rest => cases accepted <;> cases noised
    obtain ⟨renames, noised'⟩ := ih taken.2 moves'
    exact ⟨List.forall_mem_cons.2 ⟨taken.1, renames⟩, noised'⟩

namespace Pipeline

/-- Under another label the same is released, with the same words drawn. -/
theorem evaluate_relabelled (p : Pipeline) (label : String) (attempts : Nat) (frame : Frame)
    (g : Generator) : { p with label }.evaluate attempts frame g =
      ((p.release attempts frame g).1.map fun release => .ofList [(label, release)],
        (p.release attempts frame g).2) := by
  have same : { p with label }.release attempts frame g = p.release attempts frame g := rfl
  rw [evaluate_eq, same]

end Pipeline

/-- **`run_relabels`**: the steps that a query takes after its noise are new names. They leave its
pipeline as it was but for the label, and every evaluation draws the same words and ends with the same
release, under the new label, or the same fault as before them. -/
theorem run_relabels (library : Library) (parameters : Parameters) (budget : Budget) (notion : Notion)
    (schema : Schema) (steps more : List Step) (c c' : Course Assembly)
    (compiled : compile library parameters budget notion schema steps = .ok c)
    (noised : c.standing.stage = .noiseAdded)
    (continued : Course.run (pass library parameters) (.of budget notion parameters) more c =
      .ok c') :
    (∀ step ∈ more, step.isRename = true) ∧ c'.standing.stage = .noiseAdded ∧
      ∃ p label, c.pipeline = .ok p ∧ c'.pipeline = .ok { p with label } ∧
        label = laterName (newNames more) p.label ∧
        ∀ attempts frame g, ∃ (outcome : Attempt QueryError Release) (after : Generator),
          p.evaluate attempts frame g =
            (outcome.map fun release => .ofList [(p.label, release)], after) ∧
          { p with label }.evaluate attempts frame g =
            (outcome.map fun release => .ofList [(label, release)], after) := by
  obtain ⟨events, moves, observed⟩ := Course.run_eq_ok_iff.1 continued
  obtain ⟨renames, noised'⟩ := renames_of_noised noised moves
  have fits := compile_fits compiled
  obtain ⟨⟨released, stage⟩, a⟩ := c
  cases noised
  generalize measuring steps = taken at fits
  cases fits with
  | noised projects due found =>
    obtain ⟨-, held⟩ := observe_newNames moves rfl renames rfl observed
    exact ⟨renames, noised', _, _, rfl, Course.pipeline_eq_ok_iff.2 ⟨noised', held⟩, rfl,
      fun attempts frame g => ⟨_, _, Pipeline.evaluate_eq _ attempts frame g,
        Pipeline.evaluate_relabelled _ _ attempts frame g⟩⟩

/-- A count of ages whose result gets two names after its noise. -/
theorem run_relabels_people :
    ∃ c c', compile (.standard .standard) .standard ⟨0.5, none⟩ .pureDP
        ⟨[⟨"age", .int 18 90⟩, ⟨"job", .text⟩], by decide⟩ [.count ⟨"age", .laplace⟩] = .ok c ∧
      c.standing.stage = .noiseAdded ∧
      Course.run (pass (.standard .standard) .standard) (.of ⟨0.5, none⟩ .pureDP .standard)
        [.rename (.ofList [("age", "n")]), .rename (.ofList [("job", "age"), ("n", "people")])] c =
          .ok c' ∧
      (∀ step ∈ [Step.rename (.ofList [("age", "n")]),
        .rename (.ofList [("job", "age"), ("n", "people")])], step.isRename = true) ∧
      c'.standing.stage = .noiseAdded ∧
      ∃ p label, c.pipeline = .ok p ∧ c'.pipeline = .ok { p with label } ∧
        label = laterName (newNames [.rename (.ofList [("age", "n")]),
          .rename (.ofList [("job", "age"), ("n", "people")])]) p.label ∧
        ∀ attempts frame g, ∃ (outcome : Attempt QueryError Release) (after : Generator),
          p.evaluate attempts frame g =
            (outcome.map fun release => .ofList [(p.label, release)], after) ∧
          { p with label }.evaluate attempts frame g =
            (outcome.map fun release => .ofList [(label, release)], after) := by
  have ran : ((compile (.standard .standard) .standard ⟨0.5, none⟩ .pureDP
      ⟨[⟨"age", .int 18 90⟩, ⟨"job", .text⟩], by decide⟩
      [.count ⟨"age", .laplace⟩]).toOption.bind fun c =>
        (Course.run (pass (.standard .standard) .standard) (.of ⟨0.5, none⟩ .pureDP .standard)
          [.rename (.ofList [("age", "n")]), .rename (.ofList [("job", "age"), ("n", "people")])]
            c).toOption.map fun _ => c.standing.stage) = some .noiseAdded := by decide +kernel
  obtain ⟨c, compiled, ran⟩ := Option.bind_eq_some_iff.1 ran
  obtain ⟨c', continued, noised⟩ := Option.map_eq_some_iff.1 ran
  rw [toOption_eq_some] at compiled continued
  exact ⟨c, c', compiled, noised, continued,
    run_relabels _ _ _ _ _ _ _ c c' compiled noised continued⟩

end PrivateQuery
