import PrivateQuery.Proofs.Noise.Drawing

/-!
# More attempts

The number of attempts decides only whether a draw stalls: a sampler that is given more of them takes
the same words and has the same outcome wherever it did not stall before (`approximates_perturb`). So
what holds for every number of attempts holds of sampling without a limit.
-/
namespace PrivateQuery

/-- Wherever the first sampler does not stall the second one does the same. -/
def Approximates {α : Type} (s t : Sampler α) : Prop :=
  ∀ g, (s.run g).1 = .error .stalled ∨ t.run g = s.run g

section
variable {α β : Type} {s t : Sampler α} {f h : α → Sampler β}

theorem Approximates.refl (s : Sampler α) : Approximates s s := fun _ => .inr rfl

theorem Approximates.stalled (t : Sampler α) : Approximates (throw .stalled) t := fun _ => .inl rfl

theorem Approximates.bind (first : Approximates s t) (rest : ∀ a, Approximates (f a) (h a)) :
    Approximates (s >>= f) (t >>= h) := by
  intro g
  rw [run_bind, run_bind]
  rcases first g with stalls | same
  · left
    cases ended : s.run g with
    | mk outcome g' =>
      rw [ended] at stalls
      cases stalls
      rfl
  · rw [same]
    cases s.run g with
    | mk outcome g' =>
      cases outcome with
      | ok a => exact rest a g'
      | error fault => exact .inr rfl

end

namespace Noise

variable {few many : Nat} (le : few ≤ many)
include le

/-! ## Loops

Each is by induction on the smaller number of attempts: with none left it stalls, and otherwise both
samplers make the same attempt. -/

theorem approximates_laplaceWithin (scale : Float) :
    Approximates (drawLaplaceWithin scale few) (drawLaplaceWithin scale many) := by
  induction few generalizing many with
  | zero => exact .stalled _
  | succ few ih =>
    obtain ⟨many, rfl⟩ := Nat.exists_eq_add_of_lt le
    refine (Approximates.refl drawCentred).bind fun u => ?_
    dsimp only
    split
    · exact .refl _
    · exact ih (by omega)

theorem approximates_discreteGaussianWithin (variance t : Float) :
    Approximates (drawDiscreteGaussianWithin variance t few)
      (drawDiscreteGaussianWithin variance t many) := by
  induction few generalizing many with
  | zero => exact .stalled _
  | succ few ih =>
    obtain ⟨many, rfl⟩ := Nat.exists_eq_add_of_lt le
    refine (Approximates.refl _).bind fun y => (Approximates.refl _).bind fun kept => ?_
    cases kept with
    | true => exact .refl _
    | false => exact ih (by omega)

theorem approximates_tail (negative : Bool) (x y : Float) :
    Approximates (drawTail negative few x y) (drawTail negative many x y) := by
  induction few generalizing many x y with
  | zero => exact .stalled _
  | succ few ih =>
    obtain ⟨many, rfl⟩ := Nat.exists_eq_add_of_lt le
    unfold drawTail
    split
    · exact (Approximates.refl _).bind fun _ => (Approximates.refl _).bind fun _ => ih (by omega) _ _
    · exact .refl _

theorem approximates_standard : Approximates (drawStandard few) (drawStandard many) := by
  induction few generalizing many with
  | zero => exact .stalled _
  | succ few ih =>
    obtain ⟨many, rfl⟩ := Nat.exists_eq_add_of_lt le
    refine (Approximates.refl drawWord).bind fun word => ?_
    dsimp only
    split
    · exact .refl _
    split
    · exact approximates_tail (by omega) _ 1 0
    · refine (Approximates.refl drawUnit).bind fun v => ?_
      split
      · exact .refl _
      · exact ih (by omega)

/-! ## Noise -/

theorem approximates_integer (n : Noise) :
    Approximates (n.drawInteger few) (n.drawInteger many) := by
  unfold drawInteger drawDiscreteGaussian
  split
  · exact .refl _
  split
  · exact .refl _
  · exact approximates_discreteGaussianWithin le _ _

theorem approximates_float (n : Noise) : Approximates (n.drawFloat few) (n.drawFloat many) := by
  unfold drawFloat drawLaplace drawGaussian
  split
  · split
    · exact .refl _
    · exact approximates_laplaceWithin le _
  · split
    · exact .refl _
    split
    · exact .refl _
    · exact (approximates_standard le).bind fun _ => .refl _

theorem approximates_perturbCounts (n : Noise) (counts : List Int64) :
    Approximates (n.perturbCounts few counts) (n.perturbCounts many counts) := by
  induction counts with
  | nil => exact .refl _
  | cons c counts ih =>
    exact (n.approximates_integer le).bind fun _ => ih.bind fun _ => .refl _

/-- **`approximates_perturb`**: with more attempts noise is added as before, or it stalled before. -/
theorem approximates_perturb (n : Noise) (raw : Aggregate) :
    Approximates (n.perturb few raw) (n.perturb many raw) := by
  unfold perturb
  split
  · exact (n.approximates_integer le).bind fun _ => .refl _
  · exact (n.approximates_float le).bind fun _ => .refl _
  · exact (n.approximates_integer le).bind fun _ => .refl _
  · exact (n.approximates_float le).bind fun _ => .refl _
  · exact (n.approximates_perturbCounts le _).bind fun _ => .refl _
  · exact .refl _

end Noise

end PrivateQuery
