import PrivateQuery.Proofs.Noise.Drawing
import PrivateQuery.Proofs.Outcome

/-!
# Noise vectors

The noise of an aggregate is a vector with one entry for each output, drawn without a look at the
outputs (`Noise.drawVector`). Perturbing an aggregate takes the words that drawing the vector takes,
and ends with its entries added to the outputs, or with the fault of the draw (`perturb_ends`).
-/
namespace PrivateQuery

/-- Noise for the outputs of an aggregate. -/
inductive NoiseVector where
  | integers (entries : List Int64)
  | reals (entries : List Float)
deriving DecidableEq

/-- The outcomes of a sampler that is run several times. -/
def drawMany {α : Type} (draw : Sampler α) : (times : Nat) → Sampler (List α)
  | 0 => return []
  | times + 1 => do
    let x ← draw
    let rest ← drawMany draw times
    return x :: rest

/-- The noise for a number of outputs. -/
def Noise.drawVector (n : Noise) (attempts outputs : Nat) : Sampler NoiseVector :=
  if n.discrete then do return .integers (← drawMany (n.drawInteger attempts) outputs)
  else do return .reals (← drawMany (n.drawFloat attempts) outputs)

namespace Aggregate

/-- The number of outputs. -/
def outputs : Aggregate → Nat
  | counts ns => ns.length
  | _ => 1

def isIntegral : Aggregate → Bool
  | real _ => false
  | _ => true

/-- Every output is its raw value plus its entry of the noise: integers stop at the ends of a word,
doubles are rounded. -/
inductive Noised : Aggregate → NoiseVector → Aggregate → Prop where
  | integer {i x : Int64} : Noised (.integer i) (.integers [x]) (.integer (Word.addClamped i x))
  | real {r x : Float} : Noised (.real r) (.reals [x]) (.real (r + x))
  | counts {ns entries : List Int64} (each : entries.length = ns.length) :
      Noised (.counts ns) (.integers entries) (.counts (List.zipWith Word.addClamped ns entries))

/-- How a run ends on a raw aggregate, given how drawing its noise ends. -/
def EndsWith (raw : Aggregate) (drawn : Mechanism.Attempt NoiseVector)
    (ended : Mechanism.Attempt Aggregate) : Prop :=
  match drawn with
  | .ok vector => ∃ result, ended = .ok result ∧ raw.Noised vector result
  | .error fault => ended = .error fault

end Aggregate

/-! ## Words -/

theorem draws_many {α : Type} {draw : Sampler α} (draws : Draws draw) (times : Nat) :
    Draws (drawMany draw times) := by
  induction times with
  | zero => exact .pure _
  | succ times ih => exact draws.bind fun _ => ih.bind fun _ => .pure _

namespace Noise

variable (n : Noise) (attempts : Nat)

theorem draws_vector (outputs : Nat) : Draws (n.drawVector attempts outputs) := by
  unfold drawVector
  split
  · exact (draws_many (n.draws_integer attempts) outputs).bind fun _ => .pure _
  · exact (draws_many (n.draws_float attempts) outputs).bind fun _ => .pure _

theorem draws_perturbCounts (counts : List Int64) : Draws (n.perturbCounts attempts counts) := by
  induction counts with
  | nil => exact .pure _
  | cons c counts ih => exact (n.draws_integer attempts).bind fun _ => ih.bind fun _ => .pure _

theorem draws_perturb (raw : Aggregate) : Draws (n.perturb attempts raw) := by
  unfold perturb
  split
  · exact (n.draws_integer attempts).bind fun _ => .pure _
  · exact (n.draws_float attempts).bind fun _ => .pure _
  · exact (n.draws_integer attempts).bind fun _ => .pure _
  · exact (n.draws_float attempts).bind fun _ => .pure _
  · exact (n.draws_perturbCounts attempts _).bind fun _ => .pure _
  · exact .throw _

end Noise

/-! ## Perturbation -/

section
variable {α β : Type} {s : Sampler α} {g : Generator}

theorem run_map (f : α → β) (s : Sampler α) (g : Generator) :
    (s >>= fun a => pure (f a)).run g = ((s.run g).1.map f, (s.run g).2) := by
  rw [run_bind]
  cases s.run g with
  | mk outcome g' => cases outcome <;> rfl

theorem drawMany_one (draw : Sampler α) :
    drawMany draw 1 = draw >>= fun x => pure [x] := by
  simp [drawMany]

theorem length_of_drawMany {draw : Sampler α} {times : Nat} {xs : List α}
    (h : ((drawMany draw times).run g).1 = .ok xs) : xs.length = times := by
  induction times generalizing g xs with
  | zero =>
    cases h
    rfl
  | succ times ih =>
    rw [drawMany, run_bind] at h
    cases first : draw.run g with
    | mk outcome g' =>
      rw [first] at h
      cases outcome with
      | error fault => simp at h
      | ok x =>
        dsimp only at h
        rw [run_map, map_eq_ok] at h
        obtain ⟨rest, drawn, rfl⟩ := h
        simp [ih drawn]

end

namespace Noise

theorem perturbCounts_eq (n : Noise) (attempts : Nat) (counts : List Int64) :
    n.perturbCounts attempts counts =
      drawMany (n.drawInteger attempts) counts.length >>= fun entries =>
        pure (List.zipWith Word.addClamped counts entries) := by
  induction counts with
  | nil => simp [perturbCounts, drawMany]
  | cons c counts ih => simp [perturbCounts, drawMany, ih]

end Noise

/-- A run of noise that is made of one sampler, as the vector is, ends where that sampler ends. -/
theorem ends_of_eq {α : Type} {n : Noise} {attempts : Nat} {raw : Aggregate} {s : Sampler α}
    {vector : α → NoiseVector} {result : α → Aggregate} {g : Generator}
    (drawn : n.drawVector attempts raw.outputs = s >>= fun x => pure (vector x))
    (perturbed : n.perturb attempts raw = s >>= fun x => pure (result x))
    (noised : ∀ x, (s.run g).1 = .ok x → raw.Noised (vector x) (result x)) :
    ((n.perturb attempts raw).run g).2 = ((n.drawVector attempts raw.outputs).run g).2 ∧
      raw.EndsWith ((n.drawVector attempts raw.outputs).run g).1
        ((n.perturb attempts raw).run g).1 := by
  rw [drawn, perturbed, run_map, run_map]
  refine ⟨rfl, ?_⟩
  cases ended : (s.run g).1 with
  | ok x => exact ⟨result x, rfl, noised x ended⟩
  | error fault => rfl

/-- **`perturb_ends`**: perturbing an aggregate under noise of its kind ends where drawing the noise
vector ends, and with its entries added. -/
theorem perturb_ends {n : Noise} {raw : Aggregate} (fits : raw.isIntegral = n.discrete)
    (attempts : Nat) (g : Generator) :
    ((n.perturb attempts raw).run g).2 = ((n.drawVector attempts raw.outputs).run g).2 ∧
      raw.EndsWith ((n.drawVector attempts raw.outputs).run g).1
        ((n.perturb attempts raw).run g).1 := by
  -- In every case drawing the vector and perturbing are one sampler, with different results.
  cases raw with
  | integer i =>
    have discrete : n.discrete = true := fits.symm
    have drawn : n.drawVector attempts 1 =
        n.drawInteger attempts >>= fun x => pure (.integers [x]) := by
      simp [Noise.drawVector, discrete, drawMany_one]
    have perturbed : n.perturb attempts (.integer i) =
        n.drawInteger attempts >>= fun x => pure (.integer (Word.addClamped i x)) := by
      unfold Noise.perturb
      rw [discrete]
    exact ends_of_eq drawn perturbed fun x _ => .integer
  | real r =>
    have continuous : n.discrete = false := fits.symm
    have drawn : n.drawVector attempts 1 =
        n.drawFloat attempts >>= fun x => pure (.reals [x]) := by
      simp [Noise.drawVector, continuous, drawMany_one]
    have perturbed : n.perturb attempts (.real r) =
        n.drawFloat attempts >>= fun x => pure (.real (r + x)) := by
      unfold Noise.perturb
      rw [continuous]
    exact ends_of_eq drawn perturbed fun x _ => .real
  | counts ns =>
    have discrete : n.discrete = true := fits.symm
    have drawn : n.drawVector attempts ns.length =
        drawMany (n.drawInteger attempts) ns.length >>= fun entries =>
          pure (.integers entries) := by
      simp [Noise.drawVector, discrete]
    have perturbed : n.perturb attempts (.counts ns) =
        drawMany (n.drawInteger attempts) ns.length >>= fun entries =>
          pure (.counts (List.zipWith Word.addClamped ns entries)) := by
      unfold Noise.perturb
      rw [discrete]
      simp [n.perturbCounts_eq attempts ns]
    exact ends_of_eq drawn perturbed fun entries ended => .counts (length_of_drawMany ended)

end PrivateQuery
