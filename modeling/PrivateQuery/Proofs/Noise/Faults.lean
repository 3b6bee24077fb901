import PrivateQuery.Proofs.Noise.Vector
import PrivateQuery.Proofs.Privacy.Reach

/-!
# Faults of samplers

Which faults a sampler can end with is kept by composition (`FailsOnly`). Noise at a scale that is
finite and not negative never ends with an error: its loops may stall, and the only sampler that can
crash is the one for discrete Gaussian noise, when it has to decide on an event whose probability is
none (`failsOnly_integer`, `failsOnly_float`).
-/
namespace PrivateQuery

/-- A sampler ends with no fault but those of some kind, from every generator. -/
def FailsOnly {α : Type} (s : Sampler α) (kind : Fault MechanismError → Prop) : Prop :=
  ∀ g fault, (s.run g).1 = .error fault → kind fault

section
variable {α β : Type} {s : Sampler α} {f : α → Sampler β} {kind : Fault MechanismError → Prop}

theorem FailsOnly.pure (a : α) : FailsOnly (Pure.pure a : Sampler α) kind := by
  intro g fault failed
  change Except.ok a = Except.error fault at failed
  simp at failed

theorem FailsOnly.throw {fault : Fault MechanismError} (h : kind fault) :
    FailsOnly (MonadExcept.throw fault : Sampler α) kind := by
  intro g other failed
  change Except.error fault = Except.error other at failed
  cases failed
  exact h

theorem FailsOnly.bind (first : FailsOnly s kind) (rest : ∀ a, FailsOnly (f a) kind) :
    FailsOnly (s >>= f) kind := by
  intro g fault failed
  rw [run_bind] at failed
  cases ended : s.run g with
  | mk outcome g' =>
    rw [ended] at failed
    cases outcome with
    | ok a => exact rest a g' fault failed
    | error cause => exact first g fault (by simpa [ended] using failed)

theorem failsOnly_many {draw : Sampler α} (h : FailsOnly draw kind) (times : Nat) :
    FailsOnly (drawMany draw times) kind := by
  induction times with
  | zero => exact .pure _
  | succ times ih => exact h.bind fun _ => ih.bind fun _ => .pure _

end

namespace Noise

variable {kind : Fault MechanismError → Prop}

theorem failsOnly_word : FailsOnly drawWord kind := by
  intro g fault failed
  change Except.ok (g.word g.drawn) = Except.error fault at failed
  simp at failed

theorem failsOnly_unit : FailsOnly drawUnit kind := failsOnly_word.bind fun _ => .pure _

theorem failsOnly_open : FailsOnly drawOpen kind := failsOnly_word.bind fun _ => .pure _

theorem failsOnly_centred : FailsOnly drawCentred kind := failsOnly_word.bind fun _ => .pure _

/-! ## Events -/

/-- Whether there is an event of this probability. -/
def IsProbability (p : Float) : Prop := p == 1 ∨ 0 ≤ p ∧ p < 1

theorem failsOnly_event {p : Float} (h : IsProbability p) : FailsOnly (drawEvent p) kind := by
  unfold drawEvent
  split
  · exact .pure _
  · rename_i unsure
    split
    · exact failsOnly_word.bind fun _ => .pure _
    · rename_i improper
      exact absurd (h.resolve_left unsure) improper

/-- What is no probability crashes the draw before a word is taken. -/
theorem event_crashes {p : Float} (h : ¬ IsProbability p) (g : Generator) :
    (drawEvent p).run g = (.error .crashed, g) := by
  unfold drawEvent
  rw [if_neg fun sure => h (.inl sure), if_neg fun proper => h (.inr proper)]
  rfl

/-! ## Samplers -/

section
variable (stalls : kind .stalled)
include stalls

theorem failsOnly_laplace (scale : Float) (attempts : Nat) :
    FailsOnly (drawLaplace scale attempts) kind := by
  have loop (attempts : Nat) : FailsOnly (drawLaplaceWithin scale attempts) kind := by
    induction attempts with
    | zero => exact .throw stalls
    | succ attempts ih =>
      refine failsOnly_centred.bind fun u => ?_
      dsimp only
      split
      · exact .pure _
      · exact ih
  unfold drawLaplace
  split
  · exact .pure _
  · exact loop attempts

theorem failsOnly_tail (negative : Bool) (attempts : Nat) (x y : Float) :
    FailsOnly (drawTail negative attempts x y) kind := by
  induction attempts generalizing x y with
  | zero => exact .throw stalls
  | succ attempts ih =>
    unfold drawTail
    split
    · exact failsOnly_open.bind fun _ => failsOnly_open.bind fun _ => ih _ _
    · exact .pure _

theorem failsOnly_standard (attempts : Nat) : FailsOnly (drawStandard attempts) kind := by
  induction attempts with
  | zero => exact .throw stalls
  | succ attempts ih =>
    refine failsOnly_word.bind fun word => ?_
    dsimp only
    split
    · exact .pure _
    split
    · exact failsOnly_tail stalls _ attempts 1 0
    · refine failsOnly_unit.bind fun v => ?_
      split
      · exact .pure _
      · exact ih

theorem failsOnly_gaussian {scale : Float} (scaled : isScale scale = true) (attempts : Nat) :
    FailsOnly (drawGaussian scale attempts) kind := by
  obtain ⟨finite, nonneg⟩ := isScale_iff.1 scaled
  unfold drawGaussian
  split
  · exact .pure _
  · rename_i positive
    have number : scale.isNaN = false := Binary64.isNaN_eq_false_iff.2 finite.isNumber
    have proper : ¬ scale ≤ 0 := by
      intro le
      have below := (Binary64.le_iff.1 le).2.2
      rw [Binary64.place_zero] at below
      exact positive ((Binary64.beq_zero_iff finite.isNumber).2 (le_antisymm below nonneg))
    have regular : (scale.isNaN || decide (scale ≤ 0)) = false := by
      rw [number, decide_eq_false proper]
      rfl
    rw [if_neg (by rw [regular]; exact Bool.false_ne_true)]
    exact (failsOnly_standard stalls attempts).bind fun _ => .pure _

theorem failsOnly_float (n : Noise) (attempts : Nat) :
    FailsOnly (n.drawFloat attempts) kind := by
  unfold drawFloat
  split
  · exact failsOnly_laplace stalls n.scale attempts
  · exact failsOnly_gaussian stalls n.isScale_scale attempts

end

theorem failsOnly_discreteLaplace (scale : Float) : FailsOnly (drawDiscreteLaplace scale) kind := by
  have geometric : FailsOnly (drawGeometric scale) kind := failsOnly_unit.bind fun _ => .pure _
  unfold drawDiscreteLaplace
  split
  · exact .pure _
  · exact geometric.bind fun _ => geometric.bind fun _ => .pure _

/-- Discrete Gaussian noise fails to end at most, if each of its events has a probability or crashes
are of the kind. -/
theorem failsOnly_discreteGaussian (stalls : kind .stalled) {scale : Float}
    (events : ¬ (scale == 0) = true → ∀ y, IsProbability
        (acceptance (scale * scale) (Binary64.floor scale + 1) y) ∨ kind .crashed)
    (attempts : Nat) : FailsOnly (drawDiscreteGaussian scale attempts) kind := by
  unfold drawDiscreteGaussian
  split
  · exact .pure _
  · rename_i scaled
    have event (y : Int64) : FailsOnly
        (drawEvent (acceptance (scale * scale) (Binary64.floor scale + 1) y)) kind := by
      by_cases proper : IsProbability (acceptance (scale * scale) (Binary64.floor scale + 1) y)
      · exact failsOnly_event proper
      · intro g fault failed
        rw [event_crashes proper] at failed
        cases failed
        exact (events scaled y).resolve_left proper
    have loop (attempts : Nat) : FailsOnly (drawDiscreteGaussianWithin (scale * scale)
        (Binary64.floor scale + 1) attempts) kind := by
      induction attempts with
      | zero => exact .throw stalls
      | succ attempts ih =>
        refine (failsOnly_discreteLaplace _).bind fun y => (event y).bind fun kept => ?_
        cases kept with
        | true => exact .pure _
        | false => exact ih
    exact loop attempts

theorem failsOnly_integer (n : Noise) {attempts : Nat}
    (gaussian : n.mechanism = .gaussian → FailsOnly (drawDiscreteGaussian n.scale attempts) kind) :
    FailsOnly (n.drawInteger attempts) kind := by
  unfold drawInteger
  cases mechanism : n.mechanism with
  | laplace => exact failsOnly_discreteLaplace n.scale
  | gaussian => exact gaussian mechanism

theorem failsOnly_vector (stalls : kind .stalled) (n : Noise) {attempts : Nat}
    (gaussian : n.mechanism = .gaussian → n.discrete = true →
      FailsOnly (drawDiscreteGaussian n.scale attempts) kind)
    (outputs : Nat) : FailsOnly (n.drawVector attempts outputs) kind := by
  unfold drawVector
  split
  · rename_i discrete
    have draw := n.failsOnly_integer fun mechanism => gaussian mechanism discrete
    exact (failsOnly_many draw outputs).bind fun _ => .pure _
  · exact (failsOnly_many (failsOnly_float stalls n attempts) outputs).bind fun _ => .pure _

/-- **`vector_faults`**: drawing noise ends with no error. -/
theorem vector_faults (n : Noise) (attempts outputs : Nat) :
    FailsOnly (n.drawVector attempts outputs) fun fault => fault = .crashed ∨ fault = .stalled :=
  n.failsOnly_vector (.inr rfl)
    (fun _ _ => failsOnly_discreteGaussian (.inr rfl) (fun _ _ => .inr (.inl rfl)) attempts) outputs

end Noise

end PrivateQuery
