import PrivateQuery.Noise.Perturbation

/-!
# Words that samplers take

A sampler takes the next words of a generator, one after the other, and its outcome depends on these
words alone (`Takes`). How many it takes may depend on the words themselves, as in a loop that
rejects some of them, but every sampler takes some number from every generator (`Draws`). Both are
kept by composition, so they hold of all noise (`draws_perturb`).
-/
namespace PrivateQuery

/-- The generator some words further. -/
def Generator.skip (g : Generator) (words : Nat) : Generator := { g with drawn := g.drawn + words }

theorem Generator.skip_skip (g : Generator) (words more : Nat) :
    (g.skip words).skip more = g.skip (words + more) := by
  simp only [skip, Nat.add_assoc]

/-- A sampler takes the next words of a generator: from every generator with the same next words it
has the same outcome and ends so many words further. -/
def Takes {α : Type} (s : Sampler α) (g : Generator) (words : Nat) : Prop :=
  ∀ h : Generator, (∀ i < words, h.word (h.drawn + i) = g.word (g.drawn + i)) →
    s.run h = ((s.run g).1, h.skip words)

/-- A sampler takes some words from every generator. -/
def Draws {α : Type} (s : Sampler α) : Prop := ∀ g, ∃ words, Takes s g words

section
variable {α β : Type} {s : Sampler α} {f : α → Sampler β} {g : Generator} {words : Nat}

theorem run_bind (s : Sampler α) (f : α → Sampler β) (g : Generator) :
    (s >>= f).run g =
      match s.run g with
      | (.ok a, g) => (f a).run g
      | (.error fault, g) => (.error fault, g) := by
  cases ended : s.run g with
  | mk outcome g' =>
    have bound : (s >>= f).run g = ExceptT.bindCont f outcome g' := by
      change (s.run g >>= fun r => ExceptT.bindCont f r.1 r.2) = _
      rw [ended]
      rfl
    rw [bound]
    cases outcome <;> rfl

theorem Takes.run (takes : Takes s g words) : s.run g = ((s.run g).1, g.skip words) :=
  takes g fun _ _ => rfl

theorem Takes.pure (a : α) (g : Generator) : Takes (Pure.pure a : Sampler α) g 0 :=
  fun _ _ => rfl

theorem Takes.throw (fault : Fault MechanismError) (g : Generator) :
    Takes (MonadExcept.throw fault : Sampler α) g 0 :=
  fun _ _ => rfl

/-- The words that one sampler takes after another. -/
theorem Takes.bind {a : α} {more : Nat} (first : Takes s g words) (ok : (s.run g).1 = .ok a)
    (rest : Takes (f a) (g.skip words) more) : Takes (s >>= f) g (words + more) := by
  intro h same
  have ran : s.run h = (.ok a, h.skip words) := by
    rw [first h fun i less => same i (by omega), ok]
  have ended : s.run g = (.ok a, g.skip words) := by
    rw [first.run, ok]
  -- What the second sampler takes are the words after those of the first.
  have next := rest (h.skip words) fun i less => by
    have word := same (words + i) (by omega)
    rwa [← Nat.add_assoc, ← Nat.add_assoc] at word
  rw [run_bind, run_bind, ran, ended]
  simp only [next, Generator.skip_skip]

/-- After a fault no more words are taken. -/
theorem Takes.bind_error {fault : Fault MechanismError} (first : Takes s g words)
    (failed : (s.run g).1 = .error fault) : Takes (s >>= f) g words := by
  intro h same
  have ran : s.run h = (.error fault, h.skip words) := by rw [first h same, failed]
  have ended : s.run g = (.error fault, g.skip words) := by rw [first.run, failed]
  rw [run_bind, run_bind, ran, ended]

theorem Draws.pure (a : α) : Draws (Pure.pure a : Sampler α) := fun g => ⟨0, .pure a g⟩

theorem Draws.throw (fault : Fault MechanismError) : Draws (MonadExcept.throw fault : Sampler α) :=
  fun g => ⟨0, .throw fault g⟩

theorem Draws.bind (first : Draws s) (rest : ∀ a, Draws (f a)) : Draws (s >>= f) := by
  intro g
  obtain ⟨words, takes⟩ := first g
  cases ended : (s.run g).1 with
  | ok a =>
    obtain ⟨more, next⟩ := rest a (g.skip words)
    exact ⟨words + more, takes.bind ended next⟩
  | error fault => exact ⟨words, takes.bind_error ended⟩

end

/-! ## Samplers of noise

The loops are by induction on the attempts that are left: an attempt takes its words and then ends or
leaves the rest to the loop. -/

namespace Noise

theorem draws_word : Draws drawWord := by
  intro g
  refine ⟨1, fun h same => ?_⟩
  have word := same 0 Nat.one_pos
  change (Except.ok (h.word (h.drawn + 0)), h.skip 1) = (Except.ok (g.word (g.drawn + 0)), h.skip 1)
  rw [word]

theorem draws_unit : Draws drawUnit := draws_word.bind fun _ => .pure _

theorem draws_open : Draws drawOpen := draws_word.bind fun _ => .pure _

theorem draws_centred : Draws drawCentred := draws_word.bind fun _ => .pure _

theorem draws_event (p : Float) : Draws (drawEvent p) := by
  unfold drawEvent
  split
  · exact .pure _
  split
  · exact draws_word.bind fun _ => .pure _
  · exact .throw _

theorem draws_laplaceWithin (scale : Float) (attempts : Nat) :
    Draws (drawLaplaceWithin scale attempts) := by
  induction attempts with
  | zero => exact .throw _
  | succ attempts ih =>
    refine draws_centred.bind fun u => ?_
    dsimp only
    split
    · exact .pure _
    · exact ih

theorem draws_laplace (scale : Float) (attempts : Nat) : Draws (drawLaplace scale attempts) := by
  unfold drawLaplace
  split
  · exact .pure _
  · exact draws_laplaceWithin scale attempts

theorem draws_geometric (scale : Float) : Draws (drawGeometric scale) :=
  draws_unit.bind fun _ => .pure _

theorem draws_discreteLaplace (scale : Float) : Draws (drawDiscreteLaplace scale) := by
  unfold drawDiscreteLaplace
  split
  · exact .pure _
  · exact (draws_geometric scale).bind fun _ => (draws_geometric scale).bind fun _ => .pure _

theorem draws_discreteGaussianWithin (variance t : Float) (attempts : Nat) :
    Draws (drawDiscreteGaussianWithin variance t attempts) := by
  induction attempts with
  | zero => exact .throw _
  | succ attempts ih =>
    refine (draws_discreteLaplace t).bind fun y => (draws_event _).bind fun kept => ?_
    cases kept with
    | true => exact .pure _
    | false => exact ih

theorem draws_discreteGaussian (scale : Float) (attempts : Nat) :
    Draws (drawDiscreteGaussian scale attempts) := by
  unfold drawDiscreteGaussian
  split
  · exact .pure _
  · exact draws_discreteGaussianWithin _ _ attempts

theorem draws_tail (negative : Bool) (attempts : Nat) (x y : Float) :
    Draws (drawTail negative attempts x y) := by
  induction attempts generalizing x y with
  | zero => exact .throw _
  | succ attempts ih =>
    unfold drawTail
    split
    · exact draws_open.bind fun _ => draws_open.bind fun _ => ih _ _
    · exact .pure _

theorem draws_standard (attempts : Nat) : Draws (drawStandard attempts) := by
  induction attempts with
  | zero => exact .throw _
  | succ attempts ih =>
    refine draws_word.bind fun word => ?_
    dsimp only
    split
    · exact .pure _
    split
    · exact draws_tail _ attempts 1 0
    · refine draws_unit.bind fun v => ?_
      split
      · exact .pure _
      · exact ih

theorem draws_gaussian (scale : Float) (attempts : Nat) : Draws (drawGaussian scale attempts) := by
  unfold drawGaussian
  split
  · exact .pure _
  split
  · exact .throw _
  · exact (draws_standard attempts).bind fun _ => .pure _

theorem draws_integer (n : Noise) (attempts : Nat) : Draws (n.drawInteger attempts) := by
  unfold drawInteger
  split
  · exact draws_discreteLaplace n.scale
  · exact draws_discreteGaussian n.scale attempts

theorem draws_float (n : Noise) (attempts : Nat) : Draws (n.drawFloat attempts) := by
  unfold drawFloat
  split
  · exact draws_laplace n.scale attempts
  · exact draws_gaussian n.scale attempts

end Noise

end PrivateQuery
