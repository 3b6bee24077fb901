import Mathlib.Data.Nat.Notation
import PrivateQuery.Privacy.Accuracy

/-!
# Sums over a tail, without a limit on rounds

`sumOutward` is given a number of rounds and `firstWithin` a number of places. The relations `Outward`
and `Inward` say what the two do when they go on until they are done. The sum outward ends in as many
rounds as its relation has (`exists_sumOutward_iff`), so it is without an end just where no number of
rounds is enough. The way inward stops at the cutoff at the latest, so it always ends, in the places up
to there (`inward_iff`).
-/
namespace PrivateQuery.Accuracy

section
variable {S : Type} [Add S] {vanishes : S → S → Bool} {weight : ℕ → S}
variable {total total' total'' : S} {next cutoff cutoff' : ℕ}

/-- Adding pairs of weights outward from `next` ends with a total, at the first pair that vanishes
against it. -/
inductive Outward (vanishes : S → S → Bool) (weight : ℕ → S) :
    (total : S) → (next : ℕ) → (total' : S) → (cutoff : ℕ) → Prop where
  | stop {total : S} {next : ℕ}
      (gone : vanishes (weight next + weight next) total = true) :
      Outward vanishes weight total next total next
  | round {total total' : S} {next cutoff : ℕ}
      (stays : vanishes (weight next + weight next) total = false)
      (rest : Outward vanishes weight (total + (weight next + weight next)) (next + 1) total'
        cutoff) :
      Outward vanishes weight total next total' cutoff

theorem Outward.le (outward : Outward vanishes weight total next total' cutoff) :
    next ≤ cutoff := by
  induction outward with
  | stop gone => exact Nat.le_refl _
  | round stays rest ih => omega

theorem outward_of_sumOutward {rounds : ℕ}
    (h : sumOutward vanishes weight rounds total next = some (total', cutoff)) :
    Outward vanishes weight total next total' cutoff := by
  induction rounds generalizing total next with
  | zero => simp [sumOutward] at h
  | succ rounds ih =>
    rw [sumOutward] at h
    split at h
    · rename_i gone
      simp only [Option.some.injEq, Prod.mk.injEq] at h
      obtain ⟨rfl, rfl⟩ := h
      exact .stop gone
    · rename_i stays
      exact .round (Bool.not_eq_true _ ▸ stays) (ih h)

theorem sumOutward_lt {rounds : ℕ}
    (h : sumOutward vanishes weight rounds total next = some (total', cutoff)) :
    cutoff < next + rounds := by
  induction rounds generalizing total next with
  | zero => simp [sumOutward] at h
  | succ rounds ih =>
    rw [sumOutward] at h
    split at h
    · simp only [Option.some.injEq, Prod.mk.injEq] at h
      omega
    · have := ih h
      omega

/-- **`exists_sumOutward_iff`**: some number of rounds is enough for the sum exactly if it ends. -/
theorem exists_sumOutward_iff :
    (∃ rounds, sumOutward vanishes weight rounds total next = some (total', cutoff)) ↔
      Outward vanishes weight total next total' cutoff := by
  constructor
  · rintro ⟨rounds, ended⟩
    exact outward_of_sumOutward ended
  · intro outward
    induction outward with
    | stop gone => exact ⟨1, by simp [sumOutward, gone]⟩
    | round stays rest ih =>
      obtain ⟨rounds, ended⟩ := ih
      exact ⟨rounds + 1, by simpa [sumOutward, stays] using ended⟩

theorem Outward.unique (outward : Outward vanishes weight total next total' cutoff)
    (other : Outward vanishes weight total next total'' cutoff') :
    total' = total'' ∧ cutoff = cutoff' := by
  induction outward with
  | stop gone =>
    cases other with
    | stop => exact ⟨rfl, rfl⟩
    | round stays => simp [gone] at stays
  | round stays rest ih =>
    cases other with
    | stop gone => simp [gone] at stays
    | round stays' rest' => exact ih rest'

/-- A sum ends within the rounds up to a pair that vanishes against every total with a property that
all totals up to there have. -/
theorem sumOutward_isSome (Good : S → ℕ → Prop) (last : ℕ)
    (keeps : ∀ total next, Good total next → next < last →
      Good (total + (weight next + weight next)) (next + 1))
    (gone : ∀ total, Good total last → vanishes (weight last + weight last) total = true)
    {rounds : ℕ} (enough : last < next + rounds) (good : Good total next) (before : next ≤ last) :
    (sumOutward vanishes weight rounds total next).isSome = true := by
  induction rounds generalizing total next with
  | zero => omega
  | succ rounds ih =>
    rw [sumOutward]
    split
    · rfl
    · rename_i stays
      have less : next < last := by
        refine Nat.lt_of_le_of_ne before ?_
        rintro rfl
        exact stays (gone total good)
      exact ih (by omega) (keeps total next good less) less

end

section
variable {S : Type} [Add S] [Sub S] [LT S] {bound : S} {weight : ℕ → S}
variable {tail : S} {next cutoff last : ℕ}

/-- Taking pairs of weights off a tail from `next` on ends at the first integer whose tail is not
above the bound, or at the cutoff. -/
inductive Inward (bound : S) (weight : ℕ → S) (cutoff : ℕ) :
    (tail : S) → (next : ℕ) → (last : ℕ) → Prop where
  | stop {tail : S} {next : ℕ} (done : ¬ (bound < tail ∧ next < cutoff)) :
      Inward bound weight cutoff tail next next
  | round {tail : S} {next last : ℕ} (above : bound < tail) (before : next < cutoff)
      (rest : Inward bound weight cutoff (tail - (weight next + weight next)) (next + 1) last) :
      Inward bound weight cutoff tail next last

theorem firstWithin_le [DecidableLT S] {left : ℕ} :
    firstWithin bound weight left tail next ≤ next + left := by
  induction left generalizing tail next with
  | zero => exact Nat.le_refl _
  | succ left ih =>
    rw [firstWithin]
    split
    · exact Nat.le_trans ih (by omega)
    · omega

theorem inward_firstWithin [DecidableLT S] {left : ℕ} (places : next + left = cutoff) :
    Inward bound weight cutoff tail next (firstWithin bound weight left tail next) := by
  induction left generalizing tail next with
  | zero => exact .stop fun more => by omega
  | succ left ih =>
    rw [firstWithin]
    split
    · rename_i above
      exact .round above (by omega) (ih (by omega))
    · rename_i below
      exact .stop fun more => below more.1

theorem Inward.unique {last' : ℕ} (inward : Inward bound weight cutoff tail next last)
    (other : Inward bound weight cutoff tail next last') : last = last' := by
  induction inward with
  | stop done =>
    cases other with
    | stop => rfl
    | round above before => exact absurd ⟨above, before⟩ done
  | round above before rest ih =>
    cases other with
    | stop done => exact absurd ⟨above, before⟩ done
    | round above' before' rest' => exact ih rest'

/-- **`inward_iff`**: the way inward always ends, in the places up to the cutoff. -/
theorem inward_iff [DecidableLT S] (le : next ≤ cutoff) :
    Inward bound weight cutoff tail next last ↔
      firstWithin bound weight (cutoff - next) tail next = last := by
  have ends : Inward bound weight cutoff tail next
      (firstWithin bound weight (cutoff - next) tail next) := inward_firstWithin (by omega)
  exact ⟨fun inward => ends.unique inward, fun same => same ▸ ends⟩

end

end PrivateQuery.Accuracy
