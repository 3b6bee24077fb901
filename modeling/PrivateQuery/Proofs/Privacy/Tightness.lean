import Mathlib.Algebra.Order.Field.Basic
import Mathlib.Algebra.Order.Field.Rat
import Mathlib.Tactic.Linarith
import PrivateQuery.Proofs.Privacy.Positions
import PrivateQuery.Proofs.Privacy.Search

/-!
# What the search has tested

The answers of a search that hold for every test, monotone or not: the scale that it returns is
accepted, and an error of the test is handed on. Over the rationals a search that does not run out
of steps has also been refused a scale that is near below the one it returns (`refused_near`),
because the lower end of its interval is one that it has tested (`Bracketed`). Binary64 does not
promise the last part, since a product and a difference there are rounded.
-/
namespace PrivateQuery

/-- Exact arithmetic, where nothing overflows. -/
instance Scalar.instRat : Scalar ℚ where
  half x := x / 2
  isFinite _ := true
  decidableLT := inferInstance

namespace Calibration

open Position

variable {S ε : Type} [Scalar S]

/-! ## Errors of the test -/

/-- The test answers at every scale of a record. -/
def Answered (test : S → Except ε Bool) (asked : List S) : Prop :=
  ∀ scale ∈ asked, ∃ accepted, test scale = .ok accepted

omit [Scalar S] in
theorem Answered.append {test : S → Except ε Bool} {asked : List S} {scale : S} {accepted : Bool}
    (before : Answered test asked) (answer : test scale = .ok accepted) :
    Answered test (asked ++ [scale]) := by
  intro s member
  obtain member | member := List.mem_append.1 member
  · exact before s member
  · exact ⟨accepted, List.mem_singleton.1 member ▸ answer⟩

/-- **`search_of_error`**: an error of the test at any scale is the answer of the search. -/
theorem search_of_error {e : Failure S → ε} {test : S → Except ε Bool} {tolerance scale : S}
    {steps : Nat} {error : ε} (tested : scale ∈ (trace e (fun _ => test) tolerance steps).2)
    (answer : test scale = .error error) :
    search (m := Except ε) (fun failure => .error (e failure)) test tolerance steps =
      .error error := by
  rw [← trace_fst]
  by_cases positive : 0 < tolerance
  · rw [trace_eq e _ positive] at tested ⊢
    obtain ⟨before, last, answered, record, final⟩ := visit_last (fun _ => test) tolerance
      (I := fun asked _ => Answered test asked) (fun before answer _ => before.append answer) []
      (.raising steps 1) (by simp [Answered])
    rw [record] at tested
    generalize (visit (fun _ => test) tolerance (.raising steps 1) []).1 = ended at final
    cases final with
    | failed failed =>
      obtain member | member := List.mem_append.1 tested
      · obtain ⟨accepted, answered⟩ := answered scale member
        rw [answer] at answered
        exact nomatch answered
      · rw [← List.mem_singleton.1 member, answer] at failed
        rw [← Except.error.inj failed]
        rfl
    | ended accepted =>
      obtain ⟨accepted, answered⟩ := answered.append accepted scale tested
      rw [answer] at answered
      exact nomatch answered
  · rw [trace_of_not_pos e _ positive] at tested
    exact absurd tested List.not_mem_nil

/-! ## Running out of steps -/

/-- The search returns because no step is left. -/
def Exhausted (test : S → Except ε Bool) (tolerance : S) (steps : Nat) : Prop :=
  ∃ scale, (Position.raising steps 1).run test tolerance = .ok (.exhausted scale)

/-- A search that runs out of steps has tested as often as it can. -/
theorem length_of_exhausted {e : Failure S → ε} {test : S → Except ε Bool} {tolerance : S}
    {steps : Nat} (positive : 0 < tolerance) (exhausted : Exhausted test tolerance steps) :
    (trace e (fun _ => test) tolerance steps).2.length = steps + 2 := by
  obtain ⟨scale, ended⟩ := exhausted
  obtain ⟨before, last, sum, record, final⟩ :=
    visit_room (fun _ => test) tolerance [] (.raising steps 1)
  rw [visit_fst, ended] at final
  have one : last.room = 1 := by
    cases final with
    | ended answer onward =>
      cases onward with
      | exhausted => rfl
      | cut brackets wide => cases brackets <;> rfl
  have whole : (Position.raising steps (1 : S)).room = steps + 2 := rfl
  rw [List.length_nil, one, whole] at sum
  rw [trace_eq e _ positive, record, List.length_append, List.length_singleton]
  omega

/-! ## The interval over the rationals -/

/-- What is known of a position over the rationals: the lower end of an interval has been tested. -/
def Bracketed (test : ℚ → Except ε Bool) (asked : List ℚ) : Position ℚ → Prop
  | .raising _ scale => 0 < scale
  | .lowering _ upper next => 0 < upper ∧ next = Scalar.half upper
  | .bisecting _ upper lower => lower < upper ∧ lower ∈ asked ∧ test lower = .ok false

/-- An answer leaves an interval above a scale that has been tested and refused. -/
theorem Bracketed.interval {test : ℚ → Except ε Bool} {asked : List ℚ} {p : Position ℚ}
    {accepted : Bool} {steps : Nat} {upper lower : ℚ} (known : Bracketed test asked p)
    (answer : test p.scale = .ok accepted) (brackets : Brackets accepted p steps upper lower) :
    lower < upper ∧ lower ∈ asked ++ [p.scale] ∧ test lower = .ok false := by
  cases brackets with
  | found =>
    obtain ⟨positive, rfl⟩ := known
    exact ⟨half_lt_self positive, by simp [scale], answer⟩
  | lowered =>
    obtain ⟨less, tested, refused⟩ := known
    have above : lower < middle _ lower := lt_add_of_pos_right _ (half_pos (sub_pos.2 less))
    exact ⟨above, List.mem_append_left _ tested, refused⟩
  | @lifted _ _ bottom =>
    obtain ⟨less, tested, refused⟩ := known
    have below : middle upper bottom < upper := by
      have part : (upper - bottom) / 2 < upper - bottom := half_lt_self (sub_pos.2 less)
      exact lt_sub_iff_add_lt'.1 part
    exact ⟨below, by simp [scale], answer⟩

theorem Bracketed.onward {test : ℚ → Except ε Bool} {tolerance : ℚ} {asked : List ℚ}
    {p q : Position ℚ} {accepted : Bool} (known : Bracketed test asked p)
    (answer : test p.scale = .ok accepted) (onward : Onward tolerance accepted p (.inl q)) :
    Bracketed test (asked ++ [p.scale]) q := by
  cases onward with
  | turned => exact ⟨known, rfl⟩
  | doubled finite => exact add_pos known known
  | halved positive => exact ⟨positive, rfl⟩
  | bisected brackets wide => exact known.interval answer brackets

/-- **`refused_near`**: a search over the rationals that has not run out of steps has been refused a
scale that is near below the one it returns. -/
theorem refused_near {e : Failure ℚ → ε} {test : ℚ → Except ε Bool} {tolerance s : ℚ} {steps : Nat}
    (found : search (m := Except ε) (fun failure => .error (e failure)) test tolerance steps = .ok s)
    (stopped : ¬ Exhausted test tolerance steps) :
    ∃ l ∈ (trace e (fun _ => test) tolerance steps).2,
      l < s ∧ test l = .ok false ∧ s - l ≤ tolerance * s := by
  by_cases positive : 0 < tolerance
  · obtain ⟨before, last, known, record, final⟩ := visit_last (fun _ => test) tolerance
      (I := Bracketed test) (fun known answer onward => known.onward answer onward) []
      (.raising steps 1) one_pos
    rw [← trace_fst, trace_eq e _ positive] at found
    rw [trace_eq e _ positive, record]
    rw [visit_fst] at final found
    unfold Exhausted at stopped
    generalize (Position.raising steps 1).run test tolerance = ended at final found stopped
    cases final with
    | failed failed => exact nomatch found
    | ended answer onward =>
      cases onward with
      | outOfRange infinite => exact nomatch found
      | outOfSteps => exact nomatch found
      | zero nonpos =>
        obtain ⟨above, rfl⟩ := known
        exact absurd (half_pos above) nonpos
      | exhausted => exact absurd ⟨_, rfl⟩ stopped
      | cut brackets wide => exact absurd ⟨_, rfl⟩ stopped
      | narrow brackets near =>
        obtain rfl := Except.ok.inj found
        obtain ⟨less, tested, refused⟩ := known.interval answer brackets
        exact ⟨_, tested, less, refused, not_lt.1 near⟩
  · rw [← trace_fst, trace_of_not_pos e _ positive] at found
    exact nomatch found

/-- The test accepts every scale above an accepted one. -/
def UpwardClosed (test : ℚ → Except ε Bool) : Prop :=
  ∀ x y, x ≤ y → test x = .ok true → test y = .ok true

/-- **`search_tight`**: a scale that the search returns is accepted, and an error of the test at any
scale that it tries is its answer. Over the rationals, unless it has run out of steps, it has been
refused a scale within the tolerance below the one it returns, so that a test that accepts whatever
is above an accepted scale accepts none at that distance. -/
theorem search_tight :
    (∀ {S : Type} [Scalar S] (e : Failure S → ε) (test : S → Except ε Bool) (tolerance : S)
        (steps : Nat),
      (∀ s, search (m := Except ε) (fun failure => .error (e failure)) test tolerance steps = .ok s →
        test s = .ok true) ∧
      ∀ scale ∈ (trace e (fun _ => test) tolerance steps).2, ∀ error, test scale = .error error →
        search (m := Except ε) (fun failure => .error (e failure)) test tolerance steps =
          .error error) ∧
    ∀ (e : Failure ℚ → ε) (test : ℚ → Except ε Bool) (tolerance : ℚ) (steps : Nat) (s : ℚ),
      search (m := Except ε) (fun failure => .error (e failure)) test tolerance steps = .ok s →
      ¬ Exhausted test tolerance steps →
      (∃ l ∈ (trace e (fun _ => test) tolerance steps).2,
        l < s ∧ test l = .ok false ∧ s - l ≤ tolerance * s) ∧
      (UpwardClosed test → ∀ x ≤ s * (1 - tolerance), test x ≠ .ok true) := by
  refine ⟨fun e test tolerance steps => ⟨fun s found => ?_, fun scale tested error answer => ?_⟩,
    fun e test tolerance steps s found stopped => ?_⟩
  · exact search_accepted found
  · exact search_of_error tested answer
  · obtain ⟨l, tested, less, refused, near⟩ := refused_near found stopped
    refine ⟨⟨l, tested, less, refused, near⟩, fun upward x low accepted => ?_⟩
    have below : x ≤ l := by linarith
    rw [upward x l below accepted] at refused
    exact nomatch refused

/-- The test for the scales from a least one on. -/
def fromOn (least x : ℚ) : Except String Bool :=
  .ok (decide (least ≤ x))

/-- The search for the scales from 37/10 on returns 15/4 and has been refused a scale just below it.
A test that fails above two is asked about four, and that is the end. -/
theorem search_tight_fromOn :
    (∃ l ∈ (trace (fun _ => "no scale") (fun _ => fromOn (37 / 10)) (1 / 16) 20).2,
      l < 15 / 4 ∧ fromOn (37 / 10) l = .ok false ∧ 15 / 4 - l ≤ 1 / 16 * (15 / 4)) ∧
    (∀ x ≤ 15 / 4 * (1 - 1 / 16), fromOn (37 / 10) x ≠ .ok true) ∧
    search (m := Except String) (fun _ => .error "no scale")
      (fun x : ℚ => if x ≤ 2 then .ok false else .error "too large") (1 / 16) 20 =
        .error "too large" := by
  have found : search (m := Except String) (fun _ => .error "no scale") (fromOn (37 / 10))
      (1 / 16) 20 = .ok (15 / 4) := by
    rw [← toOption_eq_some]
    decide +kernel
  have stopped : ¬ Exhausted (fromOn (37 / 10)) (1 / 16) 20 := fun exhausted => by
    have all := length_of_exhausted (e := fun _ => "no scale") (by norm_num) exhausted
    exact absurd all (by decide +kernel)
  have upward : UpwardClosed (fromOn (37 / 10)) := by
    intro x y le accepted
    simp only [fromOn, Except.ok.injEq, decide_eq_true_eq] at accepted ⊢
    exact accepted.trans le
  obtain ⟨near, none_below⟩ :=
    search_tight.2 (fun _ => "no scale") (fromOn (37 / 10)) (1 / 16) 20 (15 / 4) found stopped
  refine ⟨near, none_below upward, ?_⟩
  exact (search_tight.1 (fun _ => "no scale") _ _ _).2 4 (by decide +kernel) _ rfl

end Calibration

end PrivateQuery
