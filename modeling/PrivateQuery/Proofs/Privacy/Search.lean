import PrivateQuery.Privacy.Library
import PrivateQuery.Proofs.Privacy.Positions

/-!
# The search for a scale

Whatever makes the search stop, the scale that it returns has been accepted (`search_accepted`): the
upper end of its interval is accepted from the first scale that raising finds, through every halving
and every bisection (`Covered`), and the search returns that end or a scale it has just tested. When
every test returns, so does the search (`search_returns`).
-/
namespace PrivateQuery

namespace Calibration

open Position

/-! ## What is returned has been accepted -/

section
variable {S ε : Type} [Scalar S] {e : Failure S → ε} {test : S → Except ε Bool} {tolerance : S}
  {accepted : Bool} {p q : Position S}

/-- The upper end of an interval has been accepted. -/
inductive Covered (test : S → Except ε Bool) : Position S → Prop where
  | raising {steps : Nat} {scale : S} : Covered test (.raising steps scale)
  | lowering {steps : Nat} {upper next : S} (covered : test upper = .ok true) :
      Covered test (.lowering steps upper next)
  | bisecting {steps : Nat} {upper lower : S} (covered : test upper = .ok true) :
      Covered test (.bisecting steps upper lower)

/-- An answer leaves an interval whose upper end has been accepted. -/
theorem Covered.interval {steps : Nat} {upper lower : S} (known : Covered test p)
    (answer : test p.scale = .ok accepted) (brackets : Brackets accepted p steps upper lower) :
    test upper = .ok true := by
  cases brackets with
  | lowered => exact answer
  | found =>
    cases known with
    | lowering covered => exact covered
  | lifted =>
    cases known with
    | bisecting covered => exact covered

theorem Covered.onward (known : Covered test p) (answer : test p.scale = .ok accepted)
    (onward : Onward tolerance accepted p (.inl q)) : Covered test q := by
  cases onward with
  | turned => exact .lowering answer
  | doubled finite => exact .raising
  | halved positive => exact .lowering answer
  | bisected brackets wide => exact .bisecting (known.interval answer brackets)

/-- **`search_accepted`**: a scale that the search returns has been accepted, also when the search
stops because its steps are used up. -/
theorem search_accepted {steps : Nat} {s : S}
    (h : search (m := Except ε) (fun failure => .error (e failure)) test tolerance steps = .ok s) :
    test s = .ok true := by
  by_cases positive : 0 < tolerance
  · have start : Covered test (.raising steps 1) := .raising
    obtain ⟨last, ended, known, final, same⟩ := search_last e
      (fun known answer onward => Covered.onward known answer onward) start positive
    rw [same] at h
    cases final with
    | failed refused => exact nomatch h
    | ended answer onward =>
      cases onward with
      | outOfRange infinite => exact nomatch h
      | outOfSteps => exact nomatch h
      | zero nonpos => exact Except.ok.inj h ▸ answer
      | exhausted => exact Except.ok.inj h ▸ answer
      | cut brackets wide => exact Except.ok.inj h ▸ known.interval answer brackets
      | narrow brackets near => exact Except.ok.inj h ▸ known.interval answer brackets
  · rw [search_of_not_pos positive] at h
    exact nomatch h

end

/-! ## The search returns -/

theorem search_returns {S ε : Type} [Scalar S] {e : Failure S → ε} {test : S → Attempt ε Bool}
    (tests : ∀ s, (test s).Returns) (tolerance : S) (steps : Nat) :
    Attempt.Returns (search (m := Except (Fault ε)) (fun failure => .error (.raised (e failure))) test
      tolerance steps) := by
  have raises (failure : Failure S) : Attempt.Returns (.error (.raised (e failure)) : Attempt ε S) :=
    Attempt.returns_ofExcept (.error (e failure))
  by_cases positive : 0 < tolerance
  · obtain ⟨last, ended, -, final, same⟩ := search_last (fun failure => Fault.raised (e failure))
      (I := fun _ => True) (fun {p q accepted} _ (_ : test p.scale = _) _ => trivial)
      (trivial : (fun _ => True) (Position.raising steps 1)) positive
    have returned : Attempt.Returns ended := by
      cases final with
      | failed refused =>
        obtain ⟨error, rfl⟩ := (tests last.scale).raised refused
        exact Attempt.returns_ofExcept (.error error)
      | ended answer onward => exact Attempt.returns_ok _
    rw [same]
    refine returned.bind fun ending _ => ?_
    cases ending with
    | failed failure => exact raises failure
    | narrow scale => exact Attempt.returns_ok scale
    | zero scale => exact Attempt.returns_ok scale
    | exhausted scale => exact Attempt.returns_ok scale
  · rw [search_of_not_pos positive]
    exact raises _

end Calibration

/-! ## Libraries -/

namespace Library

/-- A library that answers every call, if only with an error: adding noise does, and so does
calibrating whenever all measurements it may ask for do. -/
structure Returns (library : Library) : Prop where
  addNoise : ∀ t mechanism discrete scale, (library.addNoise t mechanism discrete scale).Returns
  calibrate : ∀ measurementAt rows target, (∀ scale, (measurementAt scale).Returns) →
    (library.calibrate measurementAt rows target).Returns

/-- The library of this project answers every call. -/
theorem standard_returns (parameters : Parameters) : (standard parameters).Returns where
  addNoise _ _ _ _ := Attempt.returns_ofExcept _
  calibrate measurementAt rows target returns := by
    have tests (scale : Float) : (accepts measurementAt rows target scale).Returns := by
      refine (returns scale).bind fun measurement _ => ?_
      exact (Attempt.returns_ofExcept _).bind fun loss _ => Attempt.returns_ofExcept _
    exact Calibration.search_returns tests _ _

end Library

end PrivateQuery
