import PrivateQuery.Query.Error

/-!
# Compatibility

Which mechanisms may spend which budgets under which notion of privacy.
-/
namespace PrivateQuery

/-- Refuse a budget that is out of range, a `delta` that the notion or the mechanism cannot spend,
and Gaussian noise without one (`check_compatibility`). The first fault counts. -/
def checkCompatibility (budget : Budget) (notion : Notion) (mechanism : Mechanism) :
    Except CompatibilityError Unit :=
  let epsilon := budget.epsilon
  let delta := budget.delta
  if ¬ (epsilon.isFinite ∧ 0 < epsilon) then .error (.epsilon epsilon)
  else if ¬ (0 ≤ delta ∧ delta < 1) then .error (.delta delta)
  else if notion = .pureDP ∧ 0 < delta then .error (.pureWithDelta delta)
  else if mechanism = .laplace ∧ 0 < delta then .error (.laplaceWithDelta delta)
  else if mechanism = .gaussian ∧ delta == 0 then .error .gaussianWithoutDelta
  else if notion = .pureDP ∧ mechanism = .gaussian then .error .gaussianNotPure
  else .ok ()

end PrivateQuery
