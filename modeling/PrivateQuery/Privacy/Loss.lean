import PrivateQuery.Binary64.Elementary
import PrivateQuery.Query.Budget

/-!
# Privacy loss: `PrivacyLoss` and `cdp_epsilon`

How much privacy a release costs, in the measure that belongs to its noise. A zero-concentrated loss
implies an approximate one for every `δ`.
-/
namespace PrivateQuery

inductive Loss where
  /-- `ε` of pure differential privacy. -/
  | pure (epsilon : Float)
  /-- `ρ` of zero-concentrated differential privacy. -/
  | concentrated (rho : Float)
  /-- `ε` and `δ` of approximate differential privacy. -/
  | approximate (epsilon delta : Float)
deriving DecidableEq

namespace Loss

def toString : Loss → String
  | pure epsilon => "ε = " ++ Decimal.plain epsilon
  | concentrated rho => "ρ = " ++ Decimal.plain rho
  | approximate epsilon delta =>
    "(ε = " ++ Decimal.plain epsilon ++ ", δ = " ++ Decimal.plain delta ++ ")"

instance : ToString Loss := ⟨Loss.toString⟩

/-- The `ε` that a zero-concentrated loss implies for a `δ` (`cdp_epsilon`). -/
def epsilonOf (rho delta : Float) : Float :=
  if rho == 0 then 0
  else if delta ≤ 0 then Binary64.infinity
  else rho + 2 * (rho * Binary64.ln (1 / delta)).sqrt

/-- Whether a loss is covered by another, where the two can be compared. -/
def within? : (loss target : Loss) → Option Bool
  | pure e, pure most => some (e ≤ most)
  | pure e, approximate most _ => some (e ≤ most)
  | concentrated r, concentrated most => some (r ≤ most)
  | approximate e d, approximate most mostDelta => some (e ≤ most && d ≤ mostDelta)
  | _, _ => none

end Loss

end PrivateQuery
