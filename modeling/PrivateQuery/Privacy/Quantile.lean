import PrivateQuery.Binary64.Elementary

/-!
# Quantiles of the normal distribution

The value that a standard normal variable stays below with a given probability, by three rational
approximations: one around the median and two in the tails, each a quotient of polynomials of degree
seven.
-/
namespace PrivateQuery.Normal

/-- The value of a polynomial, the coefficient of the highest power first. -/
def polynomial (x : Float) (coefficients : List Float) : Float :=
  coefficients.foldl (fun value c => value * x + c) 0

def centralNum : List Float :=
  [2509.0809287301226727, 33430.575583588128105, 67265.770927008700853, 45921.953931549871457,
    13731.693765509461125, 1971.5909503065514427, 133.14166789178437745, 3.3871328727963666080]

def centralDen : List Float :=
  [5226.4952788528545610, 28729.085735721942674, 39307.895800092710610, 21213.794301586595867,
    5394.1960214247511077, 687.18700749205790830, 42.313330701600911252, 1.0]

def middleNum : List Float :=
  [0.00077454501427834140764, 0.022723844989269184583, 0.24178072517745061177,
    1.27045825245236838258, 3.64784832476320460504, 5.76949722146069140550, 4.63033784615654529590,
    1.42343711074968357734]

def middleDen : List Float :=
  [1.0507500716444168432e-9, 0.00054759380849953447940, 0.015198666563616457197,
    0.14810397642748007459, 0.68976733498510000455, 1.67638483018380384940, 2.05319162663775882187,
    1.0]

def farNum : List Float :=
  [2.01033439929228813265e-7, 2.71155556874348757815e-5, 0.0012426609473880784386,
    0.026532189526576123093, 0.29656057182850489123, 1.7848265399172913358, 5.4637849111641143699,
    6.6579046435011037772]

def farDen : List Float :=
  [2.04426310338993978564e-15, 1.4215117583164458887e-7, 1.8463183175100546818e-5,
    0.00078686913114561325909, 0.014875361290850615025, 0.13692988092273580531,
    0.59983220655588793769, 1.0]

/-- The distance from the median of the quantile whose smaller tail is `tail`. -/
def tailDistance (tail : Float) : Float :=
  let r := (-Binary64.ln tail).sqrt
  if r ≤ 5 then
    let s := r - 1.6
    polynomial s middleNum / polynomial s middleDen
  else
    let s := r - 5
    polynomial s farNum / polynomial s farDen

/-- The value that a standard normal variable stays below with probability `p`. -/
def quantile (p : Float) : Float :=
  let q := p - 0.5
  if p ≤ 0 then -Binary64.infinity
  else if 1 ≤ p then Binary64.infinity
  else if q.abs ≤ 0.425 then
    let r := 0.180625 - q * q
    q * polynomial r centralNum / polynomial r centralDen
  else if q < 0 then -tailDistance p
  else tailDistance (1 - p)

end PrivateQuery.Normal
