import PrivateQuery.Predicate.Construct.Parts
import PrivateQuery.Predicate.TypeName

/-!
# Intervals

An amount of time, with the unit it is counted in and the unit it is precise to.
-/
namespace PrivateQuery.Construct

open Reader

/-- The units that an amount may be followed by. -/
def timeUnits : List String :=
  ["YEAR", "MONTH", "WEEK", "DAY", "HOUR", "MINUTE", "SECOND", "CENTURY", "DECADE", "DOW", "DOY",
    "EPOCH", "ISODOW", "ISOYEAR", "JULIAN", "MICROSECOND", "MICROSECONDS", "MILLENIUM",
    "MILLENNIUM", "MILLISECOND", "MILLISECONDS", "NANOSECOND", "NANOSECONDS", "QUARTER", "TIMEZONE",
    "TIMEZONE_HOUR", "TIMEZONE_MINUTE"]

/-- Read a unit of time, which may be any word. Only a week can be told when it begins. -/
def timeUnit : Reader := branch (keyword "WEEK") (clause (symbol "(") (identifier >=> symbol ")"))
  identifier

/-- Read an interval, after its keyword. Seconds take the precision of their fraction along and
end the interval. -/
def interval (p : Parts) : Reader := p.amount >=> fun ts =>
  if startsWith ["SECOND"] ts then (timeUnit >=> TypeName.scale) ts
  else
    let unit : Reader := if startsWith timeUnits ts then timeUnit else nothing
    let last : Reader := branch (keyword "SECOND") TypeName.precision timeUnit
    (unit >=> TypeName.precision >=> clause (keyword "TO") last) ts

end PrivateQuery.Construct
