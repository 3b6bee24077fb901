import PrivateQuery.Privacy.Measurement
import PrivateQuery.Query.Stage
import PrivateQuery.Schema.Basic

/-!
# Errors of queries

Why a query is refused or cannot be answered, by kind. Only the last kind, failures of what a query
is run on, may be different another time.
-/
namespace PrivateQuery

/-- The query is not given in the right form. -/
inductive FormError where
  | malformed
  | noOperation
  | severalOperations (names : List String)
  | binColumns (count : Nat)
  | noMeasuredColumn
  | noMechanism
  | confidence (x : Float)
  | schema (error : SchemaError)
deriving DecidableEq

/-- The steps do not fit the stage, the schema or each other. -/
inductive OrderError where
  | notAllowed (operation : String) (stage : Stage)
  | secondBin
  | sumAfterBin
  | notTheBinned (column binned : String)
  | noiseNotDue (stage : Stage)
  | unfinished (stage : Stage)
  | noMeasure
  | noNoise
  | schema (error : SchemaError)
  | predicate (error : PredicateError)
  | columnOfFilter (predicate : Predicate) (column : String) (schema : Schema)

/-- The values or the column of a step have the wrong type. -/
inductive TypingError where
  | repeatedBins (column : String)
  | tooFewBins (column : String)
  | integerBin (column : String) (value : Value)
  | unorderedBins (column : String)
  | booleanBins (column : String)
  | textBins (column : String) (type : ColumnType)
  | notNumeric (column : String) (type : ColumnType)
  | noIntegerBounds (bin : Bin)
deriving DecidableEq

/-- The query is meaningful and not supported. -/
inductive ScopeError where
  | operation (name : String)
  | doubleBins (column : String)
  | tooManyCategories (column : String) (count : Int) (most : Nat)
  | sumScale (column : String) (bound : Float) (budget : Budget)
  | doubleHistogram (column : String)
deriving DecidableEq

/-- The budget, the notion and the mechanism do not go together. -/
inductive CompatibilityError where
  | epsilon (x : Float)
  | delta (x : Float)
  | pureWithDelta (delta : Float)
  | laplaceWithDelta (delta : Float)
  | gaussianWithoutDelta
  | gaussianNotPure
deriving DecidableEq

/-- What the query is run on fails. -/
inductive ExecutionError where
  | mechanism (error : MechanismError)
  | frame (error : FrameError)
  | categoryCount (counts categories : Nat)
  | aggregate (aggregate : Aggregate) (measurement : Measurement)
  /-- An operation broke down. -/
  | crashed (operation : String)
deriving DecidableEq

inductive QueryError where
  | form (cause : FormError)
  | order (cause : OrderError)
  | typing (cause : TypingError)
  | scope (cause : ScopeError)
  | compatibility (cause : CompatibilityError)
  | execution (cause : ExecutionError)

/-- The largest sum bound over `ε` that is supported; the search for a scale can still bracket it,
with room for the factor of Gaussian noise. -/
def maxSumScale : Float := 1e300

def FormError.message : FormError → String
  | malformed => "the text is not a request"
  | noOperation => "a query step must carry one operation, found none"
  | severalOperations names =>
    "a query step must carry one operation, found " ++ ", ".intercalate names
  | binColumns count => s!"bin expects exactly one column, found {count}"
  | noMeasuredColumn => "measurement expects a column"
  | noMechanism => "measurement expects a mech"
  | confidence x => "confidence must be in (0, 1), got " ++ Decimal.plain x
  | schema error => error.message

def OrderError.message : OrderError → String
  | notAllowed operation stage => operation ++ " is not allowed while " ++ stage.toString
  | secondBin => "only one bin is allowed, it must be followed by a count"
  | sumAfterBin => "a bin must be followed by a count, not a sum"
  | notTheBinned column binned =>
    "count of " ++ column ++ " must be on the binned column " ++ binned
  | noiseNotDue stage => "noise cannot be added while " ++ stage.toString
  | unfinished stage =>
    "query ends while " ++ stage.toString ++ ", a query must end with a noised count or sum"
  | noMeasure => "noise cannot be added before a count or a sum"
  | noNoise => "noise not added"
  | schema error => error.message
  | predicate error => error.message
  | columnOfFilter p column s =>
    "filter " ++ p.toString ++ " refers to column " ++ column ++ " which is not in " ++ s.toString

def TypingError.message : TypingError → String
  | repeatedBins column => "bin values of " ++ column ++ " must be unique"
  | tooFewBins column =>
    "bin of the Int column " ++ column ++ " expects a lower and an upper value"
  | integerBin column value =>
    "bin values of the Int column " ++ column ++ " must be integers, got " ++ value.toString
  | unorderedBins column => "bin values of " ++ column ++ " must be ascending"
  | booleanBins column => "bin values of the Bool column " ++ column ++ " must be booleans"
  | textBins column type =>
    "bin values of the " ++ type.name ++ " column " ++ column ++ " must be strings"
  | notNumeric column type =>
    "column " ++ column ++ " is of type " ++ type.name ++ ", sum requires Int or Double"
  | noIntegerBounds bin => bin.toString ++ " has no integer bounds"

def ScopeError.message : ScopeError → String
  | operation name => name ++ " is not a supported operation"
  | doubleBins column => "binning is not supported for the Double column " ++ column
  | tooManyCategories column count most =>
    s!"bin of {column} spans {count} categories, at most {most} are allowed"
  | sumScale column bound budget =>
    "sum of " ++ column ++ " bounded by " ++ Decimal.plain bound ++ " needs a noise scale beyond "
      ++ Decimal.plain maxSumScale ++ " under " ++ budget.toString
  | doubleHistogram column =>
    "histograms of the Double column " ++ column ++ " are not supported"

def CompatibilityError.message : CompatibilityError → String
  | epsilon x => "epsilon must be positive and finite, got " ++ Decimal.plain x
  | delta x => "delta must be in [0, 1), got " ++ Decimal.plain x
  | pureWithDelta x =>
    "privacy notion is " ++ Notion.toString .pureDP ++ " but delta = " ++ Decimal.plain x
      ++ " is positive"
  | laplaceWithDelta x =>
    Mechanism.toString .laplace ++ " is only defined for delta = 0, got " ++ Decimal.plain x
  | gaussianWithoutDelta => Mechanism.toString .gaussian ++ " is not defined for delta = 0"
  | gaussianNotPure =>
    Mechanism.toString .gaussian ++ " requires " ++ Notion.toString .approxDP

def ExecutionError.message : ExecutionError → String
  | mechanism error => error.message
  | frame error => error.message
  | categoryCount counts categories => s!"{counts} counts returned for {categories} categories"
  | aggregate a m => "unexpected aggregate " ++ a.toString ++ " for " ++ m.toString
  | crashed operation => operation ++ " failed unexpectedly"

namespace QueryError

def kind : QueryError → String
  | form _ => "FormatError"
  | order _ => "SyntaxError"
  | typing _ => "TypeError"
  | scope _ => "UnsupportedError"
  | compatibility _ => "CompatibilityError"
  | execution _ => "UpstreamError"

def message : QueryError → String
  | form cause => cause.message
  | order cause => cause.message
  | typing cause => cause.message
  | scope cause => cause.message
  | compatibility cause => cause.message
  | execution cause => cause.message

def toString (e : QueryError) : String := e.kind ++ ": " ++ e.message

instance : ToString QueryError := ⟨QueryError.toString⟩

/-- Whether the error is of the kind that may not come again. -/
def isRetryable : QueryError → Bool
  | execution _ => true
  | _ => false

/-- The status that tells a caller whether it is at fault. -/
def status (e : QueryError) : Nat := if e.isRetryable then 500 else 400

end QueryError

end PrivateQuery
