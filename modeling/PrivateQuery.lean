import PrivateQuery.Aggregate.Transformation
import PrivateQuery.Binary64.Elementary
import PrivateQuery.Binary64.Exact
import PrivateQuery.Binary64.Integral
import PrivateQuery.Decimal.Digits
import PrivateQuery.Decimal.Layout
import PrivateQuery.Decimal.Reading
import PrivateQuery.Dictionary
import PrivateQuery.Fault
import PrivateQuery.Frame.Basic
import PrivateQuery.Frame.Csv
import PrivateQuery.Json.Decoding
import PrivateQuery.Json.Reader
import PrivateQuery.Json.Tree
import PrivateQuery.Json.Writer
import PrivateQuery.Machine.Event
import PrivateQuery.Machine.Run
import PrivateQuery.Machine.Transition
import PrivateQuery.Noise.Generator
import PrivateQuery.Noise.Normal
import PrivateQuery.Noise.Perturbation
import PrivateQuery.Noise.Sampler
import PrivateQuery.Pipeline.Assembly
import PrivateQuery.Pipeline.Basic
import PrivateQuery.Pipeline.Release
import PrivateQuery.Predicate.Basic
import PrivateQuery.Predicate.Binding
import PrivateQuery.Predicate.Construct.Call
import PrivateQuery.Predicate.Construct.Interval
import PrivateQuery.Predicate.Construct.Parts
import PrivateQuery.Predicate.Construct.Query
import PrivateQuery.Predicate.Construct.Special
import PrivateQuery.Predicate.Construct.Table
import PrivateQuery.Predicate.Grammar
import PrivateQuery.Predicate.Keyword
import PrivateQuery.Predicate.Lexer
import PrivateQuery.Predicate.Operator
import PrivateQuery.Predicate.Phrase
import PrivateQuery.Predicate.Quotation
import PrivateQuery.Predicate.Reader
import PrivateQuery.Predicate.Token
import PrivateQuery.Predicate.TypeName
import PrivateQuery.Privacy.Accuracy
import PrivateQuery.Privacy.Calibration
import PrivateQuery.Privacy.Error
import PrivateQuery.Privacy.Library
import PrivateQuery.Privacy.Loss
import PrivateQuery.Privacy.Measurement
import PrivateQuery.Privacy.Noise
import PrivateQuery.Privacy.Quantile
import PrivateQuery.Query.Budget
import PrivateQuery.Query.Compatibility
import PrivateQuery.Query.Error
import PrivateQuery.Query.Parameters
import PrivateQuery.Query.RawStep
import PrivateQuery.Query.Request
import PrivateQuery.Query.Stage
import PrivateQuery.Query.Step
import PrivateQuery.Schema.Basic
import PrivateQuery.Schema.Column
import PrivateQuery.Schema.Wire
import PrivateQuery.Service.Basic
import PrivateQuery.Service.Cache
import PrivateQuery.Service.Direct
import PrivateQuery.Text.Blank
import PrivateQuery.Text.Letter
import PrivateQuery.Value.Basic
import PrivateQuery.Value.Order
import PrivateQuery.Value.Wire
import PrivateQuery.Word.Signed
import PrivateQuery.Proofs.Aggregate.Contribution
import PrivateQuery.Proofs.Aggregate.Counting
import PrivateQuery.Proofs.Aggregate.Saturation
import PrivateQuery.Proofs.Aggregate.Sensitivity
import PrivateQuery.Proofs.Binary64.Arithmetic
import PrivateQuery.Proofs.Binary64.Complement
import PrivateQuery.Proofs.Binary64.Exponential
import PrivateQuery.Proofs.Binary64.Grid
import PrivateQuery.Proofs.Binary64.Integers
import PrivateQuery.Proofs.Binary64.Integral
import PrivateQuery.Proofs.Binary64.Logarithm
import PrivateQuery.Proofs.Binary64.Naturals
import PrivateQuery.Proofs.Binary64.Nearest
import PrivateQuery.Proofs.Binary64.Order
import PrivateQuery.Proofs.Binary64.Reading
import PrivateQuery.Proofs.Binary64.Rounding
import PrivateQuery.Proofs.Binary64.Special
import PrivateQuery.Proofs.Binary64.Squares
import PrivateQuery.Proofs.Decimal.Neighbourhoods
import PrivateQuery.Proofs.Decimal.Numerals
import PrivateQuery.Proofs.Decimal.Plain
import PrivateQuery.Proofs.Decimal.Shortest
import PrivateQuery.Proofs.Frame.Csv
import PrivateQuery.Proofs.Frame.Filters
import PrivateQuery.Proofs.Frame.Lockstep
import PrivateQuery.Proofs.Frame.Operations
import PrivateQuery.Proofs.Frame.Origin
import PrivateQuery.Proofs.Frame.Reading
import PrivateQuery.Proofs.Frame.Rowwise
import PrivateQuery.Proofs.Json.Documents
import PrivateQuery.Proofs.Json.Scalars
import PrivateQuery.Proofs.Machine.Failures
import PrivateQuery.Proofs.Machine.Moves
import PrivateQuery.Proofs.Machine.Reachable
import PrivateQuery.Proofs.Machine.Runs
import PrivateQuery.Proofs.Machine.Shape
import PrivateQuery.Proofs.Noise.Acceptance
import PrivateQuery.Proofs.Noise.Attempts
import PrivateQuery.Proofs.Noise.Drawing
import PrivateQuery.Proofs.Noise.Faults
import PrivateQuery.Proofs.Noise.Vector
import PrivateQuery.Proofs.Outcome
import PrivateQuery.Proofs.Pipeline.Accuracy
import PrivateQuery.Proofs.Pipeline.Affordability
import PrivateQuery.Proofs.Pipeline.Agreement
import PrivateQuery.Proofs.Pipeline.Categories
import PrivateQuery.Proofs.Pipeline.Commuting
import PrivateQuery.Proofs.Pipeline.Confidence
import PrivateQuery.Proofs.Pipeline.Construction
import PrivateQuery.Proofs.Pipeline.Counts
import PrivateQuery.Proofs.Pipeline.Evaluation
import PrivateQuery.Proofs.Pipeline.Histograms
import PrivateQuery.Proofs.Pipeline.Independence
import PrivateQuery.Proofs.Pipeline.Influence
import PrivateQuery.Proofs.Pipeline.Label
import PrivateQuery.Proofs.Pipeline.Lockstep
import PrivateQuery.Proofs.Pipeline.Measure
import PrivateQuery.Proofs.Pipeline.NewNames
import PrivateQuery.Proofs.Pipeline.Phases
import PrivateQuery.Proofs.Pipeline.Relabelling
import PrivateQuery.Proofs.Pipeline.Rendering
import PrivateQuery.Proofs.Pipeline.Sampling
import PrivateQuery.Proofs.Pipeline.Scales
import PrivateQuery.Proofs.Pipeline.Sensitivity
import PrivateQuery.Proofs.Predicate.Columns
import PrivateQuery.Proofs.Predicate.Display
import PrivateQuery.Proofs.Predicate.Integers
import PrivateQuery.Proofs.Predicate.Membership
import PrivateQuery.Proofs.Predicate.Operands
import PrivateQuery.Proofs.Predicate.Reading
import PrivateQuery.Proofs.Predicate.Scanning
import PrivateQuery.Proofs.Predicate.Signs
import PrivateQuery.Proofs.Predicate.Trees
import PrivateQuery.Proofs.Predicate.Truth
import PrivateQuery.Proofs.Predicate.Unsigned
import PrivateQuery.Proofs.Privacy.Affordability
import PrivateQuery.Proofs.Privacy.Bounds
import PrivateQuery.Proofs.Privacy.Budget
import PrivateQuery.Proofs.Privacy.Cost
import PrivateQuery.Proofs.Privacy.FiniteBounds
import PrivateQuery.Proofs.Privacy.Least
import PrivateQuery.Proofs.Privacy.Positions
import PrivateQuery.Proofs.Privacy.Quantile
import PrivateQuery.Proofs.Privacy.Reach
import PrivateQuery.Proofs.Privacy.Scale
import PrivateQuery.Proofs.Privacy.Search
import PrivateQuery.Proofs.Privacy.Tail
import PrivateQuery.Proofs.Privacy.Tightness
import PrivateQuery.Proofs.Privacy.Vanishing
import PrivateQuery.Proofs.Query.RawStep
import PrivateQuery.Proofs.Query.Request
import PrivateQuery.Proofs.Query.Wire
import PrivateQuery.Proofs.Schema.Cells
import PrivateQuery.Proofs.Schema.Descent
import PrivateQuery.Proofs.Service.Cache
import PrivateQuery.Proofs.Service.Direct
import PrivateQuery.Proofs.Service.FailedFetch
import PrivateQuery.Proofs.Service.Validation
import PrivateQuery.Proofs.Value.Comparison
import PrivateQuery.Proofs.Value.Fingerprint
import PrivateQuery.Proofs.Value.Identity
