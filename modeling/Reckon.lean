import Reckon.Value.Extract
import Reckon.Operation
import Reckon.Expression.Parser
import Reckon.Expression.Printer
import Reckon.Environment
import Reckon.Resolver
import Reckon.NameSet
import Reckon.Json.Values
import Reckon.Configuration.Json
import Reckon.CacheKey
import Reckon.Function.Registry
import Reckon.Evaluation.Evaluate
import Reckon.Engine
import Reckon.Proofs.Expression.Occurrence
import Reckon.Proofs.Expression.Grouping
import Reckon.Proofs.Evaluation.Rules
import Reckon.Proofs.Evaluation.Coupling
import Reckon.Proofs.Evaluation.Calling
import Reckon.Proofs.Evaluation.Errors
import Reckon.Proofs.Evaluation.Overlooked
import Reckon.Proofs.Evaluation.Pace
import Reckon.Proofs.Evaluation.Alike
import Reckon.Proofs.Evaluation.Invariant
import Reckon.Proofs.Engine.Call
import Reckon.Proofs.Engine.Fresh
import Reckon.Proofs.Engine.Kept
import Reckon.Proofs.Engine.Caching
import Reckon.Proofs.Engine.Keys
import Reckon.Proofs.Evaluation.Extended
import Reckon.Proofs.Engine.Erasure
import Reckon.Proofs.Engine.Silence
import Reckon.Proofs.Engine.Observer
import Reckon.Proofs.Engine.Invocations
import Reckon.Proofs.Evaluation.Calls
import Reckon.Proofs.Evaluation.Scopes
import Reckon.Proofs.Evaluation.UseLimit
import Reckon.Proofs.Evaluation.Spending
import Reckon.Proofs.Evaluation.Descent
import Reckon.Proofs.Evaluation.Mentions
import Reckon.Proofs.Evaluation.UsesLeft
import Reckon.Proofs.Evaluation.Overdue
import Reckon.Proofs.Evaluation.Strictness
import Reckon.Proofs.Evaluation.Filters
import Reckon.Proofs.Expression.Renaming
import Reckon.Proofs.Evaluation.Translation
import Reckon.Proofs.Evaluation.BoundNames
import Reckon.Proofs.Evaluation.Deeper
import Reckon.Proofs.Evaluation.Parentheses
import Reckon.Proofs.Evaluation.Inlining
import Reckon.Proofs.Evaluation.CastCalls
import Reckon.Proofs.Evaluation.DepthLimit
import Reckon.Proofs.Grammar.Reading
import Reckon.Proofs.Grammar.Rules
import Reckon.Proofs.Grammar.Soundness
import Reckon.Proofs.Token.Scanning
import Reckon.Proofs.Grammar.Completeness
import Reckon.Proofs.Grammar.Branches
import Reckon.Proofs.Evaluation.LookUps
import Reckon.Proofs.Grammar.Congruence
import Reckon.Proofs.Grammar.Places
import Reckon.Proofs.Grammar.Nesting
import Reckon.Proofs.Grammar.Recognizer
import Reckon.Proofs.Grammar.Tracking
import Reckon.Proofs.Grammar.TrackedRules
import Reckon.Proofs.Grammar.FirstFault
import Reckon.Proofs.Grammar.Walk
import Reckon.Proofs.Grammar.Following
import Reckon.Proofs.Grammar.WalkedRules
import Reckon.Proofs.Grammar.Safety
import Reckon.Proofs.Binary64.Nearest
import Reckon.Proofs.Binary64.ReadBack
import Reckon.Proofs.Binary64.Literal
import Reckon.Proofs.Binary64.Integers
import Reckon.Proofs.Binary64.Values
import Reckon.Proofs.Binary64.Monotony
import Reckon.Proofs.Binary64.Notation
import Reckon.Proofs.Value.Narrowing
import Reckon.Proofs.Decimal.Integers
import Reckon.Proofs.Decimal.Positive
import Reckon.Proofs.Decimal.Rounding
import Reckon.Proofs.Decimal.Quotients
import Reckon.Proofs.Decimal.Conversion
import Reckon.Proofs.Decimal.Underflow
import Reckon.Proofs.Evaluation.IntegerOperators
import Reckon.Proofs.Evaluation.IntegerArithmetic
import Reckon.Proofs.Evaluation.Comparisons
import Reckon.Proofs.Token.Words
import Reckon.Proofs.Token.Tiling
import Reckon.Proofs.Token.Followed
import Reckon.Proofs.Token.Respacing
import Reckon.Proofs.Token.Gaps
import Reckon.Proofs.Token.Places
import Reckon.Proofs.Format.Phrases
import Reckon.Proofs.Format.Pieces
import Reckon.Proofs.Format.Reprint
import Reckon.Proofs.Format.RoundTrip
import Reckon.Proofs.Format.FloatLiterals
import Reckon.Proofs.Format.Guards
import Reckon.Proofs.Format.Tightness
import Reckon.Proofs.Format.Spelling
import Reckon.Proofs.Format.Wording
import Reckon.Proofs.Format.Chains
import Reckon.Proofs.Format.Layouts
import Reckon.Proofs.Grammar.CastText
import Reckon.Proofs.Engine.Chronicle
import Reckon.Proofs.Engine.Staleness
import Reckon.Proofs.Engine.KeptTrees
import Reckon.Proofs.Engine.Faults
import Reckon.Proofs.Engine.NamedCasts
import Reckon.Proofs.Engine.LookUps
import Reckon.Proofs.Engine.Failures
import Reckon.Proofs.Engine.Nestings
import Reckon.Proofs.Function.Notation
import Reckon.Proofs.Function.Parameters
import Reckon.Proofs.Function.Definitions
import Reckon.Proofs.Function.Calls
import Reckon.Proofs.Engine.KeyContents
import Reckon.Proofs.Expression.Height
import Reckon.Proofs.Grammar.Height
import Reckon.Proofs.Function.Patterns
import Reckon.Proofs.Engine.Reports
import Reckon.Proofs.Json.Flattening
import Reckon.Proofs.Value.ShownText
import Reckon.Proofs.Token.Quotations
import Reckon.Proofs.Environment.Stack
import Reckon.Proofs.Environment.Refinement
import Reckon.Proofs.Json.Scalars
import Reckon.Proofs.Json.Reading
import Reckon.Proofs.Json.Library
import Reckon.Proofs.Configuration.RoundTrip
