import Calculator.Startup
import Calculator.Session
import Calculator.Settings.Store
import Calculator.Settings.Datum
import Calculator.Expr.Rendering
import Calculator.Expr.Equality
import Calculator.Window.Event
import Calculator.Proofs.Reading
import Calculator.Proofs.Strictness
import Calculator.Proofs.Concatenation
import Calculator.Proofs.Typing
import Calculator.Proofs.Keys
import Calculator.Proofs.Doubles
import Calculator.Proofs.Nearest
import Calculator.Proofs.NearestDouble
import Calculator.Proofs.DecimalDouble
import Calculator.Proofs.Spelling
import Calculator.Proofs.ShownText
import Calculator.Proofs.ShownNumber
import Calculator.Proofs.ReadBack
import Calculator.Proofs.Outcome
import Calculator.Proofs.Rereading
import Calculator.Proofs.FixedPoint
import Calculator.Proofs.SignOfZero
import Calculator.Proofs.TextFaults
import Calculator.Proofs.Plotting
import Calculator.Proofs.FreshGraph
import Calculator.Proofs.Sequential
import Calculator.Proofs.Holding
import Calculator.Proofs.NestingLimit
import Calculator.Proofs.WrittenText
import Calculator.Proofs.ShortestDecimal
import Calculator.Proofs.ShortestText
import Calculator.Proofs.WrittenNumber
import Calculator.Proofs.WrittenValue
import Calculator.Proofs.KeyedTable
import Calculator.Proofs.StoredValue
import Calculator.Proofs.SettingsTable
import Calculator.Proofs.Saving
import Calculator.Proofs.Confirming
import Calculator.Proofs.Refusals
import Calculator.Proofs.RunLogs
import Calculator.Proofs.TakingOver
import Calculator.Proofs.TextBuffer
import Calculator.Proofs.Drawing
import Calculator.Proofs.Agreement
import Calculator.Proofs.Untouched
import Calculator.Proofs.LiteralValue
import Calculator.Proofs.WellFormed
import Calculator.Proofs.Guards
import Calculator.Proofs.Conversions
import Calculator.Proofs.EntryPoints
import Calculator.Proofs.Paths
import Calculator.Proofs.OpenEvaluations
import Calculator.Proofs.AnswerPieces
import Calculator.Proofs.AnswerValue
import Calculator.Proofs.DeepText
import Calculator.Proofs.ArgumentLists
import Calculator.Proofs.Neighbours
import Calculator.Proofs.TokenOrder
import Calculator.Proofs.Respelling
import Calculator.Proofs.Chains
import Calculator.Proofs.TreeEquality
import Calculator.Proofs.TreeText
import Calculator.Proofs.CanonicalText
import Calculator.Proofs.FloatOrder
import Calculator.Proofs.RoundedArithmetic
import Calculator.Proofs.HalfAway
import Calculator.Proofs.RoundAway
import Calculator.Proofs.SampledDomain
import Calculator.Proofs.ShownValue
import Calculator.Proofs.ShownAccuracy
import Calculator.Proofs.ShownOrder
import Calculator.Proofs.Calls
import Calculator.Proofs.DepthLimit
import Calculator.Proofs.Independence
import Calculator.Proofs.Remainders
import Calculator.Proofs.NearMultiples
import Calculator.Proofs.WholeDegrees
import Calculator.Proofs.Progress
