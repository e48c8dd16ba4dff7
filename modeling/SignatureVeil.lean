import SignatureVeil.Settings.TextReader
import SignatureVeil.Storage.Step
import SignatureVeil.Editor.Registration
import SignatureVeil.Session.DebouncerTrial
import SignatureVeil.Session.Step
import SignatureVeil.Proofs.Text.Places
import SignatureVeil.Proofs.Signature.Occurrence
import SignatureVeil.Proofs.Signature.Pattern
import SignatureVeil.Proofs.Signature.Scan
import SignatureVeil.Proofs.Text.Lines
import SignatureVeil.Proofs.Signature.LineAutomaton
import SignatureVeil.Proofs.Position.Boundaries
import SignatureVeil.Proofs.Position.Bisection
import SignatureVeil.Proofs.Position.Locating
import SignatureVeil.Proofs.Session.Disturbance
import SignatureVeil.Proofs.Session.Redrawing
import SignatureVeil.Proofs.Session.NoEditLost
import SignatureVeil.Proofs.Coordinator.Lifetime
import SignatureVeil.Proofs.Coordinator.Selections
import SignatureVeil.Proofs.Session.Debouncing
import SignatureVeil.Proofs.Workspace.Calm
import SignatureVeil.Proofs.Session.Timeline
import SignatureVeil.Proofs.Session.QuietPeriod
import SignatureVeil.Proofs.Storage.Files
import SignatureVeil.Proofs.Storage.Paths
import SignatureVeil.Proofs.Storage.Loading
import SignatureVeil.Proofs.Coordinator.Painting
import SignatureVeil.Proofs.Signature.LineBreaks
import SignatureVeil.Proofs.Coordinator.Restyling
import SignatureVeil.Proofs.Coordinator.Course
import SignatureVeil.Proofs.Binary.Values
import SignatureVeil.Proofs.Binary.Rounding
import SignatureVeil.Proofs.Binary.Nearest
import SignatureVeil.Proofs.Binary.ShortestDecimal
import SignatureVeil.Proofs.Binary.DecimalScaling
import SignatureVeil.Proofs.Text.Spelling
import SignatureVeil.Proofs.Json.NumberText
import SignatureVeil.Proofs.Json.Numbers
import SignatureVeil.Proofs.Json.Strings
import SignatureVeil.Proofs.Json.Trees
import SignatureVeil.Proofs.Json.RoundTrip
import SignatureVeil.Proofs.Json.Skimming
import SignatureVeil.Proofs.Json.Entries
import SignatureVeil.Proofs.Json.SingleNumbers
import SignatureVeil.Proofs.Binary.Widening
import SignatureVeil.Proofs.Binary.Bracketing
import SignatureVeil.Proofs.Binary.ClearMiddles
import SignatureVeil.Proofs.Binary.Ties
import SignatureVeil.Proofs.Binary.ExactScaling
import SignatureVeil.Proofs.Binary.GridPoints
import SignatureVeil.Proofs.Binary.NarrowReading
import SignatureVeil.Proofs.Settings.ValueForm
import SignatureVeil.Proofs.Settings.DirectForm
import SignatureVeil.Proofs.Settings.Agreement
import SignatureVeil.Proofs.Storage.Persistence
import SignatureVeil.Proofs.Storage.Replacing
import SignatureVeil.Proofs.Signature.Composition
import SignatureVeil.Proofs.Coordinator.Watching
import SignatureVeil.Proofs.Coordinator.Gates
import SignatureVeil.Proofs.Workspace.Carrying
import SignatureVeil.Proofs.Workspace.Holdings
import SignatureVeil.Proofs.Coordinator.Possessions
import SignatureVeil.Proofs.Coordinator.Consumption
import SignatureVeil.Proofs.Coordinator.Aftermath
import SignatureVeil.Proofs.Session.Consuming
import SignatureVeil.Proofs.Coordinator.Interruption
import SignatureVeil.Proofs.Coordinator.Teardown
import SignatureVeil.Proofs.Signature.FoldTargets
import SignatureVeil.Proofs.Json.Prolonging
import SignatureVeil.Proofs.Storage.TornWrites
import SignatureVeil.Proofs.Workspace.Deliveries
import SignatureVeil.Proofs.Coordinator.Turns
import SignatureVeil.Proofs.Session.ServingInOrder
import SignatureVeil.Proofs.Workspace.Resemblance
import SignatureVeil.Proofs.Coordinator.Decorating
import SignatureVeil.Proofs.Session.FoldingApart
import SignatureVeil.Proofs.Signature.ReadingOrder
import SignatureVeil.Proofs.Signature.ClosingLines
import SignatureVeil.Proofs.Signature.Indentation
import SignatureVeil.Proofs.Workspace.Standing
import SignatureVeil.Proofs.Coordinator.Hiding
import SignatureVeil.Proofs.Coordinator.Rehiding
import SignatureVeil.Proofs.Editor.Releases
import SignatureVeil.Proofs.Settings.NamesAndPlaces
import SignatureVeil.Proofs.Settings.UnitOpacity
import SignatureVeil.Proofs.Coordinator.StyleOpacities
import SignatureVeil.Proofs.Binary.TwiceRounded
import SignatureVeil.Proofs.Json.LeadingDigits
import SignatureVeil.Proofs.Json.NumberLiterals
import SignatureVeil.Proofs.Settings.QuotedOpacity
