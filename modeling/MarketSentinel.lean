import MarketSentinel.Lib.Dict
import MarketSentinel.Lib.Machine
import MarketSentinel.Lib.Json
import MarketSentinel.Domain.Model
import MarketSentinel.Events.Rules
import MarketSentinel.Signals.Cluster
import MarketSentinel.Signals.Copy
import MarketSentinel.Signals.Composer
import MarketSentinel.Signals.ComposerSpec
import MarketSentinel.Signals.Gates
import MarketSentinel.Telemetry.Contract
import MarketSentinel.Signals.Pipeline
import MarketSentinel.Signals.Identity
import MarketSentinel.Signals.Turn
import MarketSentinel.Signals.Runs
import MarketSentinel.Signals.OwnTick
import MarketSentinel.Signals.LineageTurn
import MarketSentinel.Signals.Membership
import MarketSentinel.Signals.Retention
import MarketSentinel.Signals.View
import MarketSentinel.Signals.Isolation
import MarketSentinel.Signals.Episodes
import MarketSentinel.Signals.Renaming
import MarketSentinel.Signals.Determinism
import MarketSentinel.Telemetry.Notes
import MarketSentinel.Telemetry.Funnel
import MarketSentinel.Evaluation.Aggregate
import MarketSentinel.Tuning.Compare
import MarketSentinel.Tuning.Feedback
import MarketSentinel.Tuning.Store
import MarketSentinel.Intelligence.Quiescence
import MarketSentinel.Intelligence.Parse
import MarketSentinel.Runtime.CallBudget
import MarketSentinel.Runtime.Unaffected
import MarketSentinel.Runtime.SessionStart
import MarketSentinel.Ipc.Push
import MarketSentinel.Lib.Bisect
import MarketSentinel.Lib.Renaming
import MarketSentinel.Telemetry.Rotation
import MarketSentinel.Telemetry.MarketTime
import MarketSentinel.MarketData.Denotation
import MarketSentinel.Evaluation.Totality
import MarketSentinel.Lib.OrderFree
import MarketSentinel.Evaluation.Additive
import MarketSentinel.Extension.ClientRuns
import MarketSentinel.Extension.CoreMessages
import MarketSentinel.Extension.WatchlistSync
import MarketSentinel.Extension.OneCore
import MarketSentinel.Extension.AutoRestart
import MarketSentinel.Extension.Feedback
import MarketSentinel.Extension.Coherence
import MarketSentinel.Lib.Gate
import MarketSentinel.Signals.GateRuns
import MarketSentinel.Signals.Priority
import MarketSentinel.Signals.Continuity
import MarketSentinel.Signals.Homes
import MarketSentinel.Features.SessionOnly
import MarketSentinel.Runtime.Breakouts
import MarketSentinel.Features.Processable
import MarketSentinel.Extension.Chunks
import MarketSentinel.Features.Minutes
import MarketSentinel.Features.Ranges
import MarketSentinel.Watchlist.Persistence
import MarketSentinel.Intelligence.Outcomes
import MarketSentinel.Intelligence.Lifecycle
import MarketSentinel.Intelligence.Lifetimes
import MarketSentinel.Runtime.Sidecar
import MarketSentinel.Runtime.Attention
import MarketSentinel.Capabilities.Purity
import MarketSentinel.Extension.PauseRespected
import MarketSentinel.Events.RapidMove
import MarketSentinel.Capabilities.Symbols
import MarketSentinel.Runtime.Waits
import MarketSentinel.Health.Monotone
import MarketSentinel.MarketData.SessionOverlap
import MarketSentinel.Extension.Details
import MarketSentinel.Extension.UiLabel
import MarketSentinel.Extension.Conversation
