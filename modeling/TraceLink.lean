import TraceLink.Attempt
import TraceLink.Config
import TraceLink.Config.Document
import TraceLink.Config.Environment
import TraceLink.Counters
import TraceLink.Diagnostic
import TraceLink.Diagnostic.Directive
import TraceLink.Diagnostic.Filter
import TraceLink.Diagnostic.Line
import TraceLink.Engine
import TraceLink.Entries
import TraceLink.Hop.Carrier
import TraceLink.Hop.Correlation
import TraceLink.Hop.Extension
import TraceLink.Hop.RemoteContext
import TraceLink.Identifier
import TraceLink.Json
import TraceLink.Ledger
import TraceLink.Logged
import TraceLink.OpenSegment
import TraceLink.Reporter
import TraceLink.Sampling
import TraceLink.Scratch
import TraceLink.Segment
import TraceLink.Severity
import TraceLink.Snapshot
import TraceLink.Span
import TraceLink.Strand
import TraceLink.Tag
import TraceLink.Text.Alphanumeric
import TraceLink.Text.Base64
import TraceLink.Text.Blank
import TraceLink.Text.Case
import TraceLink.Text.CaseTable
import TraceLink.Text.CommaList
import TraceLink.Text.Decimal
import TraceLink.Text.Fields
import TraceLink.Text.HiddenTable
import TraceLink.Text.Quoted
import TraceLink.Text.Ranges
import TraceLink.Text.Shortest
import TraceLink.Tracer
import TraceLink.UsageError
import TraceLink.Proofs.CorrelationCodec
import TraceLink.Proofs.HeaderRoundTrip
import TraceLink.Proofs.Effects
import TraceLink.Proofs.Outline
import TraceLink.Proofs.LedgerBooks
import TraceLink.Proofs.Lives
import TraceLink.Proofs.Custody
import TraceLink.Proofs.CustodySteps
import TraceLink.Proofs.LifeSteps
import TraceLink.Proofs.Chronicle
import TraceLink.Proofs.SegmentTrees
import TraceLink.Proofs.Reporting
import TraceLink.Proofs.LetterCase
import TraceLink.Proofs.Transports
import TraceLink.Proofs.Bearings
import TraceLink.Proofs.SoundStrands
import TraceLink.Proofs.EntrySpans
import TraceLink.Proofs.LinkedHops
import TraceLink.Proofs.UsageErrors
import TraceLink.Proofs.IgnoredSegments
import TraceLink.Proofs.IgnoredTraces
import TraceLink.Proofs.PrimarySpans
import TraceLink.Proofs.Endpoints
import TraceLink.Proofs.OwnerViews
import TraceLink.Proofs.OwnerRuns
import TraceLink.Proofs.Contents
import TraceLink.Proofs.OwnerSteps
import TraceLink.Proofs.Interleavings
import TraceLink.Proofs.OutboundCarriers
import TraceLink.Proofs.Turnover
import TraceLink.Proofs.CounterBalance
import TraceLink.Proofs.Kinship
import TraceLink.Proofs.Offers
import TraceLink.Proofs.Descents
import TraceLink.Proofs.FirstContexts
import TraceLink.Proofs.Continuations
import TraceLink.Proofs.StackHeights
import TraceLink.Proofs.FieldForms
import TraceLink.Proofs.LinkGrammar
import TraceLink.Proofs.ClosedSpans
import TraceLink.Proofs.Guises
import TraceLink.Proofs.Namings
import TraceLink.Proofs.Matchings
import TraceLink.Proofs.MatchedTracers
import TraceLink.Proofs.MatchedSites
import TraceLink.Proofs.Workplaces
import TraceLink.Proofs.MatchedWorkplaces
import TraceLink.Proofs.Noninterference
import TraceLink.Proofs.IgnoredSuffixes
import TraceLink.Proofs.RateWindows
import TraceLink.Proofs.OpenFrames
import TraceLink.Proofs.Intervals
import TraceLink.Proofs.LaminarSegments
import TraceLink.Proofs.Closings
import TraceLink.Proofs.ClosingOrder
import TraceLink.Proofs.HeaderLabels
import TraceLink.Proofs.Overwriting
import TraceLink.Proofs.AwaitedReferences
import TraceLink.Proofs.InboundEntries
import TraceLink.Proofs.OwnSnapshots
import TraceLink.Proofs.IdleContinuations
import TraceLink.Proofs.PendingContinuations
import TraceLink.Proofs.RepeatedContinuations
import TraceLink.Proofs.CorrelationLaws
import TraceLink.Proofs.CorrelationHeaders
import TraceLink.Proofs.IdSequences
import TraceLink.Proofs.SkippedSegments
import TraceLink.Proofs.SkippedTraces
import TraceLink.Proofs.OfferedHeaders
import TraceLink.Proofs.ExtensionForms
import TraceLink.Proofs.Settings
import TraceLink.Proofs.CommaLists
import TraceLink.Proofs.GateChanges
import TraceLink.Proofs.Watches
import TraceLink.Proofs.WatchedSegments
import TraceLink.Proofs.LiveUpdates
import TraceLink.Proofs.Beats
import TraceLink.Proofs.Dockets
import TraceLink.Proofs.Bookkeeping
import TraceLink.Proofs.AsyncAccounts
