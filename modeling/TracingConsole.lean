import TracingConsole.Library.PrefixForest
import TracingConsole.Library.KeyedTable
import TracingConsole.Library.WordTally
import TracingConsole.Library.Runs
import TracingConsole.Model.Wire
import TracingConsole.Model.Aggregate
import TracingConsole.Model.Snapshot
import TracingConsole.Analysis.Cascade
import TracingConsole.Analysis.BucketTallies
import TracingConsole.Analysis.RingAccounting
import TracingConsole.Analysis.AggregatorRuns
import TracingConsole.Analysis.AggregateStatistics
import TracingConsole.Analysis.SplitValues
import TracingConsole.Analysis.ArrivalOrder
import TracingConsole.Analysis.SplitRebuild
import TracingConsole.Analysis.RingWellFormed
import TracingConsole.Analysis.UniqueIds
import TracingConsole.Library.Slab
import TracingConsole.Model.Record
import TracingConsole.Model.SpanCache
import TracingConsole.Model.CacheThreads
import TracingConsole.Analysis.SlabAddress
import TracingConsole.Analysis.CacheMoves
import TracingConsole.Library.Tenancy
import TracingConsole.Analysis.RecordIds
import TracingConsole.Analysis.Sidecar
import TracingConsole.Analysis.RecordedSpans
import TracingConsole.Model.SpanHandles
import TracingConsole.Analysis.LastHandle
import TracingConsole.Model.Driver
import TracingConsole.Analysis.EventJoin
import TracingConsole.Library.SenderQueue
import TracingConsole.Model.Pipeline
import TracingConsole.Analysis.PipelineMoves
import TracingConsole.Analysis.PipelineOrder
import TracingConsole.Model.CachePipeline
import TracingConsole.Analysis.Delivery
import TracingConsole.Analysis.ClosedIds
import TracingConsole.Analysis.EventsReachSpan
import TracingConsole.Model.Caches
import TracingConsole.Analysis.CacheIsolation
import TracingConsole.Analysis.SharedCursor
import TracingConsole.Library.WordMixing
import TracingConsole.Model.Sampling
import TracingConsole.Analysis.SamplingFamilies
import TracingConsole.Library.WatchChannel
import TracingConsole.Model.LevelBus
import TracingConsole.Analysis.ClientsTold
import TracingConsole.Analysis.BusMoves
import TracingConsole.Analysis.IdleReset
import TracingConsole.Model.Modal
import TracingConsole.Model.GraphStore
import TracingConsole.Analysis.GraphBins
import TracingConsole.Model.Graph
import TracingConsole.Model.Explore
import TracingConsole.Model.Console
import TracingConsole.Model.Apply
import TracingConsole.Analysis.ChartStore
import TracingConsole.Analysis.ViewMoves
import TracingConsole.Analysis.LeavingExplore
import TracingConsole.Analysis.VisitRuns
import TracingConsole.Analysis.RingGrowth
import TracingConsole.Analysis.ChartRebuild
import TracingConsole.Analysis.PendingPool
import TracingConsole.Analysis.RingResolved
import TracingConsole.Analysis.SnapshotRoundTrip
import TracingConsole.Analysis.StackForest
import TracingConsole.Analysis.StackTable
import TracingConsole.Analysis.RingBounds
import TracingConsole.Analysis.ArrivalFifo
import TracingConsole.Analysis.SplitChains
import TracingConsole.Analysis.IdScheme
import TracingConsole.Model.SpanGuards
import TracingConsole.Analysis.InnermostSpan
import TracingConsole.Analysis.OrphanAge
import TracingConsole.Analysis.GraphSamples
import TracingConsole.Library.SlotWindow
import TracingConsole.Model.Reload
import TracingConsole.Analysis.GraphWindow
import TracingConsole.Analysis.GraphRecords
import TracingConsole.Model.Installer
import TracingConsole.Analysis.ModalText
import TracingConsole.Library.CounterRing
import TracingConsole.Analysis.RateWindow
import TracingConsole.Model.TreeLabel
import TracingConsole.Analysis.RowScans
import TracingConsole.Analysis.NamedStacks
import TracingConsole.Analysis.Disclosure
import TracingConsole.Analysis.Highlight
import TracingConsole.Analysis.SortColumns
import TracingConsole.Model.SpanStreams
import TracingConsole.Analysis.StoppedStreams
import TracingConsole.Analysis.VersionSwitch
import TracingConsole.Analysis.TraceRows
import TracingConsole.Analysis.StoredSamples
import TracingConsole.Analysis.SelfTimes
import TracingConsole.Analysis.SelfTimeChart
import TracingConsole.Library.LinearProbing
import TracingConsole.Library.GridScale
import TracingConsole.Model.ChartView
import TracingConsole.Analysis.SeriesColors
import TracingConsole.Analysis.ChartAxis
import TracingConsole.Model.WireRecord
import TracingConsole.Model.Network
import TracingConsole.Model.Relay
import TracingConsole.Analysis.RelayOrder
import TracingConsole.Analysis.RelayedSpans
import TracingConsole.Analysis.RelayLosses
import TracingConsole.Analysis.Panel
import TracingConsole.Analysis.NetworkRuns
import TracingConsole.Model.Keyboard
import TracingConsole.Analysis.Prompts
import TracingConsole.Analysis.KeyboardRuns
import TracingConsole.Analysis.QuitQuestion
import TracingConsole.Analysis.TypedText
import TracingConsole.Model.ObjectPool
import TracingConsole.Analysis.PooledBoxes
import TracingConsole.Model.StatsMode
import TracingConsole.Analysis.StatsMirror
import TracingConsole.Library.ReadForward
import TracingConsole.Analysis.Messages
import TracingConsole.Model.Deployment
import TracingConsole.Analysis.LevelsShown
import TracingConsole.Analysis.LevelsSettled
import TracingConsole.Analysis.RequestsHandled
import TracingConsole.Model.Predicate
import TracingConsole.Analysis.FilteredSpans
import TracingConsole.Model.Heat
import TracingConsole.Analysis.HeatMap
import TracingConsole.Analysis.OpenedTraces
import TracingConsole.Model.Installing
import TracingConsole.Analysis.InstallerScripts
import TracingConsole.Analysis.ConnectionAnswers
import TracingConsole.Analysis.OpenedRecords
import TracingConsole.Analysis.ShownStacks
import TracingConsole.Analysis.ShownTimes
import TracingConsole.Model.LateFields
import TracingConsole.Analysis.LateFields
import TracingConsole.Analysis.ExploreList
