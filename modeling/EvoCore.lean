import EvoCore.Runs
import EvoCore.HashLinks
import EvoCore.Bytes
import EvoCore.External
import EvoCore.DomainEntries
import EvoCore.ChainAppend
import EvoCore.ChainSteps
import EvoCore.ChainReplay
import EvoCore.ChainHistory
import EvoCore.ChainForks
import EvoCore.ChainPersistence
import EvoCore.GreedyPaths
import EvoCore.ChainConvergence
import EvoCore.SiblingAgreement
import EvoCore.DomainProjection
import EvoCore.GroupConsistency
import EvoCore.ChainTrust
import EvoCore.DomainRuntime
import EvoCore.ProjectionCache
import EvoCore.PartitionHealing
import EvoCore.AuditRecords
import EvoCore.AuditChain
import EvoCore.AuditVerifier
import EvoCore.AuditEncoding
import EvoCore.AuditTamper
import EvoCore.SubjectRegistry
import EvoCore.SubjectAliases
import EvoCore.SubjectIndex
import EvoCore.Buckets
import EvoCore.RelationGraph
import EvoCore.GraphIndex
import EvoCore.StewardStore
import EvoCore.StewardWiring
import EvoCore.SubjectRestart
import EvoCore.RelationRestart
import EvoCore.RelationRaces
import EvoCore.Coalescer
import EvoCore.HappeningBus
import EvoCore.Subscriptions
import EvoCore.ReplayDelivery
import EvoCore.CursorResume
import EvoCore.ReplayWindow
import EvoCore.WireCalls
import EvoCore.SubjectForwarders
import EvoCore.Appointments
import EvoCore.AppointmentCap
import EvoCore.AppointmentCancel
import EvoCore.Plans
import EvoCore.PlanEngine
import EvoCore.SinglePlan
import EvoCore.PlanRefire
import EvoCore.PlanOutcomes
import EvoCore.PlanRegistry
import EvoCore.Actions
import EvoCore.GroupStore
import EvoCore.GroupReads
import EvoCore.MetadataFilters
import EvoCore.MetadataChain
import EvoCore.CustodyLedger
import EvoCore.CustodyRestart
import EvoCore.PlaybackQueue
import EvoCore.Prompts
import EvoCore.PromptWaiters
import EvoCore.PromptMirrors
import EvoCore.Reconciliation
import EvoCore.TimeTrust
import EvoCore.ClockSync
import EvoCore.BundleTrust
import EvoCore.TrustAdmission
import EvoCore.TrustOrder
import EvoCore.HouseholdProtection
import EvoCore.AssetCache
import EvoCore.AssetIntegrity
import EvoCore.Ledger
import EvoCore.LedgerLinks
import EvoCore.LedgerOrder
import EvoCore.LedgerCausality
import EvoCore.GrammarMigration
import EvoCore.MigratedSubjects
import EvoCore.SourceVerbs
import EvoCore.ActiveSource
import EvoCore.Router
import EvoCore.RouterOccupancy
import EvoCore.FirstPlaces
import EvoCore.RouterTable
import EvoCore.JsonText
import EvoCore.BearerTokens
import EvoCore.TokenIntegrity
import EvoCore.PeerOrigin
import EvoCore.OperatorGates
import EvoCore.GateAgreement
import EvoCore.DispatchFreshness
import EvoCore.StepUpLimiter
import EvoCore.GuessBudget
import EvoCore.SessionWords
import EvoCore.WsSubscriptions
import EvoCore.SubscriptionGrammar
import EvoCore.FactoryInstances
import EvoCore.FactoryDrain
import EvoCore.Heartbeats
import EvoCore.HeartbeatFreshness
import EvoCore.PlanSchema
import EvoCore.PlanFiles
import EvoCore.Chains
import EvoCore.PlanCycles
import EvoCore.PlanChains
import EvoCore.SegmentWaiters
import EvoCore.SegmentWakes
import EvoCore.Wizard
import EvoCore.WizardFinish
import EvoCore.Presence
import EvoCore.PresenceTruth
import EvoCore.MemberOps
import EvoCore.AuditPruning
import EvoCore.SigningInputs
import EvoCore.RelationMoves
import EvoCore.MergeCascade
import EvoCore.SplitCascade
import EvoCore.BreadthFirst
import EvoCore.GraphWalk
import EvoCore.CoalescedBuckets
import EvoCore.DatedSubjects
import EvoCore.RowConservation
import EvoCore.CycleDetection
import EvoCore.SelfDelimiting
import EvoCore.FrameCodec
import EvoCore.Schedules
import EvoCore.ScheduleArithmetic
import EvoCore.RetryDecisions
import EvoCore.Watches
import EvoCore.WatchThrottle
import EvoCore.EdgeWatches
import EvoCore.TwinRuns
import EvoCore.SubjectWatches
import EvoCore.SchmittTriggers
import EvoCore.HysteresisArms
import EvoCore.Calendar
import EvoCore.Occurrences
import EvoCore.UntrustedTicks
import EvoCore.ClockSteps
import EvoCore.Catalogues
import EvoCore.ActiveRows
import EvoCore.NamePatterns
import EvoCore.MetadataSort
import EvoCore.UnionFind
import EvoCore.MetadataMerge
import EvoCore.MetadataArrival
import EvoCore.MetadataCache
import EvoCore.LastKnownGood
import EvoCore.DepthFirst
import EvoCore.SubjectProjections
import EvoCore.ProjectionWalks
import EvoCore.ProjectionCoverage
import EvoCore.StreamFanOut
import EvoCore.StreamHandles
import EvoCore.StreamIsolation
import EvoCore.HouseholdLends
import EvoCore.SingleFlights
import EvoCore.AssetFlights
import EvoCore.LedgerSignatures
import EvoCore.RelayedOrigin
import EvoCore.RosterSnap
import EvoCore.MigrationResume
import EvoCore.VerbDispatch
import EvoCore.PayloadLabels
import EvoCore.UpdateInventory
import EvoCore.PlanResume
import EvoCore.PluginDependents
import EvoCore.AliasQuery
