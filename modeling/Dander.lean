import Dander.ScheduleHistory
import Dander.ScheduleDelivery
import Dander.LocalGraphStoreRefinement
import Dander.AttemptReplay
import Dander.TargetFenceAgreement
import Dander.PostgresqlGraphStoreRefinement
import Dander.IncrementalWriters
import Dander.Scd2Histories
import Dander.BigqueryLeaseTokens
import Dander.HistoryTruth
import Dander.ReconciliationReadiness
import Dander.ResultCollection
import Dander.OciRunRecords
import Dander.CronGrammar
import Dander.ScheduleLeases
import Dander.Quiescence
import Dander.CancelIdempotency
import Dander.S3RunListings
import Dander.StartLookups
import Dander.PhysicalPlanner
import Dander.DateRepairRepeats
import Dander.TransformRepeats
import Dander.CursorMaxima
import Dander.PortableScoping
import Dander.PortableOrdering
import Dander.BuildOrders
import Dander.BigqueryKeys
import Dander.WatermarkStores
import Dander.SuiteqlPages
import Dander.RateLimits
import Dander.ResourceNames
import Dander.BigquerySchemas
import Dander.CodecRoundTrips
import Dander.DirectLoads
import Dander.GlueNames
import Dander.OauthSignatures
import Dander.PostgresqlKeyedWrites
import Dander.SalesforceResults
import Dander.ScheduleScans
import Dander.SchemaConformance
import Dander.SnapshotWriters
import Dander.ChangePreview
import Dander.PipelineConvergence
