import OpenDataBuffer.LabelledRuns
import OpenDataBuffer.Ensembles
import OpenDataBuffer.ListUpdate
import OpenDataBuffer.LittleEndian
import OpenDataBuffer.Readers
import OpenDataBuffer.BufferErrors
import OpenDataBuffer.BatchCodec
import OpenDataBuffer.ManifestCodec
import OpenDataBuffer.WellFormedManifest
import OpenDataBuffer.FieldWidths
import OpenDataBuffer.ManifestReader
import OpenDataBuffer.BatchReader
import OpenDataBuffer.VersionedStore
import OpenDataBuffer.ManifestEnqueuer
import OpenDataBuffer.ManifestLog
import OpenDataBuffer.SharedManifest
import OpenDataBuffer.InMemory
import OpenDataBuffer.Budget
import OpenDataBuffer.Backoff
import OpenDataBuffer.Batching
import OpenDataBuffer.Pieces
import OpenDataBuffer.Recovery
import OpenDataBuffer.ProducerState
import OpenDataBuffer.CallerSteps
import OpenDataBuffer.PipelineSteps
import OpenDataBuffer.CommitSteps
import OpenDataBuffer.ProducerRuns
import OpenDataBuffer.Ledger
import OpenDataBuffer.Collecting
import OpenDataBuffer.LedgerView
import OpenDataBuffer.Rotation
import OpenDataBuffer.RotationRequests
import OpenDataBuffer.LedgerRefinement
import OpenDataBuffer.Accounting
import OpenDataBuffer.Barrier
import OpenDataBuffer.Stages
import OpenDataBuffer.CommitOrder
import OpenDataBuffer.CommitFeed
import OpenDataBuffer.CommitDelivery
import OpenDataBuffer.Confluence
import OpenDataBuffer.AppendCalls
import OpenDataBuffer.Books
import OpenDataBuffer.FlushCalls
import OpenDataBuffer.Watchers
import OpenDataBuffer.FlushBarrier
import OpenDataBuffer.RotationRuns
import OpenDataBuffer.BudgetBounds
import OpenDataBuffer.Uploads
import OpenDataBuffer.Outcomes
import OpenDataBuffer.BudgetCharge
import OpenDataBuffer.ExactlyOnce
import OpenDataBuffer.CommitLog
import OpenDataBuffer.CasAccounting
import OpenDataBuffer.WriteOnce
import OpenDataBuffer.Durability
import OpenDataBuffer.FleetManifest
import OpenDataBuffer.AtMostOnce
import OpenDataBuffer.OrderedLog
import OpenDataBuffer.AppendOrder
import OpenDataBuffer.CloseRace
import OpenDataBuffer.Waiting
import OpenDataBuffer.BudgetCallers
import OpenDataBuffer.ProducerCallers
import OpenDataBuffer.Halting
import OpenDataBuffer.ObserverBalance
import OpenDataBuffer.Progress
import OpenDataBuffer.CommitEnd
import OpenDataBuffer.ConfluentRuns
import OpenDataBuffer.AppendOutcomes
import OpenDataBuffer.BatchAge
import OpenDataBuffer.CloseReturns
import OpenDataBuffer.Termination
import OpenDataBuffer.AtRest
import OpenDataBuffer.TransientFaults
import OpenDataBuffer.ExporterConfig
import OpenDataBuffer.Exporter
import OpenDataBuffer.ExporterRuns
import OpenDataBuffer.ExporterRequests
import OpenDataBuffer.FleetRest
