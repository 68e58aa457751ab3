import N4Cluster.Base.Pool
import N4Cluster.Server.Aggregate
import N4Cluster.Server.Slots
import N4Cluster.Server.Cancellation
import N4Cluster.Server.Ticks
import N4Cluster.Server.Liveness
import N4Cluster.Server.Streams
import N4Cluster.Server.Columns
import N4Cluster.Server.Dispatch
import N4Cluster.Server.Ownership
import N4Cluster.Server.Placement
import N4Cluster.Server.Repetition
import N4Cluster.Server.Verdicts
import N4Cluster.Server.Reports
import N4Cluster.Server.Balance
import N4Cluster.Server.Search
import N4Cluster.Server.Announcements
import N4Cluster.Server.Artifacts
import N4Cluster.Server.Fencing
import N4Cluster.Server.Links
import N4Cluster.Server.Uploads
import N4Cluster.Server.Subscribers
import N4Cluster.Client.Downloads
import N4Cluster.Client.Errors
import N4Cluster.Client.Params
import N4Cluster.Runner.Alignment
import N4Cluster.Runner.Publication
import N4Cluster.Runner.Bundles
import N4Cluster.Worker.Agent
import N4Cluster.Worker.Cluster
import N4Cluster.Worker.Workdirs
import N4Cluster.Worker.Leases
import N4Cluster.Worker.Documents
import N4Cluster.Worker.Handoff
import N4Cluster.Worker.Executor
import N4Cluster.Worker.Extraction
import N4Cluster.Wire.Models
import N4Cluster.Server.Deduplication
import N4Cluster.Server.Submissions
import N4Cluster.Server.Board
import N4Cluster.Server.References
import N4Cluster.Server.Service
import N4Cluster.Server.Mediation
import N4Cluster.Server.Attestation
import N4Cluster.Server.Views
import N4Cluster.Client.Waiting
import N4Cluster.Server.Monitoring
import N4Cluster.Worker.Slots
import N4Cluster.Worker.Cancellations
import N4Cluster.Worker.Materialize
import N4Cluster.Server.Logbook
import N4Cluster.Runner.Main
import N4Cluster.Runner.Submitted
