import QfsReplicator.Basic
import QfsReplicator.Model.State
import QfsReplicator.Model.Impl
import QfsReplicator.Model.Recovery
import QfsReplicator.Model.Step
import QfsReplicator.Model.Admission
import QfsReplicator.Direct.Tiles
import QfsReplicator.Direct.Copy
import QfsReplicator.Direct.Loop
import QfsReplicator.Lifecycle.Discipline
import QfsReplicator.Lifecycle.Response
import QfsReplicator.Lifecycle.Freeze
import QfsReplicator.Lifecycle.Settle
import QfsReplicator.Lifecycle.Staging
import QfsReplicator.Lifecycle.CancelStop
import QfsReplicator.Direct.Progress
import QfsReplicator.Recovery.Stall
import QfsReplicator.Recovery.Handoff
import QfsReplicator.Recovery.Auth
import QfsReplicator.Recovery.Layout
import QfsReplicator.Recovery.ReadSize
import QfsReplicator.Recovery.Exact
import QfsReplicator.Recovery.Metaserver
import QfsReplicator.Recovery.StripeReport
import QfsReplicator.SslFilterTest.Recursion
import QfsReplicator.SslFilterTest.Main
import QfsReplicator.Run.AccessHeader
import QfsReplicator.Registry.World
import QfsReplicator.Registry.Sound
import QfsReplicator.Registry.Preempt
import QfsReplicator.Registry.Exclusive
import QfsReplicator.Registry.Teardown
