import Hexroute.Accept.Stream
import Hexroute.ActionPlan.Runner
import Hexroute.CloudConnectivity.Arrival
import Hexroute.ConfigProve.Interleaved
import Hexroute.ConfigPublish.Publish
import Hexroute.ConfigReduction.Reduction
import Hexroute.Control.Allowed
import Hexroute.Control.Budget
import Hexroute.Control.Grace
import Hexroute.Handover.GivingUp
import Hexroute.Handover.Owner
import Hexroute.Handover.Possession
import Hexroute.Handover.Undo
import Hexroute.Host.Aligned
import Hexroute.Host.Issued
import Hexroute.IncidentBundle.Lifetime
import Hexroute.IngressAgent.Returns
import Hexroute.Lineage.Crash
import Hexroute.Policy.Ports
import Hexroute.PolicyClock.Guard
import Hexroute.PolicyStore.Audit
import Hexroute.Qualification.Session
import Hexroute.Reconciler.Attempts
import Hexroute.Reconciler.Cancellation
import Hexroute.Reconciler.Synthetic
import Hexroute.Reduce.Commute
import Hexroute.Reduce.Evidence
import Hexroute.Reduce.Grandfather
import Hexroute.Reduce.Rebaseline
import Hexroute.Reduce.Truthful
import Hexroute.RoutePlan.Build
import Hexroute.SilentNode.Retention
import Hexroute.Slo.Truthful
import Hexroute.Slo.Worker
import Hexroute.SoakCli.Collections
import Hexroute.Spool.Append
import Hexroute.Spool.Ranges
import Hexroute.Telemetry.Missing
import Hexroute.Telemetry.Ranges
import Hexroute.Telemetry.Repair
import Hexroute.TunnelPlan.Blind
import Hexroute.TunnelPlan.Handback
