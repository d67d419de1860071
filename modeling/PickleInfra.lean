import PickleInfra.Registration.Repeated
import PickleInfra.Metrics.Coverage
import PickleInfra.Metrics.RoundTrip
import PickleInfra.Metrics.Permuted
import PickleInfra.Transport.Agreement
import PickleInfra.Transport.FailsClosed
import PickleInfra.Network.Guard
import PickleInfra.Network.Bridge
import PickleInfra.Health.Delivery
import PickleInfra.Discord.Eligible
import PickleInfra.Discord.Order
import PickleInfra.System.Published
import PickleInfra.Observation.Operations
import PickleInfra.Python.Calendar
import PickleInfra.Backup.CapacityAlert
import PickleInfra.Backup.Notified
import PickleInfra.Backup.Summarized
import PickleInfra.Backup.SpoolCrash
import PickleInfra.Backup.Retained
import PickleInfra.Backup.DatabaseNotified
import PickleInfra.Backup.Readable
import PickleInfra.Deploy.Paired
import PickleInfra.SyntheticLogin.Recovered
import PickleInfra.Receiver.Received
import PickleInfra.Metrics.Tallied
import PickleInfra.DevTls.Exchange
import PickleInfra.Readiness.Ranges
import PickleInfra.Readiness.Sealed
import PickleInfra.Canary.Counters
import PickleInfra.Canary.Bounded
import PickleInfra.System.Noninterference
import PickleInfra.CpuIsolation.Capacity
import PickleInfra.CpuIsolation.Receipt
import PickleInfra.Observation.Leftover
import PickleInfra.Observation.Samples
