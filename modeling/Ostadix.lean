import Ostadix.Soundness
import Ostadix.ValueRoundTrip
import Ostadix.WorldCodec
import Ostadix.CborLimits
import Ostadix.OValueSafety
import Ostadix.OValueInjective
import Ostadix.OValueContent
import Ostadix.ReceiptRoundTrip
import Ostadix.SolverConverge
import Ostadix.LedgerHistory
import Ostadix.OcoreDiscipline
import Ostadix.SupervisorGenerations
import Ostadix.SupervisorSharing
import Ostadix.RemoteAttempt
import Ostadix.ProjectCoordinator
import Ostadix.GlobMatch
import Ostadix.PackageIdentity
import Ostadix.CapabilityHistory
import Ostadix.Materialize
import Ostadix.MemoryHistory
import Ostadix.RegistryChain
import Ostadix.GroupResolution
import Ostadix.FidelityIntervals
import Ostadix.ImageDigest
