import Clabernetes.Wire.Bounds
import Clabernetes.Wire.Pumps
import Clabernetes.Wire.Convergence
import Clabernetes.Staging.DeviceState
import Clabernetes.Connectivity.Application
import Clabernetes.Startup.Batches
import Clabernetes.Startup.Slots
import Clabernetes.Startup.Hosts
import Clabernetes.Controllers.ObservationCache
import Clabernetes.Capture.Sink
import Clabernetes.Topologies.Convergence
import Clabernetes.Artifacts.Sensitive
import Clabernetes.Planning.Agreement
import Clabernetes.DirectPod.Admissible
import Clabernetes.Links.Greedy
import Clabernetes.Startup.Partition
import Clabernetes.Compiler.Aliases
import Clabernetes.Compiler.LinkNames
import Clabernetes.Compiler.Ports
import Clabernetes.Links.Bindings
import Clabernetes.Management.Directory
import Clabernetes.Management.Shards
import Clabernetes.Management.PrefixArithmetic
import Clabernetes.Planning.Records
import Clabernetes.DevicePlan.ArtifactPaths
import Clabernetes.Images.Coalescing
import Clabernetes.Images.RegistryPolicies
import Clabernetes.Connectivity.TransportFilter
import Clabernetes.DevicePlan.ReservedPaths
import Clabernetes.Connectivity.ResolverConfig
import Clabernetes.Links.Cursor
import Clabernetes.Management.DirectoryWriters
