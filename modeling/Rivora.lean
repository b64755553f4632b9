import Rivora.Bgp.Gobgp
import Rivora.Bgp.Peers
import Rivora.Bgp.RouteLaws
import Rivora.Bgp.RouteOrder
import Rivora.Bgp.Routes
import Rivora.Bgp.Speaker
import Rivora.Bgp.SpeakerLaws
import Rivora.Bpf.Cells
import Rivora.Bpf.Common
import Rivora.Bpf.Coverage
import Rivora.Bpf.Frame
import Rivora.Bpf.IngressLaws
import Rivora.Bpf.Maps
import Rivora.Bpf.NatLaws
import Rivora.Bpf.ParseLaws
import Rivora.Bpf.Rewrite
import Rivora.Bpf.RewriteLaws
import Rivora.Bpf.TcNat
import Rivora.Bpf.XdpIngress
import Rivora.Cluster
import Rivora.Config
import Rivora.Config.Validate
import Rivora.ConfigLaws
import Rivora.Controller.Build
import Rivora.Controller.FirstPass
import Rivora.Controller.Fleet
import Rivora.Controller.Reconcile
import Rivora.Dataplane.Adopt
import Rivora.Dataplane.Backends
import Rivora.Dataplane.IdAlloc
import Rivora.Dataplane.MaglevAlloc
import Rivora.Dataplane.Ops
import Rivora.Dataplane.PortRange
import Rivora.Dataplane.State
import Rivora.Dataplane.Statuses
import Rivora.Dataplane.Vips
import Rivora.GatewayApi.Attach
import Rivora.GatewayApi.AttachLaws
import Rivora.GatewayApi.Build
import Rivora.GatewayApi.Listing
import Rivora.GatewayApi.Offers
import Rivora.Ipam.Allocator
import Rivora.Ipam.AllocatorLaws
import Rivora.Ipam.Controller
import Rivora.Ipam.ControllerLaws
import Rivora.Ipam.Pool
import Rivora.Lib.Effect
import Rivora.Lib.FiniteMap
import Rivora.Lib.FirstSeen
import Rivora.Lib.Guard
import Rivora.Lib.Interaction
import Rivora.Lib.InternetChecksum
import Rivora.Lib.Run
import Rivora.Lib.SortedBy
import Rivora.Lib.Splice
import Rivora.Lib.TokenBucket
import Rivora.Lib.WorkQueue
import Rivora.Maglev.Shares
import Rivora.Maglev.Table
import Rivora.Maglev.TableLaws
import Rivora.Maglev.Termination
import Rivora.Net.Address
import Rivora.Net.Netip
import Rivora.Net.NetipLaws
import Rivora.Net.NetipValue
import Rivora.Proofs.Accepted
import Rivora.Proofs.Attempts
import Rivora.Proofs.BackendImage
import Rivora.Proofs.BackendRuns
import Rivora.Proofs.Endpoints
import Rivora.Proofs.Filed
import Rivora.Proofs.FleetRuns
import Rivora.Proofs.Fragments
import Rivora.Proofs.Image
import Rivora.Proofs.ImageRuns
import Rivora.Proofs.Kept
import Rivora.Proofs.Owned
import Rivora.Proofs.OwnedSlots
import Rivora.Proofs.Parts
import Rivora.Proofs.Prepare
import Rivora.Proofs.Program
import Rivora.Proofs.Progress
import Rivora.Proofs.Rebuild
import Rivora.Proofs.Recorded
import Rivora.Proofs.Rehearsal
import Rivora.Proofs.Remove
import Rivora.Proofs.Serving
import Rivora.Proofs.Settle
import Rivora.Proofs.SettleRuns
import Rivora.Proofs.SettleSteps
import Rivora.Proofs.TableImage
import Rivora.Proofs.Upsert
import Rivora.Proofs.Upserted
import Rivora.Properties.AcceptedKeys
import Rivora.Properties.AcceptedRuns
import Rivora.Properties.Allocators
import Rivora.Properties.AuditNames
import Rivora.Properties.Connections
import Rivora.Properties.Containment
import Rivora.Properties.Draining
import Rivora.Properties.DropCounters
import Rivora.Properties.ErrorAnswers
import Rivora.Properties.FirstPass
import Rivora.Properties.Handover
import Rivora.Properties.HeaderChains
import Rivora.Properties.Installed
import Rivora.Properties.LaterFragments
import Rivora.Properties.ListingOrder
import Rivora.Properties.MapImage
import Rivora.Properties.NatChecksums
import Rivora.Properties.NatReply
import Rivora.Properties.Ownership
import Rivora.Properties.PeerResolve
import Rivora.Properties.PoolContents
import Rivora.Properties.PortBlocks
import Rivora.Properties.ProbeVerdicts
import Rivora.Properties.QuietPass
import Rivora.Properties.RandomAddress
import Rivora.Properties.RefWeights
import Rivora.Properties.RefusedWeights
import Rivora.Properties.Restart
import Rivora.Properties.RoundTrip
import Rivora.Properties.RouteRecord
import Rivora.Properties.ServiceLookup
import Rivora.Properties.SharedNames
import Rivora.Properties.Spelling
import Rivora.Properties.SynBudget
import Rivora.Properties.SynLimits
import Rivora.Properties.SynShare
import Rivora.Properties.TableSizes
import Rivora.Properties.TenantIsolation
import Rivora.System
import Rivora.Text
