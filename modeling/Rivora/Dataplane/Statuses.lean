import Rivora.Bpf.Common
import Rivora.Dataplane.Ops

/-! What a node reports about its VIPs to those that ask, the route advertisement among them. -/

namespace Rivora

/-- What is reported about a backend. -/
structure BackendStatus where
  id : Nat
  healthy : Bool
  deriving DecidableEq, Repr

/-- What is reported about a VIP. -/
structure Status where
  vipAddress : String
  vipPort : UInt16
  bgpCommunities : List String
  bgpPeers : List String
  backends : List BackendStatus
  deriving DecidableEq, Repr

/-- Reports are ordered by the text of the address, then by the port. -/
def Status.before (a b : Status) : Prop :=
  a.vipAddress < b.vipAddress ∨ a.vipAddress = b.vipAddress ∧ a.vipPort < b.vipPort

instance (a b : Status) : Decidable (a.before b) := inferInstanceAs (Decidable (_ ∨ _))

/-- The report about one programmed VIP; a backend whose health cannot be read counts as not healthy. -/
def Node.status (n : Node) (entry : ServiceEntry) : Status where
  vipAddress := entry.vip.address
  vipPort := entry.vip.port
  bgpCommunities := entry.vip.bgpCommunities.getD []
  bgpPeers := entry.vip.bgpPeers.getD []
  backends := (entry.backendIDs.values.map fun id =>
      ⟨id, n.maps.backendHealth? id = some .healthy⟩).insertionSort fun a b => ¬ b.id < a.id

/--
One report for each VIP, with the VIPs taken in some order before they are sorted.

The sort leaves open how VIPs of one address and port are ordered, and so does the order they come in; a
stable sort of every order there is gives every outcome.
-/
def Node.statuses (n : Node) (entries : List ServiceEntry) : List Status :=
  (entries.map n.status).insertionSort fun a b => ¬ b.before a

end Rivora
