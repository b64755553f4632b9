import Rivora.Bgp.Routes
import Rivora.Lib.Interaction

/-!
The BGP server the speaker drives.

It keeps the paths that were added to it, its neighbours, and one export policy made of rules. A call
either takes full effect or fails and changes nothing; it always fails where it would take away something
in use, or define something twice.
-/

namespace Rivora.Bgp

/-- A rule: a path to a neighbour of one set is rejected if its prefix is in another. -/
structure Statement where
  name : String
  neighbors : String
  deny : String
  deriving DecidableEq, Repr

/-- The attributes and the prefix a path is added with. -/
structure PathRequest where
  pfx : Netip.Prefix
  nextHop : Netip.Addr
  localPref : Option UInt32
  /-- The route it is added for. Its limit is not sent; it stands here for the record. -/
  route : Route
  deriving DecidableEq

/-- A path in the server, under the number it was given. -/
structure Path extends PathRequest where
  id : Nat
  deriving DecidableEq

/-- A neighbour as the server is told about it. -/
structure Neighbor where
  neighborAddress : String
  peerAsn : UInt32
  localAsn : UInt32
  authPassword : String
  bfd : Bool
  multihopTTL : Option UInt32
  /-- The restart time, where graceful restart is on. -/
  gracefulRestart : Option UInt32
  deriving DecidableEq, Repr

/-- What the speaker asks of the server. -/
inductive Call where
  /-- Define a set of neighbours, or add members to it. -/
  | addNeighborSet (name : String) (list : List String)
  /-- Define a set of prefixes, or add members to it. -/
  | addPrefixSet (name : String) (prefixes : List Netip.Prefix)
  /-- Take members out of a set of prefixes. -/
  | deletePrefixes (name : String) (prefixes : List Netip.Prefix)
  | deletePrefixSet (name : String)
  | deleteNeighborSet (name : String)
  | addPolicy (name : String) (statements : List Statement)
  | deletePolicy (name : String)
  /-- Put a policy into the global export policy. -/
  | addPolicyAssignment (policy : String)
  | deletePolicyAssignment (policy : String)
  | addPeer (peer : Neighbor)
  | deletePeer (address : String)
  | addPath (request : PathRequest)
  | deletePath (id : Nat)
  deriving DecidableEq

/-- What a call of the server returns: an error, or a number. -/
abbrev Reply := Except String Nat

/-- A program that calls the server. -/
abbrev Prog := Interaction.Prog fun _ : Call => Reply

/-- The paths of the server. -/
structure Rib where
  paths : List Path
  /-- The number of the next path. -/
  nextID : Nat

/-- The neighbours of the server and the rules for what is exported to them. -/
structure Exports where
  peers : List String
  neighborSets : FMap String (List String)
  prefixSets : FMap String (List Netip.Prefix)
  policies : FMap String (List Statement)
  assigned : List String

/-- The server. -/
structure Gobgp where
  rib : Rib
  exports : Exports

/-- A server that was just started. -/
def Gobgp.new : Gobgp := ⟨⟨[], 1⟩, ⟨[], .empty, .empty, .empty, []⟩⟩

/-- A rule looks at a set. -/
def Exports.inUse (e : Exports) (set : String) : Bool :=
  e.policies.values.any fun statements => statements.any fun st => st.neighbors = set || st.deny = set

/-- Whether the server can do what a call asks. -/
def Exports.accepts (e : Exports) : Call → Bool
  | .deletePrefixSet name | .deleteNeighborSet name => !e.inUse name
  | .addPolicy name statements =>
    !e.policies.contains name &&
      statements.all fun st => e.neighborSets.contains st.neighbors && e.prefixSets.contains st.deny
  | .deletePolicy name => name ∉ e.assigned
  | .addPolicyAssignment policy => e.policies.contains policy
  | _ => true

/-- The effect of a call on the neighbours and the rules. -/
def Exports.perform (e : Exports) : Call → Exports
  | .addNeighborSet name list =>
    { e with neighborSets := e.neighborSets.insert name ((e.neighborSets.get? name).getD [] ++ list) }
  | .addPrefixSet name prefixes =>
    { e with prefixSets := e.prefixSets.insert name ((e.prefixSets.get? name).getD [] ++ prefixes) }
  | .deletePrefixes name prefixes =>
    { e with
      prefixSets := e.prefixSets.insert name (((e.prefixSets.get? name).getD []).filter (· ∉ prefixes)) }
  | .deletePrefixSet name => { e with prefixSets := e.prefixSets.erase name }
  | .deleteNeighborSet name => { e with neighborSets := e.neighborSets.erase name }
  | .addPolicy name statements => { e with policies := e.policies.insert name statements }
  | .deletePolicy name => { e with policies := e.policies.erase name }
  | .addPolicyAssignment policy => { e with assigned := e.assigned ++ [policy] }
  | .deletePolicyAssignment policy => { e with assigned := e.assigned.filter (· ≠ policy) }
  | .addPeer peer => { e with peers := e.peers ++ [peer.neighborAddress] }
  | .deletePeer address => { e with peers := e.peers.filter (· ≠ address) }
  | .addPath _ | .deletePath _ => e

/-- The effect of a call on the paths. -/
def Rib.perform (r : Rib) : Call → Rib
  | .addPath request => ⟨r.paths ++ [⟨request, r.nextID⟩], r.nextID + 1⟩
  | .deletePath id => { r with paths := r.paths.filter fun path => path.id ≠ id }
  | _ => r

/-- The answer to a call, which may fail for a reason of the server's own, and the server after it. -/
def Gobgp.answer (g : Gobgp) (failure : Option String) (c : Call) : Reply × Gobgp :=
  match failure with
  | some text => (.error text, g)
  | none =>
    if g.exports.accepts c then (.ok g.rib.nextID, ⟨g.rib.perform c, g.exports.perform c⟩)
    else (.error "in use, already defined or not defined", g)

end Rivora.Bgp
