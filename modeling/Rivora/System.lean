import Rivora.Bpf.XdpIngress
import Rivora.Dataplane.Ops
import Rivora.Lib.Run

/-! A node as a system: operations of its control plane, and packets between them. -/

namespace Rivora

/-- Something that happens to a node. -/
inductive Event where
  /-- An operation, with the choices its environment makes. -/
  | op (op : Op) (env : Env)
  /-- A packet the ingress program sees. -/
  | packet (ctx : Context) (pkt : Packet)

/-- The maps after the ingress program has seen a packet. -/
def Maps.receive (m : Maps) (ctx : Context) (pkt : Packet) : Maps :=
  { m with flow := (ingress m ctx pkt).2 }

/-- The node after an event. -/
def Node.step (n : Node) : Event → Node
  | .op op env => n.after op env
  | .packet ctx pkt => { n with maps := n.maps.receive ctx pkt }

/-- The maps at start-up. -/
structure StartMaps where
  rlConfig : RLConfig
  tunnelConfig : TunnelConfig
  ifaceMAC : FMap Nat Mac

/-- A node that has programmed nothing and seen no packet. -/
def Node.start (config : NodeConfig) (maps : StartMaps) : Node :=
  ⟨.new config, .empty maps.rlConfig maps.tunnelConfig maps.ifaceMAC⟩

/-- The node after a sequence of events. -/
def Node.run (n : Node) (events : List Event) : Node := Run.run Node.step n events

end Rivora
