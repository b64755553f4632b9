import Rivora.Bpf.XdpIngress

/-! The egress program: a backend's reply leaves with the VIP as its source again. -/

namespace Rivora

/-- A reply as it leaves: its source address, and source port where it has a port. -/
structure Reply where
  saddr : Addr
  sport : Option UInt16
  deriving DecidableEq, Repr

/-- Remember the rewrite of a reply's first fragment for the fragments behind it. -/
def rememberReplyFragment (ends : Endpoints) (l4 : L4) (firstOf : Option UInt32) (vipAddr : Addr)
    (f : Flow) : Flow :=
  match firstOf with
  | none => f
  | some id =>
    { f with fragRev := f.fragRev.insert ⟨ends.saddr, ends.daddr, id, l4.transport.proto⟩ vipAddr }

/-- The egress program on one packet: the source it leaves with, and the flow maps afterwards. -/
def egress (f : Flow) (pkt : Packet) : Reply × Flow :=
  match pkt.body with
  | .other | .icmpError _ _ => (⟨pkt.ends.saddr, none⟩, f)
  | .laterFragment id proto =>
    match f.fragRev.get? ⟨pkt.ends.saddr, pkt.ends.daddr, id, proto⟩ with
    | none => (⟨pkt.ends.saddr, none⟩, f)
    | some vipAddr => (⟨vipAddr, none⟩, f)
  | .segment l4 firstOf =>
    -- The backend is the source and the client the destination.
    match f.natReverse.get?
        ⟨pkt.ends.saddr, pkt.ends.daddr, l4.sport, l4.dport, l4.transport.proto⟩ with
    | none => (⟨pkt.ends.saddr, some l4.sport⟩, f)
    | some val =>
      (⟨val.vipAddr, some val.vipPort⟩, rememberReplyFragment pkt.ends l4 firstOf val.vipAddr f)

end Rivora
