import Rivora.Bpf.XdpIngress

/-!
What the packet programs read of a frame, byte by byte.

Both programs find the headers the same way. Every read is behind a check against the end of the frame.
-/

namespace Rivora

/-- The bytes of a packet. -/
abbrev Frame := List UInt8

namespace Frame

/-- One byte of a frame. -/
def byte (f : Frame) (i : Nat) : UInt8 := f.getD i 0

/-- A 16-bit field, loaded little-endian. -/
def load16 (f : Frame) (i : Nat) : UInt16 := (f.byte i).toUInt16 ||| (f.byte (i + 1)).toUInt16 <<< 8

/-- A 32-bit field, loaded little-endian. -/
def load32 (f : Frame) (i : Nat) : UInt32 :=
  (f.byte i).toUInt32 ||| (f.byte (i + 1)).toUInt32 <<< 8 ||| (f.byte (i + 2)).toUInt32 <<< 16 |||
    (f.byte (i + 3)).toUInt32 <<< 24

/-- The sixteen bytes of an IPv6 address. -/
def load128 (f : Frame) (i : Nat) : IP := Vector.ofFn fun k => f.byte (i + k.val)

/-- Step over VLAN tags: where the network header starts, and its type. -/
def skipVlan (f : Frame) : (tags l3 : Nat) → (proto : UInt16) → Option (Nat × UInt16)
  | 0, l3, proto => some (l3, proto)
  | tags + 1, l3, proto =>
    if proto ≠ htons 0x8100 ∧ proto ≠ htons 0x88a8 then some (l3, proto)
    else if l3 + 4 > f.length then none
    else f.skipVlan tags (l3 + 4) (f.load16 (l3 + 2))

end Frame

/-- Where the headers of a frame are that the programs rewrite. -/
inductive Layout where
  /-- An IPv4 packet with a transport header. -/
  | segment4 (l3 l4 : Nat)
  /-- An IPv6 packet with a transport header. -/
  | segment6 (l3 l4 : Nat)
  | laterFragment4 (l3 : Nat)
  | laterFragment6 (l3 : Nat)
  /-- An ICMP error; its header and the quoted one have no options. -/
  | icmp4 (l3 : Nat)
  | icmp6 (l3 : Nat)
  deriving DecidableEq, Repr

namespace Frame

/-- The transport header, of the two protocols that are balanced. -/
def l4Header (f : Frame) (proto : UInt8) (l4 : Nat) : Option L4 :=
  if proto = 6 then
    if l4 + 20 > f.length then none
    else some ⟨.tcp (f.byte (l4 + 13) &&& 0x02 ≠ 0), f.load16 l4, f.load16 (l4 + 2)⟩
  else if proto = 17 then
    if l4 + 8 > f.length then none else some ⟨.udp, f.load16 l4, f.load16 (l4 + 2)⟩
  else none

/-- The ports behind a quoted network header. -/
def quotedPorts (f : Frame) (proto : UInt8) (ports : Nat) : Option L4 :=
  if ports + 4 > f.length then none
  else if proto = 6 then some ⟨.tcp false, f.load16 ports, f.load16 (ports + 2)⟩
  else if proto = 17 then some ⟨.udp, f.load16 ports, f.load16 (ports + 2)⟩
  else none

/-- The addresses of an IPv4 header. -/
def ends4 (f : Frame) (l3 : Nat) : Endpoints := .v4 (f.load32 (l3 + 12)) (f.load32 (l3 + 16))

/-- The addresses of an IPv6 header. -/
def ends6 (f : Frame) (l3 : Nat) : Endpoints := .v6 (f.load128 (l3 + 8)) (f.load128 (l3 + 24))

/-- The length of an IPv4 header in words. -/
def ihl (f : Frame) (l3 : Nat) : Nat := (f.byte l3 &&& 0x0f).toNat

/-- An ICMP error over IPv4 and the packet it quotes. -/
def icmp4Body (f : Frame) (l3 : Nat) : Option Body :=
  if f.ihl l3 ≠ 5 then none
  else if l3 + 28 > f.length then none
  -- Destination unreachable, time exceeded and parameter problem quote a packet.
  else if f.byte (l3 + 20) ≠ 3 ∧ f.byte (l3 + 20) ≠ 11 ∧ f.byte (l3 + 20) ≠ 12 then none
  else if l3 + 48 > f.length then none
  else if f.ihl (l3 + 28) ≠ 5 then none
  else (f.quotedPorts (f.byte (l3 + 37)) (l3 + 48)).map fun l4 => .icmpError (f.ends4 (l3 + 28)) l4

/-- An ICMP error over IPv6 and the packet it quotes. -/
def icmp6Body (f : Frame) (l3 : Nat) : Option Body :=
  if l3 + 48 > f.length then none
  -- Packet too big is the one that IPv6 adds.
  else if f.byte (l3 + 40) ≠ 1 ∧ f.byte (l3 + 40) ≠ 2 ∧ f.byte (l3 + 40) ≠ 3 ∧ f.byte (l3 + 40) ≠ 4 then none
  else if l3 + 88 > f.length then none
  else (f.quotedPorts (f.byte (l3 + 54)) (l3 + 88)).map fun l4 => .icmpError (f.ends6 (l3 + 48)) l4

/-- An IPv4 packet. -/
def ipv4 (f : Frame) (l3 : Nat) : Option (Body × Layout) :=
  if l3 + 20 > f.length then none
  else if f.ihl l3 < 5 then none
  else
    let frag := f.load16 (l3 + 6)
    let id := (f.load16 (l3 + 4)).toUInt32
    let proto := f.byte (l3 + 9)
    let l4 := l3 + f.ihl l3 * 4
    if frag &&& htons 0x1fff ≠ 0 then some (.laterFragment id proto, .laterFragment4 l3)
    else if proto = 1 then (f.icmp4Body l3).map fun body => (body, .icmp4 l3)
    else (f.l4Header proto l4).map fun header =>
      (.segment header (if frag &&& htons 0x2000 ≠ 0 then some id else none), .segment4 l3 l4)

/-- What a walk over extension headers has found. -/
structure Walk where
  /-- Bytes between the fixed header and the transport header. -/
  off : Nat
  isFrag : Bool
  more : Bool
  fragOff : UInt16
  id : UInt32
  deriving DecidableEq, Repr

/-- A header the walk steps over: hop-by-hop or destination options. -/
def isOptions (nh : UInt8) : Bool := nh = 0 || nh = 60

/-- Step over extension headers; the protocol behind them, or nothing for a chain that is not walked. -/
def walk (f : Frame) (l3 : Nat) : (steps : Nat) → (nh : UInt8) → Walk → Option (UInt8 × Walk)
  | 0, nh, w => if isOptions nh || nh = 44 then none else some (nh, w)
  | steps + 1, nh, w =>
    let h := l3 + 40 + w.off % 256
    if isOptions nh then
      if h + 2 > f.length then none
      else
        let off := w.off + ((f.byte (h + 1)).toNat + 1) * 8
        if off > 248 then none else f.walk l3 steps (f.byte h) { w with off := off }
    else if nh = 44 then
      -- A second fragment header is malformed.
      if w.isFrag then none
      else if h + 8 > f.length then none
      else
        let fo := htons (f.load16 (h + 2))
        if w.off + 8 > 248 then none
        else f.walk l3 steps (f.byte h)
          ⟨w.off + 8, true, fo &&& 0x0001 ≠ 0, fo &&& 0xfff8, f.load32 (h + 4)⟩
    else some (nh, w)

/-- An IPv6 packet. -/
def ipv6 (f : Frame) (l3 : Nat) : Option (Body × Layout) :=
  if l3 + 40 > f.length then none
  else if f.byte (l3 + 6) = 58 then (f.icmp6Body l3).map fun body => (body, .icmp6 l3)
  else
    match f.walk l3 4 (f.byte (l3 + 6)) ⟨0, false, false, 0, 0⟩ with
    | none => none
    | some (proto, w) =>
      if proto ≠ 6 ∧ proto ≠ 17 then none
      else if w.isFrag ∧ w.fragOff ≠ 0 then some (.laterFragment w.id proto, .laterFragment6 l3)
      else
        let l4 := l3 + 40 + w.off % 256
        (f.l4Header proto l4).map fun header =>
          (.segment header (if w.isFrag && w.more then some w.id else none), .segment6 l3 l4)

/-- A frame as the programs see it, and where its headers are; nothing for one they pass on unread. -/
def parse (f : Frame) : Option (Packet × Layout) :=
  if f.length < 14 then none
  else
    match f.skipVlan 2 14 (f.load16 12) with
    | none => none
    | some (l3, proto) =>
      if proto = htons 0x0800 then
        (f.ipv4 l3).map fun (body, layout) =>
          (⟨f.ends4 l3, body, f.length, l3, f.load16 (l3 + 6) &&& htons 0x4000 ≠ 0⟩, layout)
      else if proto = htons 0x86dd then
        (f.ipv6 l3).map fun (body, layout) => (⟨f.ends6 l3, body, f.length, l3, false⟩, layout)
      else none

end Frame

end Rivora
