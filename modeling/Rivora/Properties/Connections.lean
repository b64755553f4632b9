import Rivora.Proofs.Fragments
import Rivora.Properties.Containment
import Rivora.Properties.NatReply

/-! A connection stays with its backend while a VIP lists it, whatever operations do meanwhile. -/

namespace Rivora

/-- An event, or a change the flow maps make by themselves: they are LRU maps and drop entries when full. -/
inductive Occurrence where
  | event (event : Event)
  | evict (flow : Flow)

/-- The node after an occurrence. -/
def Node.occur (n : Node) : Occurrence → Node
  | .event event => n.step event
  | .evict flow => { n with maps := { n.maps with flow := flow } }

variable {m : Maps} {n : Node} {ctx : Context} {pkt : Packet} {l4 : L4} {firstOf : Option UInt32} {d : Delivery}
  {key : ConnKey} {id : Nat} {name : String} {o : Occurrence}

/-- A packet is sent to a backend, known by its name, of the packet's own family. -/
structure DeliveredTo (d : Delivery) (pkt : Packet) (name : String) : Prop where
  denotes : Denotes d.backend name
  family : d.backend.addr.isV4 = pkt.ends.isV4

/--
When a packet of the connection comes, the backend is up and a VIP lists it under its ID.

The connection's own entry is not evicted.
-/
def Occurrence.Keeps (n : Node) (key : ConnKey) (id : Nat) (name : String) : Occurrence → Prop
  | .event (.packet _ pkt) => ∀ l4 firstOf, pkt.body = .segment l4 firstOf → connKey pkt.ends l4 = key →
    n.maps.alive id = true ∧ ∃ k, Lists n.plane k name id
  | .event (.op _ _) => True
  | .evict flow => flow.affinity.get? key = n.maps.flow.affinity.get? key

/-- A packet of a connection that is forwarded goes to a backend. -/
def Occurrence.GoesTo (n : Node) (key : ConnKey) (id : Nat) (name : String) : Occurrence → Prop
  | .event (.packet ctx pkt) => ∀ l4 firstOf d, pkt.body = .segment l4 firstOf → connKey pkt.ends l4 = key →
    (ingress n.maps ctx pkt).1 = .forward d → d.backendID = id ∧ DeliveredTo d pkt name
  | _ => True

/--
A forwarded packet goes where its connection's entry leads, which names that backend afterwards.

It is sent to what the backend map has under the backend's ID.
-/
theorem entry_of_forwarded (body : pkt.body = .segment l4 firstOf)
    (forwarded : (ingress m ctx pkt).1 = .forward d) :
    (m.receive ctx pkt).flow.affinity.get? (connKey pkt.ends l4) = some d.backendID ∧
      m.backend.get? ⟨pkt.ends.isV4, d.backendID⟩ = some d.backend ∧
      ∀ id, affineBackend m (connKey pkt.ends l4) = some id → d.backendID = id := by
  -- Only the delivery forwards, and it goes to the backend that was chosen and noted.
  have ended : SegmentEnds m ctx pkt l4 firstOf (ingress m ctx pkt) := ingress_segment body
  change (ingress m ctx pkt).2.affinity.get? _ = _ ∧ _
  generalize ingress m ctx pkt = result at ended forwarded
  cases ended with
  | unmatched | limited | unserved | noBackend | unknown => cases forwarded
  | @delivered sid id cfg f be _ _ _ _ chosen entry handed =>
    obtain ⟨_, sent, described, _⟩ := handed.forwarded forwarded
    rw [sent, described, handed.kept.1, rememberFragment_eq, countDelivered_eq]
    refine ⟨chosen.affinity, entry, fun other affine => ?_⟩
    cases chosen with
    | affine here => exact Option.some.inj (here.symm.trans affine)
    | picked none => cases none.symm.trans affine

/-- A backend that is up keeps its connection. -/
theorem affine_of_entry (entry : m.flow.affinity.get? key = some id) (alive : m.alive id = true) :
    affineBackend m key = some id := by
  rw [affineBackend, entry]
  exact Option.filter_eq_some_iff.mpr ⟨rfl, alive⟩

/-- Nothing that may happen takes the connection's entry. -/
theorem entry_occur (entry : n.maps.flow.affinity.get? key = some id) (keeps : o.Keeps n key id name) :
    (n.occur o).maps.flow.affinity.get? key = some id := by
  rcases o with (⟨op, env⟩ | ⟨ctx, pkt⟩) | flow
  · obtain ⟨drops, flow⟩ := replay_flow (op.outcome env n.plane).2.writes n.maps
    change (replay _ n.maps).flow.affinity.get? key = some id
    rw [flow]
    exact entry
  · change (ingress n.maps ctx pkt).2.affinity.get? key = some id
    by_cases bare : ∀ l4 firstOf, pkt.body ≠ .segment l4 firstOf
    · rw [((ingress_ends n.maps ctx pkt).kept bare).1]
      exact entry
    · push Not at bare
      obtain ⟨l4, firstOf, body⟩ := bare
      rcases (ingress_segment body).affinity with same | ⟨none, id', inserted⟩
      · rw [same]
        exact entry
      · -- A connection with a live entry gets no new one, so this is another connection.
        have other : key ≠ connKey pkt.ends l4 := by
          rintro rfl
          cases none.symm.trans (affine_of_entry entry (keeps l4 firstOf body rfl).1)
        rw [inserted, FMap.get?_insert_of_ne _ _ other]
        exact entry
  · exact keeps.trans entry

/-- What stays true of a node holds after an eviction as well, which is not about VIPs. -/
theorem Sustained.occur (sustained : Sustained n.maps n.world) (o : Occurrence) :
    Sustained (n.occur o).maps (n.occur o).world := by
  cases o with
  | event event => exact sustained.step event
  | evict flow => exact ⟨sustained.owned, sustained.filed, sustained.described⟩

/-- A name stands for one address. -/
theorem Denotes.addr_eq {info info' : BackendInfo} (left : Denotes info name) (right : Denotes info' name) :
    info.addr = info'.addr := by
  obtain ⟨b, ip, named, parsed, addr, _⟩ := left
  obtain ⟨b', ip', named', parsed', addr', _⟩ := right
  rw [← (backendName_inj (named.trans named'.symm)).1, parsed] at parsed'
  cases parsed'
  rw [addr, addr']

/-- Packets of one connection are of one family. -/
theorem isV4_of_connKey {pkt' : Packet} {l4' : L4} (same : connKey pkt'.ends l4' = connKey pkt.ends l4) :
    pkt'.ends.isV4 = pkt.ends.isV4 := by
  have family : ∀ ends : Endpoints, ends.isV4 = ends.daddr.isV4 := fun ends => by cases ends <;> rfl
  rw [family, family, show pkt'.ends.daddr = pkt.ends.daddr from congrArg ConnKey.daddr same]

/--
Once a packet of a connection was sent to a backend, so is every later one that is forwarded at all.

Operations of any kind may come between, and may fail, and the flow maps may drop other entries. When a packet
of the connection comes, the backend has to be up and listed under its ID by some VIP, for an ID that no VIP
lists may be given to another backend. The connection's own entry must not be evicted.
-/
theorem connections_stick (config : NodeConfig) (maps : StartMaps) (events : List Event)
    (body : pkt.body = .segment l4 firstOf)
    (forwarded : (ingress ((Node.start config maps).run events).maps ctx pkt).1 = .forward d)
    (first : DeliveredTo d pkt name) {os : List Occurrence}
    (keeps : Run.Along Node.occur (fun n o => o.Keeps n (connKey pkt.ends l4) d.backendID name)
      (((Node.start config maps).run events).step (.packet ctx pkt)) os) :
    Run.Along Node.occur (fun n o => o.GoesTo n (connKey pkt.ends l4) d.backendID name)
      (((Node.start config maps).run events).step (.packet ctx pkt)) os := by
  refine Run.along_of_invariant
    (P := fun n : Node => n.maps.flow.affinity.get? (connKey pkt.ends l4) = some d.backendID ∧
      Sustained n.maps n.world)
    (fun before keeps => ⟨entry_occur before.1 keeps, before.2.occur _⟩) (fun {n o} before keeps => ?_)
    ⟨(entry_of_forwarded body forwarded).1, (Node.sustained_run config maps events).step _⟩ keeps
  rcases o with (⟨op, env⟩ | ⟨ctx', pkt'⟩) | flow
  · trivial
  · intro l4' firstOf' d' body' same forwarded'
    obtain ⟨alive, k, listed⟩ := keeps l4' firstOf' body' same
    obtain ⟨_, stored, affine⟩ := entry_of_forwarded body' forwarded'
    have sent : d'.backendID = d.backendID := affine _ (by rw [same]; exact affine_of_entry before.1 alive)
    -- The VIP's listing says what the ID means now, and the map follows it.
    obtain ⟨info, described, denotes⟩ := before.2.described listed
    have family : info.addr.isV4 = pkt'.ends.isV4 := by
      rw [denotes.addr_eq first.denotes, first.family, isV4_of_connKey same]
    rw [sent, ← family] at stored
    cases described.symm.trans stored
    exact ⟨sent, denotes, family⟩
  · trivial

/-- The node has both VIPs that share a backend, then the second is removed, and the backend stays. -/
theorem sharingNode_removal :
    ∃ q, rehearse sharingNode.plane [.removeVIP "10.0.0.2:80:tcp"] = some q ∧
      sharingNode.plane.services.contains "10.0.0.2:80:tcp" = true ∧
      q.services.contains "10.0.0.2:80:tcp" = false ∧ Lists q "10.0.0.1:80:tcp" "10.0.1.1:8080" 0 ∧
      (q.backendStates.get? 0).map BackendState.health = some .healthy := by
  have rehearsed : ((rehearse (.new plainNode) sharingVIPs).map fun q =>
      (q.services.contains "10.0.0.2:80:tcp", (rehearse q [.removeVIP "10.0.0.2:80:tcp"]).map fun q =>
        (q.services.contains "10.0.0.2:80:tcp",
          (q.services.get? "10.0.0.1:80:tcp").bind fun e => e.backendIDs.get? "10.0.1.1:8080",
          (q.backendStates.get? 0).map BackendState.health))) =
      some (true, some (false, some 0, some .healthy)) := by
    decide +kernel
  obtain ⟨p, planes, found⟩ := Option.map_eq_some_iff.mp rehearsed
  obtain ⟨before, removal⟩ := Prod.mk.inj found
  obtain ⟨q, removed, found⟩ := Option.map_eq_some_iff.mp removal
  simp only [Prod.mk.injEq] at found
  obtain ⟨gone, listed, health⟩ := found
  obtain ⟨e, stored, named⟩ := Option.bind_eq_some_iff.mp listed
  obtain ⟨_, _, plane⟩ := rehearse_run (Node.sound_start plainNode plainMaps) planes
  have reached : sharingNode.plane = p := plane
  rw [reached]
  exact ⟨q, removed, before, gone, ⟨e, stored, named⟩, health⟩

/-- The connection of a node's first packet keeps to its rules while the other VIP is removed. -/
theorem keeps_past_removal {q : Dataplane} (sound : n.Sound)
    (rehearsed : rehearse n.plane [.removeVIP "10.0.0.2:80:tcp"] = some q)
    (listed : Lists q "10.0.0.1:80:tcp" name id)
    (health : (q.backendStates.get? id).map BackendState.health = some .healthy) :
    let removed := (n.step (.packet ctx pkt)).step (.op (.removeVIP "10.0.0.2:80:tcp") calm)
    removed.plane = q ∧ Run.Along Node.occur (fun n o => o.Keeps n key id name) (n.step (.packet ctx pkt))
      [.event (.op (.removeVIP "10.0.0.2:80:tcp") calm), .event (.packet ctx pkt)] := by
  -- A packet does not touch the control plane, so the removal runs as rehearsed.
  have sound' : (n.step (.packet ctx pkt)).Sound := ⟨sound.imaged.receive ctx pkt, sound.recorded⟩
  obtain ⟨_, after, plane⟩ := rehearse_run sound' rehearsed
  refine ⟨plane, trivial, fun _ _ _ _ => ⟨?_, "10.0.0.1:80:tcp", ?_⟩, trivial⟩
  · obtain ⟨st, known, healthy⟩ := Option.map_eq_some_iff.mp health
    have inside : id < maxBackends := by
      have owned := after.imaged.owned.backends
      rw [plane] at owned
      exact owned.capacity ▸ q.backendAlloc.id_lt_max (owned.held known).1
    have image := after.imaged.backends.health id
    rw [plane, health] at image
    change Maps.alive _ id = true
    rw [Maps.alive, Maps.backendHealth?, if_pos inside]
    exact congrArg (fun h : Health => Option.any (· ≠ .down) (some h)) image
  · exact plane ▸ listed

/-- A connection's second packet goes to its backend after another VIP with that backend was removed. -/
theorem connections_stick_past_removal :
    let n := (sharingNode.step (.packet quietContext (clientPacket 0x0100000a))).step
      (.op (.removeVIP "10.0.0.2:80:tcp") calm)
    sharingNode.plane.services.contains "10.0.0.2:80:tcp" = true ∧
      n.plane.services.contains "10.0.0.2:80:tcp" = false ∧
      Occurrence.GoesTo n (connKey (clientPacket 0x0100000a).ends ⟨.tcp false, htons 4000, htons 80⟩) 0
        "10.0.1.1:8080" (.event (.packet quietContext (clientPacket 0x0100000a))) := by
  intro n
  obtain ⟨sound, target, _⟩ := sharingNode_targets
  obtain ⟨q, rehearsed, present, gone, listed, health⟩ := sharingNode_removal
  obtain ⟨forwarded, _⟩ := sound.imaged.translates_sole (clientPacket 0x0100000a) target rfl rfl rfl (by decide)
    rfl rfl (by rw [affineBackend, sharingNode_flow.1]; rfl) quietContext
  obtain ⟨removed, keeps⟩ := keeps_past_removal sound rehearsed listed health
  obtain ⟨ip, parsed, addr⟩ := Option.map_eq_some_iff.mp
    (by decide : (parseIP "10.0.1.1").map IP.toAddr = some (.v4 0x0101000a))
  have sent := connections_stick plainNode plainMaps (calmly sharingVIPs) rfl forwarded
    ⟨⟨plainBackend "10.0.1.1", ip, by decide, parsed, addr.symm, rfl⟩, rfl⟩ keeps
  refine ⟨present, ?_, sent.2.1⟩
  rw [removed]
  exact gone

end Rivora
