import Rivora.Bgp.Speaker

/-! Which part of the server each program of the speaker touches. -/

namespace Rivora.Bgp

open Interaction

/-- A call that is about paths. -/
def Call.isPath : Call → Bool
  | .addPath _ | .deletePath _ => true
  | _ => false

/-- Only calls about paths change the paths. -/
theorem Rib.perform_of_not_path (r : Rib) {c : Call} (other : c.isPath = false) : r.perform c = r := by
  cases c with
  | addPath request => cases other
  | deletePath id => cases other
  | _ => rfl

/-- What is behind the lock of the neighbours. -/
def Call.Ruling (c : Call) : Prop := c.isPath = false

section

variable {shortSum : String → String} {cfg : Settings} {choices : Choices}

theorem calls_ask {kind : Call → Prop} {c : Call} (mine : kind c) :
    (ExceptT.mk (Prog.ask c) : ExceptT String Prog Nat).run.Calls kind := ⟨mine, fun _ => trivial⟩

theorem editPrefixSet_calls (name : String) (current want : List Netip.Prefix) :
    (editPrefixSet name current want).run.Calls Call.Ruling := by
  -- Either of the two calls may be left out.
  unfold editPrefixSet
  dsimp only
  split
  · refine Prog.Calls.bindExcept (calls_ask rfl) fun _ => ?_
    split
    · exact Prog.Calls.bindExcept (calls_ask rfl) fun _ => trivial
    · trivial
  · split
    · exact Prog.Calls.bindExcept (calls_ask rfl) fun _ => trivial
    · trivial

theorem editDeny_calls (addr : String) (current want : List Netip.Prefix) :
    (editDeny shortSum addr current want).run.Calls Call.Ruling :=
  Prog.Calls.bindExcept (editPrefixSet_calls _ _ _) fun _ => editPrefixSet_calls _ _ _

theorem dropPeerLimits_calls (addr : String) (l : Limits) :
    (dropPeerLimits shortSum addr l).Calls Call.Ruling :=
  ⟨rfl, fun _ => ⟨rfl, fun _ => ⟨rfl, fun _ => ⟨rfl, fun _ => ⟨rfl, fun _ => trivial⟩⟩⟩⟩⟩

theorem wrapped_calls {kind : Call → Prop} (front : String) {c : Call} (mine : kind c) :
    (wrapped front c).run.Calls kind := ⟨mine, fun _ => trivial⟩

theorem defineLimits_calls (families : Order (String × List Netip.Prefix)) (addr : String)
    (deny : List Netip.Prefix) : (defineLimits shortSum families addr deny).run.Calls Call.Ruling := by
  unfold defineLimits
  dsimp only
  split
  · trivial
  · refine Prog.Calls.bindExcept (wrapped_calls _ rfl) fun _ => ?_
    refine Prog.Calls.bindExcept ?_ fun _ =>
      Prog.Calls.bindExcept (wrapped_calls _ rfl) fun _ => wrapped_calls _ rfl
    -- One call for each family, in whatever order.
    generalize families.walk _ = sets
    induction sets with
    | nil => trivial
    | cons set rest ih => exact Prog.Calls.bindExcept (wrapped_calls _ rfl) fun _ => ih

theorem createPeerLimits_calls (families : Order (String × List Netip.Prefix)) (addr : String)
    (deny : List Netip.Prefix) (l : Limits) :
    (createPeerLimits shortSum families addr deny l).Calls Call.Ruling := by
  refine (dropPeerLimits_calls addr l).bind fun l' => (defineLimits_calls families addr deny).bind fun result => ?_
  cases result with
  | error e => trivial
  | ok _ => trivial

theorem addPeer_calls (p : Peer) (l : Limits) : (addPeer shortSum cfg choices p l).Calls Call.Ruling := by
  unfold addPeer
  dsimp only
  split
  · trivial
  · refine (createPeerLimits_calls _ _ _ _).bind fun result => ?_
    rcases result with ⟨_ | _, l'⟩
    · trivial
    · refine ⟨rfl, fun reply => ?_⟩
      cases reply with
      | error e => exact (dropPeerLimits_calls _ _).bind fun _ => trivial
      | ok _ => trivial

theorem stopPeer_calls (want : FMap String Peer) (s : Setting) (addr : String) :
    (stopPeer shortSum want s addr).Calls Call.Ruling := by
  unfold stopPeer
  split
  · trivial
  · refine ⟨rfl, fun reply => ?_⟩
    cases reply with
    | error e => trivial
    | ok _ =>
      refine (dropPeerLimits_calls _ _).bind fun l => ?_
      dsimp only
      split
      · trivial
      · trivial

theorem startPeer_calls (want : FMap String Peer) (s : Setting) (addr : String) :
    (startPeer shortSum cfg choices want s addr).Calls Call.Ruling := by
  unfold startPeer
  split
  · refine (addPeer_calls _ _).bind fun result => ?_
    rcases result with ⟨_ | _, l⟩
    · trivial
    · trivial
  · trivial

/-- New neighbours change no path. -/
theorem setPeers_calls (desired : List Peer) (l : Limits) :
    (setPeers shortSum cfg choices desired l).Calls Call.Ruling :=
  (Prog.Calls.foldlM (stopPeer_calls _) _ _).bind fun _ => Prog.Calls.foldlM (startPeer_calls _) _ _

theorem syncDenySet_calls (state : Except String Unit × Limits) (addr : String) :
    (syncDenySet shortSum state addr).Calls Call.Ruling := by
  unfold syncDenySet
  dsimp only
  split
  · trivial
  · refine (editDeny_calls _ _ _).bind fun result => ?_
    cases result with
    | error e => trivial
    | ok _ => trivial

/-- Nor do the lists of what is denied. -/
theorem syncDenySets_calls (order : Order String) (desired : FMap Netip.Prefix Route) (l : Limits) :
    (syncDenySets shortSum order desired l).Calls Call.Ruling :=
  Prog.Calls.foldlM syncDenySet_calls _ _

end

end Rivora.Bgp
