import Rivora.Config.Validate
import Rivora.GatewayApi.Build

/-!
The BGP sessions a node is told to run by objects of the cluster.

The reading of label selectors and of Secrets is given from outside.
-/

namespace Rivora.Bgp

open GatewayApi (Labels LabelSelector SelectorReader)

/-- Graceful restart of one session; the time is in seconds. -/
structure GracefulRestart where
  enabled : Bool
  restartTime : UInt32
  deriving DecidableEq, Repr

/-- A neighbour with all its settings. -/
structure Peer where
  address : String
  asn : UInt32
  bfd : Bool
  password : String
  passwordFile : String
  multihop : UInt32
  gracefulRestart : Option GracefulRestart
  /-- The nodes it is for, where a file lists them. -/
  nodes : List String
  deriving DecidableEq, Repr

/-- The settings that are checked. -/
def Peer.settings (p : Peer) : BGPPeer :=
  ⟨p.address, p.asn, p.password, p.passwordFile, p.multihop, p.gracefulRestart.map GracefulRestart.restartTime⟩

/-- A key of a Secret. -/
structure SecretKeyRef where
  name : String
  key : String
  deriving DecidableEq, Repr

/-- An object that declares a neighbour. -/
structure PeerObject where
  name : String
  creationTimestamp : Int
  address : String
  asn : UInt32
  bfd : Bool
  multihop : UInt32
  gracefulRestart : Option GracefulRestart
  passwordSecretRef : Option SecretKeyRef
  nodeSelector : Option LabelSelector
  deriving DecidableEq

/-- An object that is not applied, and why. -/
structure Problem where
  name : String
  err : String
  deriving DecidableEq, Repr

/-- What deciding which objects apply here depends on. -/
structure Inputs where
  localASN : UInt32
  nodeLabels : Labels
  /-- The labels of the node are known. -/
  haveNode : Bool
  /-- The neighbours the speaker was started with. -/
  static : List Peer
  secret : String → String → Except String String

/-- Older, or as old and earlier by name. -/
def PeerObject.before (a b : PeerObject) : Prop :=
  a.creationTimestamp < b.creationTimestamp ∨ a.creationTimestamp = b.creationTimestamp ∧ a.name < b.name

instance (a b : PeerObject) : Decidable (a.before b) := inferInstanceAs (Decidable (_ ∨ _))

/-- The objects, oldest first. -/
def sortObjects (objs : List PeerObject) : List PeerObject := objs.insertionSort fun a b => ¬ b.before a

/-- Whether an object is for this node. -/
def PeerObject.selects (asSelector : SelectorReader) (inp : Inputs) (o : PeerObject) : Except String Bool :=
  match o.nodeSelector with
  | none => .ok true
  | some selector =>
    match asSelector selector with
    | .error e => .error ("nodeSelector: " ++ e)
    | .ok sel => .ok (inp.haveNode && sel inp.nodeLabels)

/-- The password of a session, where one is asked for. -/
def PeerObject.password (inp : Inputs) (o : PeerObject) : Except String String :=
  match o.passwordSecretRef with
  | none => .ok ""
  | some ref =>
    let key := if ref.key = "" then "password" else ref.key
    (inp.secret ref.name key).mapError fun e => "password from Secret " ++ ref.name ++ " key " ++ key ++ ": " ++ e

/-- The neighbour that an object asks for; none if it is for other nodes. -/
def PeerObject.asked (asSelector : SelectorReader) (inp : Inputs) (o : PeerObject) : Except String (Option Peer) := do
  if ← o.selects asSelector inp then
    let password ← o.password inp
    let peer : Peer := ⟨o.address, o.asn, o.bfd, password, "", o.multihop, o.gracefulRestart, []⟩
    peer.settings.validate inp.localASN
    return some peer
  else return none

/-- What was decided so far: who has each address, the neighbours to run and the objects not applied. -/
structure Resolved where
  taken : FMap String String
  peers : List Peer
  problems : List Problem

/-- Decide about one object. -/
def Resolved.take (asSelector : SelectorReader) (inp : Inputs) (r : Resolved) (o : PeerObject) : Resolved :=
  let fail (err : String) : Resolved := { r with problems := r.problems ++ [⟨o.name, err⟩] }
  match o.asked asSelector inp with
  | .error e => fail e
  | .ok none => r
  | .ok (some peer) =>
    match r.taken.get? peer.address with
    | some who => fail ("address " ++ peer.address ++ " is already used by " ++ who)
    | none => { r with taken := r.taken.insert peer.address ("BGPPeer " ++ o.name), peers := r.peers ++ [peer] }

/-- The addresses that are taken before any object is looked at. -/
def Inputs.taken (inp : Inputs) : FMap String String :=
  inp.static.foldl (fun taken p => taken.insert p.address "the peers this node was started with") .empty

/-- The neighbours that apply to a node, and the objects that were skipped. -/
def resolve (asSelector : SelectorReader) (objs : List PeerObject) (inp : Inputs) : List Peer × List Problem :=
  let r := (sortObjects objs).foldl (Resolved.take asSelector inp) ⟨inp.taken, [], []⟩
  (r.peers, r.problems)

end Rivora.Bgp
