import Rivora.Dataplane.State
import Rivora.Lib.Interaction

/-!
The reconcilers: from a Service or a Gateway to the VIPs programmed for it.

Both reconcilers are the same program over the three operations of the data plane they need and over
their own table of what they installed. How a Service or a Gateway is turned into a list of wanted VIPs
is an input here.
-/

namespace Rivora.Reconciler

open Interaction

/-- One wanted VIP, and those of its backends that are draining. -/
structure DesiredVIP where
  vip : VIP
  drainingBackends : List Backend
  deriving DecidableEq

/-- What a reconciler calls: the data plane, its own table, and the listener for changes. -/
inductive Call where
  | upsertVIP (vip : VIP)
  | setBackendDrainingByKey (vipKey backendKey : String) (draining : Bool)
  | removeVIP (key : String)
  | getInstalled (key : String)
  | setInstalled (key : String) (keys : List String)
  | deleteInstalled (key : String)
  /-- Go through the keys of a map, in an order the language leaves open. -/
  | iterate (keys : List String)
  | onChange

/-- The answers to these calls. -/
def Call.Reply : Call → Type
  | .upsertVIP _ | .setBackendDrainingByKey _ _ _ | .removeVIP _ => Except GoError Unit
  | .getInstalled _ | .iterate _ => List String
  | .setInstalled _ _ | .deleteInstalled _ | .onChange => Unit

/-- A program that makes these calls. -/
abbrev Reconcile := Prog Call.Reply

section Calls

/-- Ask the data plane to create or update a VIP. -/
def upsertVIP (vip : VIP) : Reconcile (Except GoError Unit) := Prog.ask (Call.upsertVIP vip)

/-- Ask the data plane to mark a VIP's backend. -/
def setBackendDrainingByKey (vipKey backendKey : String) (draining : Bool) :
    Reconcile (Except GoError Unit) :=
  Prog.ask (Call.setBackendDrainingByKey vipKey backendKey draining)

/-- Ask the data plane to remove a VIP. -/
def removeVIP (key : String) : Reconcile (Except GoError Unit) := Prog.ask (Call.removeVIP key)

/-- Read what is recorded as installed for an object. -/
def getInstalled (key : String) : Reconcile (List String) := Prog.ask (Call.getInstalled key)

/-- Record what is installed for an object. -/
def setInstalled (key : String) (keys : List String) : Reconcile Unit :=
  Prog.ask (Call.setInstalled key keys)

/-- Record that nothing is installed for an object. -/
def deleteInstalled (key : String) : Reconcile Unit := Prog.ask (Call.deleteInstalled key)

/-- Go through the keys of a map. -/
def iterate (keys : List String) : Reconcile (List String) := Prog.ask (Call.iterate keys)

/-- Tell the listener that something changed. -/
def onChange : Reconcile Unit := Prog.ask Call.onChange

section

variable {σ : Type} (answer : (c : Call) → σ → c.Reply × σ) (s : σ)

@[simp] theorem upsertVIP_answer (vip : VIP) :
    (upsertVIP vip).run answer s = answer (.upsertVIP vip) s := rfl

@[simp] theorem setBackendDrainingByKey_answer (vipKey backendKey : String) (draining : Bool) :
    (setBackendDrainingByKey vipKey backendKey draining).run answer s =
      answer (.setBackendDrainingByKey vipKey backendKey draining) s := rfl

@[simp] theorem removeVIP_answer (key : String) :
    (removeVIP key).run answer s = answer (.removeVIP key) s := rfl

@[simp] theorem getInstalled_answer (key : String) :
    (getInstalled key).run answer s = answer (.getInstalled key) s := rfl

@[simp] theorem setInstalled_answer (key : String) (keys : List String) :
    (setInstalled key keys).run answer s = answer (.setInstalled key keys) s := rfl

@[simp] theorem deleteInstalled_answer (key : String) :
    (deleteInstalled key).run answer s = answer (.deleteInstalled key) s := rfl

@[simp] theorem iterate_answer (keys : List String) :
    (iterate keys).run answer s = answer (.iterate keys) s := rfl

@[simp] theorem onChange_answer : onChange.run answer s = answer .onChange s := rfl

end

end Calls

/-- Mark backends of a VIP as draining, up to the first that fails. -/
def drainAll (vipKey : String) : List Backend → Reconcile (Except GoError Unit)
  | [] => return .ok ()
  | b :: rest => do
    match ← setBackendDrainingByKey vipKey (backendName b) true with
    | .error e =>
      return .error (e.wrap ("set backend draining " ++ b.address ++ ":" ++ toString b.port.toNat ++ ": "))
    | .ok _ => drainAll vipKey rest

/-- Program the wanted VIPs in turn, up to the first that fails; answers their keys. -/
def upsertAll : List DesiredVIP → (newKeys : List String) → Reconcile (Except GoError (List String))
  | [], newKeys => return .ok newKeys
  | d :: rest, newKeys => do
    match ← upsertVIP d.vip with
    | .error e =>
      return .error (e.wrap ("upsert vip " ++ d.vip.address ++ ":" ++ toString d.vip.port.toNat ++ ": "))
    | .ok _ =>
      match ← drainAll (vipKeyString d.vip) d.drainingBackends with
      | .error e => return .error e
      | .ok _ => upsertAll rest (newKeys.insert (vipKeyString d.vip))

/-- Remove those of the earlier VIPs that are not wanted; answers whether there were any. -/
def removeStale (newKeys : List String) : List String → (changed : Bool) → Reconcile (Except GoError Bool)
  | [], changed => return .ok changed
  | oldKey :: rest, changed => do
    if oldKey ∈ newKeys then removeStale newKeys rest changed
    else
      match ← removeVIP oldKey with
      | .error e => return .error (e.wrap ("remove vip " ++ oldKey ++ ": "))
      | .ok _ => removeStale newKeys rest true

/-- Record what is installed for an object now. -/
def recordInstalled (key : String) (newKeys : List String) : Reconcile Unit :=
  if newKeys = [] then deleteInstalled key
  else do
    let keys ← iterate newKeys
    setInstalled key keys

/-- Bring the data plane from what is installed for an object to what is wanted for it. -/
def removeAllFor (key : String) (desired : List DesiredVIP) : Reconcile (Except GoError Unit) := do
  match ← upsertAll desired [] with
  | .error e => return .error e
  | .ok newKeys =>
    let previous ← getInstalled key
    match ← removeStale newKeys previous (!desired.isEmpty) with
    | .error e => return .error e
    | .ok changed => do
      recordInstalled key newKeys
      if changed then onChange
      return .ok ()

section Kinds

theorem drainAll_calls (vipKey : String) (backends : List Backend) :
    (drainAll vipKey backends).Calls fun c =>
      ∃ b ∈ backends, c = .setBackendDrainingByKey vipKey (backendName b) true := by
  induction backends with
  | nil => trivial
  | cons b rest ih =>
    refine .bind ⟨⟨b, List.mem_cons_self, rfl⟩, fun _ => trivial⟩ fun r => ?_
    cases r with
    | error e => trivial
    | ok _ => exact ih.mono fun c ⟨b', member, is⟩ => ⟨b', List.mem_cons_of_mem _ member, is⟩

theorem removeStale_calls (newKeys previous : List String) (changed : Bool) :
    (removeStale newKeys previous changed).Calls fun c =>
      ∃ k ∈ previous, k ∉ newKeys ∧ c = .removeVIP k := by
  induction previous generalizing changed with
  | nil => trivial
  | cons oldKey rest ih =>
    have later : ∀ changed, (removeStale newKeys rest changed).Calls fun c =>
        ∃ k ∈ oldKey :: rest, k ∉ newKeys ∧ c = .removeVIP k :=
      fun changed => (ih changed).mono fun c ⟨k, member, is⟩ => ⟨k, List.mem_cons_of_mem _ member, is⟩
    rw [removeStale]
    split
    · exact later changed
    · rename_i unwanted
      refine .bind ⟨⟨oldKey, List.mem_cons_self, unwanted, rfl⟩, fun _ => trivial⟩ fun r => ?_
      cases r with
      | error e => trivial
      | ok _ => exact later true

end Kinds

/-- What a reconciler finds when it looks an object up. -/
inductive Observed where
  /-- Gone, or for another controller. -/
  | unmanaged
  /-- A lister or the translation of the object failed. -/
  | failed (e : GoError)
  | wants (desired : List DesiredVIP)

/-- Reconcile one object. -/
def reconcile (key : String) : Observed → Reconcile (Except GoError Unit)
  | .unmanaged => removeAllFor key []
  | .failed e => return .error e
  | .wants desired => removeAllFor key desired

/-- The VIPs an object wants. -/
def Observed.keys : Observed → List String
  | .wants desired => desired.map fun d => vipKeyString d.vip
  | _ => []

end Rivora.Reconciler
