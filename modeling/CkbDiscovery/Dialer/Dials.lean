import CkbDiscovery.Dialer.Network
import CkbDiscovery.Effect.Evaluate

/-! The dialer's answer to a request to dial. -/

namespace CkbDiscovery.Dialer

open Effect

/-- The networks a service is built for. -/
def builtNetworks : List CKBNetworkType := [.mirana, .pudge]

/-- A dial through the controller of a network; a failed one is only logged. -/
structure Dial where
  controller : CKBNetworkType
  address : Multiaddr

abbrev DialReply (_ : Dial) := Unit

abbrev DialTask := Program DialReply

/-- There is no controller for any other network. -/
def dialAddress (node : NodeMetaInfo) (addr : Multiaddr) : DialTask Unit :=
  match node.network with
  | .pudge => .perform ⟨.pudge, addr⟩
  | .mirana => .perform ⟨.mirana, addr⟩
  | _ => .stop

/-- Addresses that do not parse are passed over. -/
def needsDial (codings : Codings) (serde : Serde) (payload : String) : DialTask Unit :=
  match serde.nodeMetaInfo.fromStr payload with
  | some node => Program.forEach (dialAddress node) ((metaInfoToAddr codings node).filterMap id)
  | none => pure ()

/-- The dials made for a request. -/
def dials (codings : Codings) (serde : Serde) (payload : String) : List Dial :=
  (needsDial codings serde payload).calls fun _ => ()

def Unreachable (codings : Codings) (serde : Serde) (payload : String) : Prop :=
  (needsDial codings serde payload).evaluate (fun _ => ()) = none

variable {codings : Codings} {serde : Serde} {payload : String} {node : NodeMetaInfo}

theorem dialAddress_built (built : node.network ∈ builtNetworks) (addr : Multiaddr) :
    dialAddress node addr = .perform ⟨node.network, addr⟩ := by
  unfold dialAddress
  cases network : node.network with
  | dev =>
    rw [network] at built
    simp [builtNetworks] at built
  | _ => rfl

/-- A request for a built network never runs into the last arm. -/
theorem needsDial_reached (read : serde.nodeMetaInfo.fromStr payload = some node)
    (built : node.network ∈ builtNetworks) : ¬ Unreachable codings serde payload := by
  unfold Unreachable needsDial
  rw [read, ← ne_eq, Option.ne_none_iff_isSome]
  apply (Program.forEach_finishes _).mpr
  intro addr _
  rw [dialAddress_built built]
  rfl

/-- Every dial uses the network and one of the parsed addresses of the request. -/
theorem mem_dials {dial : Dial} (read : serde.nodeMetaInfo.fromStr payload = some node)
    (built : node.network ∈ builtNetworks) (dialed : dial ∈ dials codings serde payload) :
    dial.controller = node.network ∧ some dial.address ∈ metaInfoToAddr codings node := by
  unfold dials needsDial at dialed
  simp only [read] at dialed
  obtain ⟨addr, member, asked⟩ := Program.mem_calls_forEach _ dialed
  rw [dialAddress_built built] at asked
  obtain rfl := List.mem_singleton.mp asked
  obtain ⟨parsed, present, rfl⟩ := List.mem_filterMap.mp member
  exact ⟨rfl, present⟩

/-- A peer without an id is not dialed, as its addresses do not parse. -/
theorem metaInfoToAddr_nameless (empty : ∀ endpoint, codings.multiaddrOfText (endpointText endpoint "") = none)
    (nameless : node.peerId = "") (addr : Multiaddr) : some addr ∉ metaInfoToAddr codings node := by
  intro member
  obtain ⟨endpoint, _, kept⟩ := List.mem_filterMap.mp member
  rw [nameless, empty] at kept
  split at kept <;> simp at kept

end CkbDiscovery.Dialer
