import CkbDiscovery.Dialer.Dials
import CkbDiscovery.Dialer.Handler
import CkbDiscovery.Marci.Broadcast

/-! The dialer, Marci and the broker between them. The broker keeps all it was
given and hands out any of it at any time, so that messages may be delayed,
reordered and repeated. -/

namespace CkbDiscovery.Deployment

open Effect Dialer Marci
open Relation (ReflTransGen)

/-- A message delivered to the protocol handler of a network. -/
structure Receipt where
  network : CKBNetworkType
  address : Multiaddr
  protocol : SupportProtocol
  data : List UInt8

structure Parties where
  codings : Codings
  decoders : Decoders
  serde : Serde
  config : Config

def Parties.handler (parties : Parties) (network : CKBNetworkType) : Dialer.Handler :=
  ⟨parties.codings, parties.decoders, parties.serde, network⟩

/-- Everything received and published so far, and Marci's turns with the state
they led to, while Marci is running. -/
structure System where
  received : List Receipt
  broker : List (String × String)
  turns : List MarciTurn
  marci : Option State

def System.opened (now : Nat) : System := ⟨[], [], [], some (.initial now)⟩

variable (parties : Parties)

/-- What a handler publishes on a message, also if it panics on the way. -/
def relayed (receipt : Receipt) : List (String × String) :=
  publishedBy (actions ((parties.handler receipt.network).received receipt.address receipt.data
    receipt.protocol))

/-- What Marci may take up next. -/
def Delivered (system : System) (message : Message) : Prop :=
  message = .tick ∨ ∃ topic payload, (topic, payload) ∈ system.broker ∧
    subscribed parties.serde topic payload = some message

/-- Only dialers report peers and only Marci requests dials. A turn of Marci
may be given up anywhere on the way, and is then its last. -/
inductive Step : System → System → Prop where
  | receive (built : receipt.network ∈ builtNetworks) :
      Step system { system with
        received := receipt :: system.received
        broker := relayed parties receipt ++ system.broker }
  | foreign (unreported : topic ≠ "peer/reachable") (unrequested : topic ≠ "peer/needs_dial") :
      Step system { system with broker := (topic, payload) :: system.broker }
  | turn (running : system.marci = some before) (delivered : Delivered parties system message)
      (completes : HandlerCompletes before (handle parties.config parties.serde message) trace after ()) :
      Step system { system with
        broker := published trace ++ system.broker
        turns := ⟨message, trace⟩ :: system.turns
        marci := some after }
  | abort (running : system.marci = some before) (delivered : Delivered parties system message)
      (reaches : Reaches world before (handle parties.config parties.serde message) trace after) :
      Step system { system with
        broker := published trace ++ system.broker
        marci := none }

def Reachable (now : Nat) (system : System) : Prop :=
  ReflTransGen (Step parties) (.opened now) system

/-- A request that the dialer may take up. -/
def Pending (system : System) (payload : String) : Prop :=
  ("peer/needs_dial", payload) ∈ system.broker

end CkbDiscovery.Deployment
