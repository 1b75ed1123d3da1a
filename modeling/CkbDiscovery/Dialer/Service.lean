import CkbDiscovery.Dialer.RoundTrip

/-! The handler as the p2p service drives it: what it does when a protocol is
set up, a session opens, a message or a timer comes in, or a dial fails. -/

namespace CkbDiscovery.Dialer

open Effect

def SupportProtocol.protocolId : SupportProtocol → Nat
  | .discovery => 1
  | .identify => 2
  | .sync => 100

/-- A request for nodes, as the builder fills it in. -/
structure GetNodes where
  version : UInt32
  count : UInt32
  listenPort : Option UInt16

/-- The molecule encoder of the requests of the discovery protocol. -/
structure Encoders where
  getNodes : GetNodes → List UInt8

def buildDiscoveryGetNodes (encoders : Encoders) (listeningPort : Option UInt16)
    (maxNodes selfDefinedFlag : UInt32) : List UInt8 :=
  encoders.getNodes ⟨selfDefinedFlag, maxNodes, listeningPort⟩

/-- What the handler asks of the service; a failed dial or message is only logged. -/
inductive ServiceAction where
  | dial (address : Multiaddr)
  | setServiceNotify (protocolId interval : Nat) (token : UInt64)
  | sendMessage (data : List UInt8)
  | probe (action : ProbeAction)
  deriving DecidableEq

abbrev ServiceAction.Reply : ServiceAction → Type
  | .dial _ => Unit
  | .setServiceNotify .. => Except Unit Unit
  | .sendMessage _ => Unit
  | .probe _ => Unit

abbrev ServiceTask := Program ServiceAction.Reply

def setNotify (protocolId interval : Nat) (token : UInt64) : ServiceTask (Except Unit Unit) :=
  .perform (ServiceAction.setServiceNotify protocolId interval token)

/-- A probe as part of the service. -/
def asTask : Probe α → ServiceTask α :=
  Program.translate fun action => .perform (ServiceAction.probe action)

/-- The texts of the bootnodes of a network. -/
def bootnodes : CKBNetworkType → List String
  | .mirana => [
    "/ip4/52.33.75.45/tcp/8124/p2p/QmPHzhEzekyjB14eQsnsVRxmymtYmAyntcfJgVYRiUq4Lb",
    "/ip4/47.110.15.57/tcp/8114/p2p/QmXS4Kbc9HEeykHUTJCm2tNmqghbvWyYpUp6BtE5b6VrAU",
    "/ip4/13.234.144.148/tcp/8114/p2p/QmbT7QimcrcD5k2znoJiWpxoESxang6z1Gy9wof1rT1LKR",
    "/ip4/104.208.105.55/tcp/8114/p2p/QmejugEABNzAofqRhci7HAipLFvoyYKRacd272jNtnQBTE",
    "/ip4/34.64.120.143/tcp/8114/p2p/QmejEJEbDcGGMp4D6WtftMMVLkR1ZuBfMgyLFDMJymkDt6",
    "/ip4/3.218.170.86/tcp/8114/p2p/QmShw2vtVt49wJagc1zGQXGS6LkQTcHxnEV3xs6y8MAmQN",
    "/ip4/35.236.107.161/tcp/8114/p2p/QmSRj57aa9sR2AiTvMyrEea8n1sEM1cDTrfb2VHVJxnGuu",
    "/ip4/23.101.191.12/tcp/8114/p2p/QmexvXVDiRt2FBGptgK4gBJusWyyTEEaHeuCAa35EPNkZS",
    "/ip4/13.37.172.80/tcp/8114/p2p/QmXJg4iKbQzMpLhX75RyDn89Mv7N2H8vLePBR7kgZf6hYk",
    "/ip4/34.118.49.255/tcp/8114/p2p/QmeCzzVmSAU5LNYAeXhdJj8TCq335aJMqUxcvZXERBWdgS",
    "/ip4/40.115.75.216/tcp/8114/p2p/QmW3P1WYtuz9hitqctKnRZua2deHXhNePNjvtc9Qjnwp4q"]
  | .pudge => [
    "/ip4/47.111.169.36/tcp/8111/p2p/QmNQ4jky6uVqLDrPU7snqxARuNGWNLgSrTnssbRuy3ij2W",
    "/ip4/35.176.207.239/tcp/8111/p2p/QmSJTsMsMGBjzv1oBNwQU36VhQRxc2WQpFoRu1ZifYKrjZ",
    "/ip4/18.136.60.221/tcp/8111/p2p/QmTt6HeNakL8Fpmevrhdna7J4NzEMf9pLchf1CXtmtSrwb",
    "/ip4/47.74.66.72/tcp/8111/p2p/QmPhgweKm2ciYq52LjtEDmKFqHxGcg2WQ8RLCayRRycanD",
    "/ip4/47.254.175.152/tcp/8111/p2p/QmXw7RsAR9bghvW4LrjrVBEwTMbdnpTEdWEtZSVQFpUgqU",
    "/ip4/47.245.29.58/tcp/8111/p2p/QmYWiwxHasuyou5ztw5uQkHbhm6gs6RB84sbgYxZNGHgaW",
    "/ip4/47.254.234.14/tcp/8111/p2p/QmfUJGvgXRTM12rSFScXy9GyD3ssuLVSpvscP5nngbhNbU",
    "/ip4/47.89.252.15/tcp/8111/p2p/QmRcUV32qumGrhkTXCWXrMhwGZLKZTmuFzLWacMpSZJ3n9",
    "/ip4/39.104.177.87/tcp/8111/p2p/QmQ27jbnww6deXQiv7SmYAUBPA1S3vGcqP9aRsXa4VaXEi",
    "/ip4/13.228.149.113/tcp/8111/p2p/QmQoTR39rBkpZVgLApDGDoFnJ2YDBS9hYeiib1Z6aoAdEf"]
  | .dev => ["/ip4/127.0.0.1/tcp/8114"]

/-- A text that is no multiaddress is a panic. -/
def getBootnodes (codings : Codings) (network : CKBNetworkType) : ServiceTask (List Multiaddr) :=
  match (bootnodes network).mapM codings.multiaddrOfText with
  | some addresses => pure addresses
  | none => .stop

namespace Handler

variable (handler : Handler)

def dialBootnodes : ServiceTask Unit := do
  let nodes ← getBootnodes handler.codings handler.networkType
  Program.forEach (fun node => .perform (ServiceAction.dial node)) nodes

/-- The protocol that comes first sets the timer that dials the bootnodes again. -/
def init (protocolId : Nat) : ServiceTask Unit :=
  if protocolId = SupportProtocol.identify.protocolId then do
    handler.dialBootnodes
    let set ← setNotify SupportProtocol.identify.protocolId (12 * 60 * 60) 1
    match set with
    | .ok _ => pure ()
    | .error _ => .stop
  else pure ()

def notify (token : UInt64) : ServiceTask Unit :=
  if token = 1 then handler.dialBootnodes else pure ()

def connectedDiscovery (encoders : Encoders) : ServiceTask Unit :=
  .perform (ServiceAction.sendMessage (buildDiscoveryGetNodes encoders none 1000 0b1110))

def connected (encoders : Encoders) (protocolId : Nat) : ServiceTask Unit :=
  if protocolId = SupportProtocol.discovery.protocolId then connectedDiscovery encoders else pure ()

/-- The branch of a message, chosen by the protocol's number. -/
def receivedOn (address : Multiaddr) (data : List UInt8) (protocolId : Nat) : Probe Unit :=
  if protocolId = SupportProtocol.discovery.protocolId then handler.receivedDiscovery address data
  else if protocolId = SupportProtocol.identify.protocolId then handler.receivedIdentify address data
  else pure ()

theorem receivedOn_protocolId (address : Multiaddr) (data : List UInt8) (protocol : SupportProtocol) :
    handler.receivedOn address data protocol.protocolId = handler.received address data protocol := by
  cases protocol <;> rfl

end Handler

/-- What the service calls a handler for; sessions are known by the address of
the remote peer. -/
inductive ServiceEvent where
  | init (protocol : SupportProtocol)
  | notify (token : UInt64)
  | connected (protocol : SupportProtocol) (address : Multiaddr)
  | received (protocol : SupportProtocol) (address : Multiaddr) (data : List UInt8)
  | error (error : ServiceError)

def Handler.serve (handler : Handler) (encoders : Encoders) : ServiceEvent → ServiceTask Unit
  | .init protocol => handler.init protocol.protocolId
  | .notify token => handler.notify token
  | .connected protocol _ => Handler.connected encoders protocol.protocolId
  | .received protocol address data => asTask (handler.receivedOn address data protocol.protocolId)
  | .error error => asTask (handler.handleError error)

def ServiceAction.dial? : ServiceAction → Option Multiaddr
  | .dial address => some address
  | _ => none

def ServiceAction.probe? : ServiceAction → Option ProbeAction
  | .probe action => some action
  | _ => none

variable {handler : Handler} {encoders : Encoders} {event : ServiceEvent}
  {replies : (action : ServiceAction) → action.Reply}

theorem calls_asTask (probe : Probe α) :
    (asTask probe).calls replies = (actions probe).map ServiceAction.probe :=
  Program.calls_translate (fun _ => ()) replies (fun _ => rfl) (fun _ => rfl) probe

/-- The dials and the probe actions of an event, whatever the service replies. -/
def dialedBy (actions : List ServiceAction) : List Multiaddr := actions.filterMap ServiceAction.dial?

def probedBy (actions : List ServiceAction) : List ProbeAction := actions.filterMap ServiceAction.probe?

@[simp] theorem dialedBy_asTask (probe : Probe α) : dialedBy ((asTask probe).calls replies) = [] := by
  rw [calls_asTask, dialedBy, List.filterMap_map]
  exact List.filterMap_eq_nil_iff.mpr fun _ _ => rfl

@[simp] theorem probedBy_asTask (probe : Probe α) :
    probedBy ((asTask probe).calls replies) = actions probe := by
  rw [calls_asTask, probedBy, List.filterMap_map]
  exact List.filterMap_some

/-- The action is a dial of a bootnode or sets the timer. -/
def Redials (codings : Codings) (network : CKBNetworkType) (action : ServiceAction) : Prop :=
  action.probe? = none ∧ ∀ address, action.dial? = some address →
    ∃ text ∈ bootnodes network, codings.multiaddrOfText text = some address

theorem dialBootnodes_redials :
    handler.dialBootnodes.Within (Redials handler.codings handler.networkType) := by
  unfold Handler.dialBootnodes getBootnodes
  split
  · rename_i nodes parsed
    apply Program.Within.forEach
    intro node member
    refine ⟨⟨rfl, fun address same => ?_⟩, fun _ => trivial⟩
    cases same
    obtain ⟨text, listed, read⟩ := mem_of_mapM parsed member
    exact ⟨text, listed, read⟩
  · trivial

theorem init_redials (protocolId : Nat) :
    (handler.init protocolId).Within (Redials handler.codings handler.networkType) := by
  unfold Handler.init
  split
  · refine dialBootnodes_redials.andThen fun _ => ?_
    refine ⟨⟨rfl, nofun⟩, fun reply => ?_⟩
    cases reply <;> trivial
  · trivial

theorem notify_redials (token : UInt64) :
    (handler.notify token).Within (Redials handler.codings handler.networkType) := by
  unfold Handler.notify
  split
  · exact dialBootnodes_redials
  · trivial

theorem connected_redials (encoders : Encoders) (protocolId : Nat) :
    (Handler.connected encoders protocolId).Within (Redials handler.codings handler.networkType) := by
  unfold Handler.connected
  split
  · exact ⟨⟨rfl, nofun⟩, fun _ => trivial⟩
  · trivial

/-- The part of an event that talks to the peer or the broker. -/
def Handler.probeOf (handler : Handler) : ServiceEvent → Probe Unit
  | .received protocol address data => handler.received address data protocol
  | .error error => handler.handleError error
  | _ => pure ()

/-- Whatever happens, a handler dials nothing of its own accord but bootnodes. -/
theorem dialedBy_serve {address : Multiaddr}
    (dialed : address ∈ dialedBy ((handler.serve encoders event).calls replies)) :
    ∃ text ∈ bootnodes handler.networkType, handler.codings.multiaddrOfText text = some address := by
  have redialed : ∀ {task : ServiceTask Unit}, task.Within (Redials handler.codings handler.networkType) →
      address ∈ dialedBy (task.calls replies) →
      ∃ text ∈ bootnodes handler.networkType, handler.codings.multiaddrOfText text = some address := by
    intro task within member
    obtain ⟨action, asked, same⟩ := List.mem_filterMap.mp member
    exact (within.calls asked).2 address same
  cases event with
  | init protocol => exact redialed (init_redials _) dialed
  | notify token => exact redialed (notify_redials _) dialed
  | connected protocol remote => exact redialed (connected_redials _ _) dialed
  | received protocol remote data => simp [Handler.serve] at dialed
  | error error => simp [Handler.serve] at dialed

theorem probedBy_serve :
    probedBy ((handler.serve encoders event).calls replies) = actions (handler.probeOf event) := by
  have silent : ∀ {task : ServiceTask Unit}, task.Within (Redials handler.codings handler.networkType) →
      probedBy (task.calls replies) = [] :=
    fun within => List.filterMap_eq_nil_iff.mpr fun action asked => (within.calls asked).1
  cases event with
  | init protocol => exact silent (init_redials _)
  | notify token => exact silent (notify_redials _)
  | connected protocol remote => exact silent (connected_redials _ _)
  | received protocol remote data =>
    rw [Handler.serve, probedBy_asTask, Handler.receivedOn_protocolId, Handler.probeOf]
  | error error => rw [Handler.serve, probedBy_asTask, Handler.probeOf]

end CkbDiscovery.Dialer
