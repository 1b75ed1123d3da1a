import CkbDiscovery.Marci.Keys
import CkbDiscovery.Redis.Client

/-! The four branches of Marci's `select!` loop, command by command. -/

namespace CkbDiscovery.Marci

open Effect Redis

/-- The part of an ipinfo answer that Marci stores. -/
structure IpDetails where
  country : String
  city : String
  region : String
  loc : String
  deriving DecidableEq, Repr

inductive MarciCall where
  | redis (command : Command)
  | systemTime
  | cachedIpinfo (ip : String)
  | cacheIpinfo (ip : String) (details : IpDetails)
  | lookupIpinfo (ip : String)
  | publish (topic payload : String)
  deriving DecidableEq

abbrev MarciCall.Reply : MarciCall → Type
  | .redis command => Except RedisError command.Reply
  | .systemTime => UInt64
  | .cachedIpinfo _ => Option IpDetails
  | .cacheIpinfo .. => Unit
  | .lookupIpinfo _ => Option IpDetails
  | .publish .. => Except Unit Unit

instance : Client MarciCall.Reply where
  send command := .perform (MarciCall.redis command)

abbrev Handler := Program MarciCall.Reply

def ask (question : MarciCall) : Handler question.Reply := .perform question

/-- The environment variables the handlers read, and how the Redis crate
writes a boolean argument. -/
structure Config where
  ckbNodeDefaultTimeout : UInt64
  ckbNodeUnknownDefaultTimeout : UInt64
  ckbNodeDefaultWitnesses : UInt64
  boolArg : Bool → String

/-- `try_into().unwrap()` from `u64` to `i64`. -/
def tryIntoI64 (value : UInt64) : Handler Nat :=
  if value.toNat < 2 ^ 63 then pure value.toNat else .stop

def lookupIpinfo (ip : String) : Handler (Option IpDetails) := do
  match ← ask (.cachedIpinfo ip) with
  | some details => pure (some details)
  | none =>
    match ← ask (.lookupIpinfo ip) with
    | some details =>
      ask (.cacheIpinfo ip details)
      pure (some details)
    | none => pure none

def queryByIp (ip : EndpointInfo) : Handler (Option IpDetails) := lookupIpinfo ip.address.toString

def queryByReachable : List EndpointInfo → Handler (Option IpDetails)
  | [] => pure none
  | addr :: rest => do
    match ← lookupIpinfo addr.address.toString with
    | some details => pure (some details)
    | none => queryByReachable rest

def setIpDetails (peerId : String) (ip : IpDetails) : Handler Unit := do
  orReturn (Client.set (KeyFormat.peerCountry.key peerId) ip.country)
  orReturn (Client.set (KeyFormat.peerCity.key peerId) ip.city)
  orReturn (Client.set (KeyFormat.peerRegion.key peerId) ip.region)
  orReturn (Client.set (KeyFormat.peerPos.key peerId) ip.loc)

def setLastSeen (peerId : String) : Handler Unit := do
  let now ← ask .systemTime
  orReturn (Client.set (KeyFormat.peerSeen.key peerId) (toString now.toNat))

/-- The reply to `SET` does not convert to `u64`, and the error is dropped. -/
def setLastUpdate : Handler Unit := do
  let now ← ask .systemTime
  unwrapOr () (Client.set serviceLastUpdateKey (toString now.toNat))

variable (config : Config) (serde : Serde)

/-- `con.expire(online_key, timeout)`, the same in the online and the unknown branch. -/
def expireOnline (onlineKey : String) : Handler Unit := do
  let seconds ← tryIntoI64 config.ckbNodeDefaultTimeout
  let _ ← orReturn (Client.expire onlineKey seconds)

/-- First part of the online branch: which status record the report refreshes. -/
def markOnline (peer : PeerInfo) : Handler Unit := do
  let onlineKey := KeyFormat.onlinePeer.key peer.info.peerId
  let online2Key := KeyFormat.online2Peer.key peer.info.peerId
  match ← Client.getString onlineKey with
  | .ok _ => expireOnline config onlineKey
  | .error _ =>
    if peer.isEx then
      orReturn (Client.setEx online2Key peer.version config.ckbNodeDefaultTimeout.toNat)
    else
      orReturn (Client.setEx onlineKey peer.version config.ckbNodeDefaultTimeout.toNat)

/-- Second part: where the peer is. -/
def locateOnline (peer : PeerInfo) : Handler Unit := do
  match peer.info.addresses.head? with
  | none => pure ()
  | some addr =>
    orReturn (Client.setEx (KeyFormat.onlineIp.key peer.info.peerId) (serde.endpointInfo.toString addr)
      config.ckbNodeDefaultTimeout.toNat)
    match ← queryByIp addr with
    | none => pure ()
    | some ip => setIpDetails peer.info.peerId ip

/-- Third part: the plain records, and the unknown mark goes. -/
def settleOnline (peer : PeerInfo) : Handler Unit := do
  orReturn (Client.set (KeyFormat.peerFull.key peer.info.peerId) (config.boolArg peer.full))
  setLastSeen peer.info.peerId
  let _ ← orReturn (Client.del (KeyFormat.unknownPeer.key peer.info.peerId))

def handleOnline (peer : PeerInfo) : Handler Unit := do
  markOnline config peer
  locateOnline config serde peer
  settleOnline config peer

/-- Enough witnesses: the peer is marked unknown and its witnesses are spent. -/
def promoteUnknown (peerId : String) : Handler Unit := do
  orReturn (Client.setEx (KeyFormat.unknownPeer.key peerId) "unknown"
    config.ckbNodeUnknownDefaultTimeout.toNat)
  let _ ← orReturn (Client.del (KeyFormat.reachablePeer.key peerId))

def verifyWitnesses (peerId : String) : Handler Unit := do
  let witnesses ← unwrapOr 0 (Client.scard (KeyFormat.reachablePeer.key peerId))
  if config.ckbNodeDefaultWitnesses.toNat ≤ witnesses then
    promoteUnknown config peerId

/-- First part of the unknown branch: an online peer is kept, any other one is
marked once it has enough witnesses. -/
def markUnknown (peerId : String) : Handler Unit := do
  let onlineKey := KeyFormat.onlinePeer.key peerId
  match ← Client.getString onlineKey with
  | .ok _ => expireOnline config onlineKey
  | .error _ => verifyWitnesses config peerId

def handleUnknown (peer : NodeMetaInfo) : Handler Unit := do
  markUnknown config peer.peerId
  setLastSeen peer.peerId

/-- First part of the reachable branch: the witness, the index and the addresses. -/
def recordReachable (peer : ReachableInfo) : Handler Unit := do
  let peerId := peer.peer.peerId
  let _ ← orReturn (Client.sadd (KeyFormat.reachablePeer.key peerId) peer.from.peerId)
  orReturn (Client.set ((KeyFormat.peerNetworkQuick peer.peer.network).key peerId) "0")
  Program.forEach (fun ip => do
    let _ ← orReturn (Client.sadd (KeyFormat.peerIp.key peerId) (serde.endpointInfo.toString ip)))
    peer.peer.addresses
  orReturn (Client.set (KeyFormat.peerNetwork.key peerId) peer.peer.network.intoStr)

/-- Second part: a peer without a known country is looked up. -/
def locateReachable (peer : ReachableInfo) : Handler Unit := do
  let peerId := peer.peer.peerId
  let country ← unwrapOr "" (Client.getString (KeyFormat.peerCountry.key peerId))
  if country.isEmpty then
    match ← queryByReachable peer.peer.addresses with
    | none => pure ()
    | some ip => setIpDetails peerId ip

def handleReachable (peer : ReachableInfo) : Handler Unit := do
  recordReachable serde peer
  setLastSeen peer.peer.peerId
  locateReachable peer
  setLastUpdate

/-- The id a reachable key ends in. -/
def reachablePeerId (key : String) : String :=
  ((rsplitOnceDot key).map Prod.snd).getD ""

/-- What the store holds about a peer to dial. -/
def gatherDial (peerId : String) : Handler NodeMetaInfo := do
  let rawInfo ← unwrapOr [] (Client.smembers (KeyFormat.peerIp.key peerId))
  let networkString ← unwrapOr "" (Client.getString (KeyFormat.peerNetwork.key peerId))
  pure {
    peerId
    addresses := rawInfo.filterMap serde.endpointInfo.fromStr
    network := CKBNetworkType.ofString networkString }

def requestDial (peerId : String) : Handler Unit := do
  let metaInfo ← gatherDial serde peerId
  orReturn (ask (.publish "peer/needs_dial" (serde.nodeMetaInfo.toString metaInfo)))

def handleTick : Handler Unit := do
  let reachablePeerKeys ← orReturn (Client.keys "peer.reachable.*")
  Program.forEach (requestDial serde) (reachablePeerKeys.map reachablePeerId)
  setLastUpdate

/-- What one turn of the loop takes up. -/
inductive Message where
  | online (peer : PeerInfo)
  | unknown (peer : NodeMetaInfo)
  | reachable (peer : ReachableInfo)
  | tick

/-- What Marci reads from the broker; a payload that does not parse is dropped. -/
def subscribed (topic payload : String) : Option Message :=
  match topic with
  | "peer/online" | "peer/online2" => (serde.peerInfo.fromStr payload).map .online
  | "peer/reachable" => (serde.reachableInfo.fromStr payload).map .reachable
  | "peer/unknown" => (serde.nodeMetaInfo.fromStr payload).map .unknown
  | _ => none

def handle : Message → Handler Unit
  | .online peer => handleOnline config serde peer
  | .unknown peer => handleUnknown config peer
  | .reachable peer => handleReachable serde peer
  | .tick => handleTick serde

end CkbDiscovery.Marci
