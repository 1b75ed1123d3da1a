import CkbDiscovery.Marci.Keys
import CkbDiscovery.Redis.Client

/-! The query service: the listing of a network, the status of one peer, and
the Redis reads behind both. -/

namespace CkbDiscovery.Exposed

open Effect Redis Marci

/-- Conversions made by other libraries; the calendar ends with a last second. -/
structure Formats (F64 : Type) where
  boolValue : String → Option Bool
  u64Value : String → Option UInt64
  f64Value : String → Option F64
  lastSecond : Nat

/-- `lastSeen` counts seconds since the epoch. -/
structure Peer (F64 : Type) where
  id : Int32
  version : String
  versionShort : String
  lastSeen : Option Nat
  country : Option String
  city : Option String
  latitude : Option F64
  longitude : Option F64
  nodeType : Int32
  deriving DecidableEq

structure PeerStatus (F64 : Type) where
  peerId : String
  inMap : Bool
  info : Option (Peer F64)
  deriving DecidableEq

/-- Country, city, latitude, longitude, full flag and time stamp of a peer. -/
structure PeerDetails (F64 : Type) where
  country : Option String
  city : Option String
  latitude : Option F64
  longitude : Option F64
  full : Option Bool
  timestamp : UInt64

/-- Group one of `^(.*?)[^0-9.].*$`: a dot matches no line break, the class
does, and the end is the end of the text. -/
def versionPrefix : List Char → Option (List Char)
  | [] => none
  | char :: rest =>
    if ¬ (char.isDigit ∨ char = '.') ∧ '\n' ∉ rest then some []
    else if char = '\n' then none
    else (versionPrefix rest).map (char :: ·)

def versionShort (version : String) : String :=
  match versionPrefix version.toList with
  | some captured => String.ofList captured
  | none => version

def nodeTypeFromFull : Option Bool → Int32
  | some true => 0
  | some false => 1
  | none => 0

def splitComma (text : String) : List String := (text.toList.splitOn ',').map String.ofList

variable {Call : Type} {Reply : Call → Type} [Client Reply] {F64 : Type} (formats : Formats F64)

/-- `get` of an optional value, with errors counted as absence. -/
def getOptional (convert : String → Option α) (key : String) : Program Reply (Option α) := do
  match ← Client.send (.get key) with
  | .ok (some content) => pure (convert content)
  | .ok none => pure none
  | .error _ => pure none

def getPeerInfo (peerId : String) : Program Reply (PeerDetails F64) := do
  let country ← getOptional some (KeyFormat.peerCountry.key peerId)
  let city ← getOptional some (KeyFormat.peerCity.key peerId)
  let loc ← getOptional some (KeyFormat.peerPos.key peerId)
  let latLon := (loc.map splitComma).getD []
  let full ← getOptional formats.boolValue (KeyFormat.peerFull.key peerId)
  let timestamp ← getOptional formats.u64Value (KeyFormat.peerSeen.key peerId)
  pure {
    country
    city
    latitude := latLon[0]?.bind formats.f64Value
    longitude := latLon[1]?.bind formats.f64Value
    full
    timestamp := timestamp.getD 0 }

/-- `DateTime::from(UNIX_EPOCH + Duration::from_secs(timestamp))` panics past
the end of the calendar. -/
def dateTime (timestamp : UInt64) : Program Reply Nat :=
  if timestamp.toNat ≤ formats.lastSecond then pure timestamp.toNat else .stop

/-- The details of a peer, read and turned into an entry. -/
def makePeer (id : Int32) (version versionShort peerId : String) : Program Reply (Peer F64) := do
  let details ← getPeerInfo formats peerId
  let lastSeen ← dateTime formats details.timestamp
  pure {
    id
    version
    versionShort
    lastSeen := some lastSeen
    country := details.country
    city := details.city
    latitude := details.latitude
    longitude := details.longitude
    nodeType := nodeTypeFromFull details.full }

/-- One branch of `peer_in_map`, for a peer with a record in the given format. -/
def onlineInMap (format : KeyFormat) (peerId : String) : Program Reply (PeerStatus F64) := do
  let version ← unwrapOr "" (Client.getString (format.key peerId))
  let peer ← makePeer formats 0 version (versionShort version) peerId
  pure ⟨peerId, true, some peer⟩

def peerInMap (peerId : String) : Program Reply (PeerStatus F64) := do
  let onlineKeys ← unwrapOr [] (Client.keys (KeyFormat.onlinePeer.key peerId))
  if !onlineKeys.isEmpty then
    onlineInMap formats .onlinePeer peerId
  else
    let online2Keys ← unwrapOr [] (Client.keys (KeyFormat.online2Peer.key peerId))
    if !online2Keys.isEmpty then
      onlineInMap formats .online2Peer peerId
    else
      let unknownKeys ← unwrapOr [] (Client.keys (KeyFormat.unknownPeer.key peerId))
      if !unknownKeys.isEmpty then
        let peer ← makePeer formats 0 "" "Unknown" peerId
        pure ⟨peerId, true, some peer⟩
      else
        pure ⟨peerId, false, none⟩

/-- The piece before the last dot; a key without one is a panic. -/
def reachableKeysToPeerIds (keys : List String) : Option (List String) :=
  keys.mapM fun key => (rsplitDot key)[1]?

def keysToPeerIds (keys : List String) : List String :=
  keys.map fun key => ((rsplitOnceDot key).map Prod.snd).getD ""

/-- The pattern of the index of a network; other networks are unreachable. -/
def indexPattern : CKBNetworkType → Option String
  | .mirana => some "network.peer.*.mirana"
  | .pudge => some "network.peer.*.pudge"
  | .dev => none

/-- A program whose errors are returned to its caller. -/
abbrev Query (Reply : Call → Type) := ExceptT RedisError (Program Reply)

/-- The ids with a live status record, as the scans found them. -/
structure Statuses where
  onlinePeers : List String
  online2Peers : List String
  unknownPeers : List String

def scanStatuses : Query Reply Statuses := do
  let onlineKeys ← ExceptT.mk (Client.keys "peer.online.*")
  let online2Keys ← ExceptT.mk (Client.keys "peer.online2.*")
  let unknownKeys ← ExceptT.mk (Client.keys "peer.unknown.*")
  pure ⟨keysToPeerIds onlineKeys, keysToPeerIds online2Keys, keysToPeerIds unknownKeys⟩

def listedVersion (statuses : Statuses) (peerId : String) : Query Reply String :=
  if statuses.onlinePeers.contains peerId then
    ExceptT.mk (Client.getString (KeyFormat.onlinePeer.key peerId))
  else if statuses.online2Peers.contains peerId then
    ExceptT.mk (Client.getString (KeyFormat.online2Peer.key peerId))
  else pure ""

def listedVersionShort (statuses : Statuses) (peerId version : String) : String :=
  if !statuses.onlinePeers.contains peerId && !statuses.online2Peers.contains peerId then "Unknown"
  else versionShort version

/-- The loop over the index, from a position on. -/
def listPeers (statuses : Statuses) : Nat → List String → Query Reply (List (String × Peer F64))
  | _, [] => pure []
  | index, peerId :: rest =>
    if !statuses.onlinePeers.contains peerId && !statuses.online2Peers.contains peerId &&
        !statuses.unknownPeers.contains peerId then
      listPeers statuses (index + 1) rest
    else do
      let version ← listedVersion statuses peerId
      let peer ← ExceptT.lift (makePeer formats (Int32.ofNat index) version
        (listedVersionShort statuses peerId version) peerId : Program Reply (Peer F64))
      let peers ← listPeers statuses (index + 1) rest
      pure ((peerId, peer) :: peers)

/-- `get_peers` with the id of each entry kept beside it. -/
def getLabelledPeers (network : CKBNetworkType) : Query Reply (List (String × Peer F64)) :=
  match indexPattern network with
  | none => ExceptT.lift .stop
  | some pattern => do
    let keys ← ExceptT.mk (Client.keys pattern)
    match reachableKeysToPeerIds keys with
    | none => ExceptT.lift .stop
    | some peerIds =>
      let statuses ← scanStatuses
      listPeers formats statuses 0 peerIds

def getPeers (network : CKBNetworkType) : Query Reply (List (Peer F64)) := do
  let peers ← getLabelledPeers formats network
  pure (peers.map Prod.snd)

/-- Conversions for concrete runs. -/
def sampleFormats : Formats Unit where
  boolValue text := if text = "1" then some true else if text = "0" then some false else none
  u64Value text := if text = "0" then some 0 else none
  f64Value _ := none
  lastSecond := 8210266876799

example : versionShort "0.111.0 (be4e9ab 2023-06-02)" = "0.111.0" := by decide

end CkbDiscovery.Exposed
