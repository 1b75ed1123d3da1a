import CkbDiscovery.Marci.Effects
import CkbDiscovery.Redis.Locality

/-! Which records each piece of a handler may read or write. Everything else is
left to time, by `frame_within`. -/

namespace CkbDiscovery.Marci

open Effect Redis

/-- Records of one peer in the given formats, and the service record. -/
def recordKeys (formats : List KeyFormat) (peerId : String) : Set String :=
  {key | key = serviceLastUpdateKey ∨ ∃ format ∈ formats, key = format.key peerId}

@[simp] theorem mem_recordKeys {formats : List KeyFormat} {peerId other : String}
    {format : KeyFormat} :
    format.key other ∈ recordKeys formats peerId ↔ format ∈ formats ∧ other = peerId := by
  simp only [recordKeys, Set.mem_ofPred_eq, key_ne_serviceLastUpdate, KeyFormat.key_eq_key, false_or]
  constructor
  · intro given
    obtain ⟨_, member, rfl, same⟩ := given
    exact ⟨member, same⟩
  · intro given
    obtain ⟨member, same⟩ := given
    exact ⟨format, member, rfl, same⟩

theorem recordKeys_mono {smaller larger : List KeyFormat} (included : smaller ⊆ larger)
    (peerId : String) : recordKeys smaller peerId ⊆ recordKeys larger peerId := by
  rintro key (service | ⟨format, member, same⟩)
  · exact .inl service
  · exact .inr ⟨format, included member, same⟩

theorem Served.frame_record {command : Command} {value : command.Reply} {before after asked : State}
    (served : Served command value before after asked) (format : KeyFormat) (peerId : String)
    (written : command.writes = some (format.key peerId)) :
    before.redis.FadesOutside (recordKeys [format] peerId) after.redis := by
  refine served.frame.mono ?_
  intro key same
  obtain rfl := Option.some.inj (written.symm.trans same)
  simp

/-- The formats one message may touch, all under the id of the peer it is about. -/
def Message.formats : Message → List KeyFormat
  | .online _ => [.onlinePeer, .online2Peer, .onlineIp, .peerCountry, .peerCity, .peerRegion,
      .peerPos, .peerFull, .peerSeen, .unknownPeer]
  | .unknown _ => [.onlinePeer, .unknownPeer, .reachablePeer, .peerSeen]
  | .reachable peer => [.reachablePeer, .peerNetworkQuick peer.peer.network, .peerIp, .peerNetwork,
      .peerSeen, .peerCountry, .peerCity, .peerRegion, .peerPos]
  | .tick => []

/-- The peer a message is about; the tick is about none. -/
def Message.subject : Message → String
  | .online peer => peer.info.peerId
  | .unknown peer => peer.peerId
  | .reachable peer => peer.peer.peerId
  | .tick => ""

/-- Only the tick hands anything to the broker. -/
def Message.broadcasts : Message → Bool
  | .tick => true
  | _ => false

section Within

variable {property : MarciCall → Prop}

theorem within_orReturn {handler : Handler (Except ε α)} (within : handler.Within property) :
    (orReturn handler).Within property :=
  within.andThen fun reply => by cases reply <;> trivial

theorem within_unwrapOr {handler : Handler (Except ε α)} {default : α}
    (within : handler.Within property) : (unwrapOr default handler).Within property :=
  within.andThen fun reply => by cases reply <;> trivial

theorem within_send {command : Command} (holds : property (.redis command)) :
    (Client.send command : Handler _).Within property :=
  ⟨holds, fun _ => trivial⟩

theorem within_command {command : Command} (holds : property (.redis command)) :
    (orReturn (Client.send command) : Handler _).Within property :=
  within_orReturn (within_send holds)

theorem within_getString {key : String} (holds : property (.redis (.get key))) :
    (Client.getString key : Handler _).Within property :=
  Program.Within.andThen (within_send holds) fun reply => by rcases reply with _ | _ | _ <;> trivial

end Within

/-- The handler writes records of these formats of this peer only, and nothing
is published by one that does not broadcast. -/
def OnlyWrites (broadcasts : Bool) (formats : List KeyFormat) (peerId : String)
    (handler : Handler α) : Prop :=
  handler.Within fun question =>
    (∀ key, question.writes = some key → key ∈ recordKeys formats peerId) ∧
      ∀ topic payload, question = .publish topic payload → broadcasts = true

variable {broadcasts : Bool} {formats : List KeyFormat} {peerId : String}

theorem OnlyWrites.frame_reached {handler : Handler α} (only : OnlyWrites broadcasts formats peerId handler)
    (reaches : Reaches world before handler trace after) :
    before.redis.FadesOutside (recordKeys formats peerId) after.redis :=
  frame_within (Program.Within.mono only fun _ allowed => allowed.1) reaches

theorem OnlyWrites.frame {handler : Handler α} (only : OnlyWrites broadcasts formats peerId handler)
    (completes : HandlerCompletes before handler trace after value) :
    before.redis.FadesOutside (recordKeys formats peerId) after.redis :=
  only.frame_reached completes.reaches

theorem MarciCall.writes_of_stores {question : MarciCall} {key : String}
    (stored : question.stores = some key) : question.writes = some key := by
  cases question with
  | redis command => exact Command.writes_of_stores stored
  | _ => cases stored

theorem OnlyWrites.unwritten_reached {handler : Handler α}
    (only : OnlyWrites broadcasts formats peerId handler)
    (reaches : Reaches world before handler trace after) (format : KeyFormat)
    (other : String) (outside : format ∉ formats ∨ other ≠ peerId) :
    ∀ event ∈ trace, event.question.writes ≠ some (format.key other) := by
  intro event member written
  have allowed := Reaches.permitted only reaches event member
  obtain ⟨inside, same⟩ := mem_recordKeys.mp (allowed.1 _ written)
  rcases outside with absent | different
  · exact absent inside
  · exact different same

theorem OnlyWrites.unwritten {handler : Handler α} (only : OnlyWrites broadcasts formats peerId handler)
    (completes : HandlerCompletes before handler trace after value) (format : KeyFormat)
    (other : String) (outside : format ∉ formats ∨ other ≠ peerId) :
    ∀ event ∈ trace, event.question.writes ≠ some (format.key other) :=
  only.unwritten_reached completes.reaches format other outside

/-- A handler that does not write a record stores no value in it either. -/
theorem OnlyWrites.unstored {handler : Handler α} (only : OnlyWrites broadcasts formats peerId handler)
    (completes : HandlerCompletes before handler trace after value) (format : KeyFormat)
    (other : String) (outside : format ∉ formats ∨ other ≠ peerId) :
    ∀ event ∈ trace, event.question.stores ≠ some (format.key other) := by
  intro event member stored
  exact only.unwritten completes format other outside event member
    (MarciCall.writes_of_stores stored)

/-- What holds of every call that leaves a record alone holds of a handler that
does not write it. -/
theorem OnlyWrites.implies {property : MarciCall → Prop} {handler : Handler α}
    (only : OnlyWrites broadcasts formats peerId handler) (format : KeyFormat) (other : String)
    (outside : format ∉ formats ∨ other ≠ peerId)
    (unwritten : ∀ question, question.writes ≠ some (format.key other) → property question) :
    handler.Within property := by
  refine Program.Within.mono only fun question allowed => unwritten question fun written => ?_
  obtain ⟨inside, same⟩ := mem_recordKeys.mp (allowed.1 _ written)
  rcases outside with absent | different
  · exact absent inside
  · exact different same

theorem OnlyWrites.mono {smaller larger : List KeyFormat} {handler : Handler α}
    (only : OnlyWrites broadcasts smaller peerId handler) (included : smaller ⊆ larger) :
    OnlyWrites broadcasts larger peerId handler :=
  Program.Within.mono only fun _ allowed =>
    ⟨fun key written => recordKeys_mono included peerId (allowed.1 key written), allowed.2⟩

theorem OnlyWrites.andThen {handler : Handler α} {next : α → Handler β}
    (first : OnlyWrites broadcasts formats peerId handler)
    (rest : ∀ value, OnlyWrites broadcasts formats peerId (next value)) :
    OnlyWrites broadcasts formats peerId (handler >>= next) :=
  Program.Within.andThen first rest

theorem onlyWrites_ask {question : MarciCall} (free : question.writes = none)
    (unpublished : ∀ topic payload, question ≠ .publish topic payload) :
    OnlyWrites broadcasts formats peerId (ask question) :=
  ⟨⟨fun key written => (by rw [free] at written; cases written),
    fun topic payload same => absurd same (unpublished topic payload)⟩, fun _ => trivial⟩

theorem onlyWrites_publish (topic payload : String) :
    OnlyWrites true formats peerId (ask (.publish topic payload)) :=
  ⟨⟨nofun, fun _ _ _ => rfl⟩, fun _ => trivial⟩

theorem onlyWrites_send {command : Command}
    (allowed : ∀ key, command.writes = some key → key ∈ recordKeys formats peerId) :
    OnlyWrites broadcasts formats peerId (Client.send command : Handler _) :=
  within_send ⟨allowed, nofun⟩

theorem OnlyWrites.orReturn {handler : Handler (Except ε α)}
    (only : OnlyWrites broadcasts formats peerId handler) : OnlyWrites broadcasts formats peerId (orReturn handler) :=
  within_orReturn only

theorem OnlyWrites.unwrapOr {handler : Handler (Except ε α)} {default : α}
    (only : OnlyWrites broadcasts formats peerId handler) :
    OnlyWrites broadcasts formats peerId (unwrapOr default handler) :=
  within_unwrapOr only

theorem onlyWrites_read {command : Command} (free : command.writes = none) :
    OnlyWrites broadcasts formats peerId (Client.send command : Handler _) :=
  onlyWrites_send fun key written => by rw [free] at written; cases written

theorem onlyWrites_getString (key : String) :
    OnlyWrites broadcasts formats peerId (Client.getString key : Handler _) :=
  within_getString ⟨nofun, nofun⟩

/-- One command that writes one record of the peer. -/
theorem onlyWrites_record {command : Command} (format : KeyFormat)
    (written : command.writes = some (format.key peerId)) (member : format ∈ formats) :
    OnlyWrites broadcasts formats peerId (orReturn (Client.send command) : Handler _) := by
  refine (onlyWrites_send fun key same => ?_).orReturn
  obtain rfl := Option.some.inj (written.symm.trans same)
  exact mem_recordKeys.mpr ⟨member, rfl⟩

theorem onlyWrites_setLastUpdate : OnlyWrites broadcasts formats peerId setLastUpdate := by
  refine (onlyWrites_ask rfl (by nofun)).andThen fun _ => (onlyWrites_send fun key written => ?_).unwrapOr
  exact .inl (Option.some.inj written).symm

/-- Calls about records of these formats of this peer; addresses are looked up
only where peers are located, and nothing is published. -/
def MarciCall.About (locates : Bool) (formats : List KeyFormat) (peerId : String) : MarciCall → Prop
  | .redis command => ∃ format ∈ formats, command.touches = some (format.key peerId)
  | .systemTime => True
  | .cachedIpinfo _ | .cacheIpinfo .. | .lookupIpinfo _ => locates = true
  | .publish .. => False

/-- The handler neither reads nor writes any other record. -/
def Touches (locates : Bool) (formats : List KeyFormat) (peerId : String) (handler : Handler α) : Prop :=
  handler.Within fun question => question.About locates formats peerId

variable {locates : Bool}

theorem Command.touches_of_writes {command : Command} {key : String}
    (written : command.writes = some key) : command.touches = some key := by
  cases command <;> simp_all [Command.touches, Command.writes]

theorem MarciCall.About.writes {question : MarciCall} (about : question.About locates formats peerId) :
    (∀ key, question.writes = some key → key ∈ recordKeys formats peerId) ∧
      ∀ topic payload, question ≠ .publish topic payload := by
  cases question with
  | redis command =>
    obtain ⟨format, member, touched⟩ := about
    refine ⟨fun key written => ?_, nofun⟩
    obtain rfl := Option.some.inj (touched.symm.trans (Command.touches_of_writes written))
    exact mem_recordKeys.mpr ⟨member, rfl⟩
  | publish topic payload => cases about
  | _ => exact ⟨nofun, nofun⟩

theorem Touches.onlyWrites {handler : Handler α} (touches : Touches locates formats peerId handler) :
    OnlyWrites broadcasts formats peerId handler :=
  Program.Within.mono touches fun _ about =>
    ⟨about.writes.1, fun topic payload same => absurd same (about.writes.2 topic payload)⟩

theorem Touches.mono {smaller larger : List KeyFormat} {handler : Handler α}
    (touches : Touches locates smaller peerId handler) (included : smaller ⊆ larger) :
    Touches locates larger peerId handler := by
  apply Program.Within.mono touches
  intro question about
  cases question with
  | redis command =>
    obtain ⟨format, member, touched⟩ := about
    exact ⟨format, included member, touched⟩
  | _ => exact about

theorem Touches.andThen {handler : Handler α} {next : α → Handler β}
    (first : Touches locates formats peerId handler)
    (rest : ∀ value, Touches locates formats peerId (next value)) :
    Touches locates formats peerId (handler >>= next) :=
  Program.Within.andThen first rest

theorem Touches.orReturn {handler : Handler (Except ε α)}
    (touches : Touches locates formats peerId handler) :
    Touches locates formats peerId (orReturn handler) :=
  within_orReturn touches

theorem Touches.unwrapOr {handler : Handler (Except ε α)} {default : α}
    (touches : Touches locates formats peerId handler) :
    Touches locates formats peerId (unwrapOr default handler) :=
  within_unwrapOr touches

/-- One command about one record of the peer. -/
theorem touches_record {command : Command} (format : KeyFormat)
    (touched : command.touches = some (format.key peerId)) (member : format ∈ formats) :
    Touches locates formats peerId (Client.send command : Handler _) :=
  within_send ⟨format, member, touched⟩

theorem touches_getString (format : KeyFormat) (member : format ∈ formats) :
    Touches locates formats peerId (Client.getString (format.key peerId) : Handler _) :=
  within_getString ⟨format, member, rfl⟩

theorem touches_tryIntoI64 (value : UInt64) :
    Touches locates formats peerId (tryIntoI64 value) := by
  unfold tryIntoI64
  split <;> trivial

theorem touches_lookupIpinfo (ip : String) : Touches true formats peerId (lookupIpinfo ip) := by
  refine ⟨rfl, fun cached => ?_⟩
  cases cached with
  | some details => trivial
  | none =>
    refine ⟨rfl, fun found => ?_⟩
    cases found with
    | none => trivial
    | some details => exact ⟨rfl, fun _ => trivial⟩

theorem touches_queryByReachable (addresses : List EndpointInfo) :
    Touches true formats peerId (queryByReachable addresses) := by
  induction addresses with
  | nil => trivial
  | cons addr rest inductionHypothesis =>
    refine (touches_lookupIpinfo _).andThen fun found => ?_
    cases found with
    | none => exact inductionHypothesis
    | some details => trivial

def locationFormats : List KeyFormat := [.peerCountry, .peerCity, .peerRegion, .peerPos]

theorem touches_setIpDetails (peerId : String) (ip : IpDetails) :
    Touches locates locationFormats peerId (setIpDetails peerId ip) :=
  (touches_record .peerCountry rfl (by decide)).orReturn.andThen fun _ =>
  (touches_record .peerCity rfl (by decide)).orReturn.andThen fun _ =>
  (touches_record .peerRegion rfl (by decide)).orReturn.andThen fun _ =>
  (touches_record .peerPos rfl (by decide)).orReturn

theorem touches_setLastSeen (peerId : String) :
    Touches locates [.peerSeen] peerId (setLastSeen peerId) :=
  ⟨trivial, fun _ => (touches_record .peerSeen rfl (by decide)).orReturn⟩

theorem onlyWrites_setLastSeen (peerId : String) :
    OnlyWrites false [.peerSeen] peerId (setLastSeen peerId) :=
  Touches.onlyWrites (touches_setLastSeen peerId : Touches false _ _ _)

variable {config : Config} {serde : Serde}

theorem touches_expireOnline (peerId : String) :
    Touches locates [.onlinePeer] peerId (expireOnline config (KeyFormat.onlinePeer.key peerId)) :=
  (touches_tryIntoI64 _).andThen fun _ =>
    (touches_record .onlinePeer rfl (by decide)).orReturn.andThen fun _ => trivial

theorem onlyWrites_expireOnline (peerId : String) :
    OnlyWrites false [.onlinePeer] peerId (expireOnline config (KeyFormat.onlinePeer.key peerId)) :=
  Touches.onlyWrites (touches_expireOnline peerId : Touches false _ _ _)

theorem touches_markOnline (peer : PeerInfo) :
    Touches locates [.onlinePeer, .online2Peer] peer.info.peerId (markOnline config peer) := by
  refine (touches_getString .onlinePeer (by decide)).andThen fun reply => ?_
  cases reply with
  | ok version => exact (touches_expireOnline _).mono (by decide)
  | error _ =>
    dsimp only
    split
    · exact (touches_record .online2Peer rfl (by decide)).orReturn
    · exact (touches_record .onlinePeer rfl (by decide)).orReturn

theorem onlyWrites_markOnline (peer : PeerInfo) :
    OnlyWrites false [.onlinePeer, .online2Peer] peer.info.peerId (markOnline config peer) :=
  Touches.onlyWrites (touches_markOnline peer : Touches false _ _ _)

theorem touches_placeOnline (peer : PeerInfo) (addr : EndpointInfo) :
    Touches locates [.onlineIp] peer.info.peerId (orReturn (Client.setEx (KeyFormat.onlineIp.key peer.info.peerId)
      (serde.endpointInfo.toString addr) config.ckbNodeDefaultTimeout.toNat) : Handler Unit) :=
  (touches_record .onlineIp rfl (by decide)).orReturn

theorem touches_locateOnline (peer : PeerInfo) :
    Touches true (.onlineIp :: locationFormats) peer.info.peerId (locateOnline config serde peer) := by
  unfold locateOnline
  split
  · trivial
  · refine ((touches_placeOnline peer _).mono (by decide)).andThen fun _ => ?_
    refine (touches_lookupIpinfo _).andThen fun found => ?_
    cases found with
    | none => trivial
    | some ip => exact (touches_setIpDetails _ ip).mono (List.subset_cons_self _ _)

theorem onlyWrites_locateOnline (peer : PeerInfo) :
    OnlyWrites false (.onlineIp :: locationFormats) peer.info.peerId (locateOnline config serde peer) :=
  (touches_locateOnline peer).onlyWrites

theorem touches_settleOnline (peer : PeerInfo) :
    Touches locates [.peerFull, .peerSeen, .unknownPeer] peer.info.peerId (settleOnline config peer) :=
  (touches_record .peerFull rfl (by decide)).orReturn.andThen fun _ =>
  ((touches_setLastSeen _).mono (by decide)).andThen fun _ =>
  (touches_record .unknownPeer rfl (by decide)).orReturn.andThen fun _ => trivial

theorem onlyWrites_settleOnline (peer : PeerInfo) :
    OnlyWrites false [.peerFull, .peerSeen, .unknownPeer] peer.info.peerId (settleOnline config peer) :=
  Touches.onlyWrites (touches_settleOnline peer : Touches false _ _ _)

theorem touches_promoteUnknown (peerId : String) :
    Touches locates [.unknownPeer, .reachablePeer] peerId (promoteUnknown config peerId) :=
  (touches_record .unknownPeer rfl (by decide)).orReturn.andThen fun _ =>
    (touches_record .reachablePeer rfl (by decide)).orReturn.andThen fun _ => trivial

theorem onlyWrites_promoteUnknown (peerId : String) :
    OnlyWrites false [.unknownPeer, .reachablePeer] peerId (promoteUnknown config peerId) :=
  Touches.onlyWrites (touches_promoteUnknown peerId : Touches false _ _ _)

theorem touches_verifyWitnesses (peerId : String) :
    Touches locates [.unknownPeer, .reachablePeer] peerId (verifyWitnesses config peerId) := by
  refine (touches_record .reachablePeer rfl (by decide)).unwrapOr.andThen fun witnesses => ?_
  split
  · exact touches_promoteUnknown _
  · trivial

theorem onlyWrites_verifyWitnesses (peerId : String) :
    OnlyWrites false [.unknownPeer, .reachablePeer] peerId (verifyWitnesses config peerId) :=
  Touches.onlyWrites (touches_verifyWitnesses peerId : Touches false _ _ _)

theorem touches_markUnknown (peerId : String) :
    Touches locates [.onlinePeer, .unknownPeer, .reachablePeer] peerId (markUnknown config peerId) := by
  refine (touches_getString .onlinePeer (by decide)).andThen fun reply => ?_
  cases reply with
  | ok version => exact (touches_expireOnline _).mono (by decide)
  | error _ => exact (touches_verifyWitnesses _).mono (by decide)

theorem touches_recordReachable (peer : ReachableInfo) :
    Touches locates [.reachablePeer, .peerNetworkQuick peer.peer.network, .peerIp, .peerNetwork]
      peer.peer.peerId (recordReachable serde peer) := by
  refine (touches_record .reachablePeer rfl (by simp)).orReturn.andThen fun _ =>
    (touches_record (.peerNetworkQuick peer.peer.network) rfl (by simp)).orReturn.andThen fun _ =>
    .andThen (Program.Within.forEach fun ip _ => ?_) fun _ =>
    (touches_record .peerNetwork rfl (by simp)).orReturn
  exact (touches_record .peerIp rfl (by simp)).orReturn.andThen fun _ => trivial

theorem touches_knownCountry (peerId : String) : Touches locates [.peerCountry] peerId
    (unwrapOr "" (Client.getString (KeyFormat.peerCountry.key peerId)) : Handler String) :=
  (touches_getString .peerCountry (by decide)).unwrapOr

theorem touches_locateReachable (peer : ReachableInfo) :
    Touches true locationFormats peer.peer.peerId (locateReachable peer) := by
  refine ((touches_knownCountry _).mono (by decide)).andThen fun country => ?_
  split
  · refine (touches_queryByReachable _).andThen fun found => ?_
    cases found with
    | none => trivial
    | some ip => exact touches_setIpDetails _ ip
  · trivial

theorem onlyWrites_locateReachable (peer : ReachableInfo) :
    OnlyWrites false locationFormats peer.peer.peerId (locateReachable peer) :=
  (touches_locateReachable peer).onlyWrites

theorem onlyWrites_gatherDial (id : String) : OnlyWrites broadcasts formats peerId (gatherDial serde id) :=
  (onlyWrites_read rfl).unwrapOr.andThen fun _ =>
    (onlyWrites_getString _).unwrapOr.andThen fun _ => trivial

theorem onlyWrites_requestDial (id : String) : OnlyWrites true formats peerId (requestDial serde id) :=
  (onlyWrites_gatherDial id).andThen fun _ => (onlyWrites_publish _ _).orReturn

/-- The broadcast tick writes no record of any peer. -/
theorem onlyWrites_handleTick : OnlyWrites true [] peerId (handleTick serde) :=
  (onlyWrites_read rfl).orReturn.andThen fun _ =>
    .andThen (Program.Within.forEach fun id _ => onlyWrites_requestDial id) fun _ =>
    onlyWrites_setLastUpdate

theorem onlyWrites_handle (message : Message) :
    OnlyWrites message.broadcasts message.formats message.subject (handle config serde message) := by
  cases message with
  | online peer =>
    exact ((onlyWrites_markOnline peer).mono (by simp [Message.formats])).andThen fun _ =>
      ((onlyWrites_locateOnline peer).mono (by simp [Message.formats, locationFormats])).andThen fun _ =>
      (onlyWrites_settleOnline peer).mono (by simp [Message.formats])
  | unknown peer =>
    have marks : Touches false _ peer.peerId (markUnknown config peer.peerId) :=
      touches_markUnknown peer.peerId
    exact (marks.onlyWrites.mono (by simp [Message.formats])).andThen fun _ =>
      (onlyWrites_setLastSeen peer.peerId).mono (by simp [Message.formats])
  | reachable peer =>
    have records : Touches false _ peer.peer.peerId (recordReachable serde peer) :=
      touches_recordReachable peer
    exact (records.onlyWrites.mono (by simp [Message.formats])).andThen fun _ =>
      ((onlyWrites_setLastSeen peer.peer.peerId).mono (by simp [Message.formats])).andThen fun _ =>
      ((onlyWrites_locateReachable peer).mono (by simp [Message.formats, locationFormats])).andThen fun _ =>
      onlyWrites_setLastUpdate
  | tick => exact onlyWrites_handleTick

end CkbDiscovery.Marci
